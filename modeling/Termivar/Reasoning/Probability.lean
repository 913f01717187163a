/-
# Probabilities and errors of the reasoning contracts

`termivar-core/src/reasoning.rs`: the validation errors of the decision
engine's contracts and `Probability`, a fixed-point number of parts per
million with one Bayesian update, rounded to the nearest part.
-/
import Termivar.Identifier
import Termivar.Machine

namespace Termivar

abbrev EntityId : Type := Identifier .entity

abbrev EvidenceId : Type := Identifier .evidence

/-- Validation errors for decision-engine domain contracts. -/
inductive ReasoningModelError where
  | emptyValue (field : String)
  | confidenceOutOfRange (value : Nat)
  | probabilityOutOfRange (value : Nat)
  | undefinedPosterior
  | emptyDerivationParents
  | tooManyDerivationParents (count max : Nat)
  | derivationAlgorithmTooLong (len max : Nat)
  deriving DecidableEq

/-- The text of an error. -/
def ReasoningModelError.message : ReasoningModelError → String
  | .emptyValue field => s!"{field} must not be empty"
  | .confidenceOutOfRange value => s!"confidence score {value} exceeds 10,000 basis points"
  | .probabilityOutOfRange value => s!"probability {value} exceeds 1,000,000 parts per million"
  | .undefinedPosterior => "Bayesian posterior is undefined for the supplied likelihoods"
  | .emptyDerivationParents =>
    "derived evidence must reference at least one parent evidence record"
  | .tooManyDerivationParents count max =>
    s!"derived evidence references {count} parents, exceeding the maximum of {max}"
  | .derivationAlgorithmTooLong len max =>
    s!"derivation algorithm identifier is {len} bytes, exceeding the maximum of {max}"

def maxProbabilityPartsPerMillion : Nat := 1000000

/-- A probability in parts per million. -/
structure Probability where
  partsPerMillion : Nat
  inRange : partsPerMillion ≤ maxProbabilityPartsPerMillion
  deriving DecidableEq

namespace Probability

def fromPartsPerMillion (value : Nat) : Except ReasoningModelError Probability :=
  if h : value ≤ maxProbabilityPartsPerMillion then .ok ⟨value, h⟩
  else .error (.probabilityOutOfRange value)

/-- The weight of an observation under the hypothesis. -/
def trueWeight (prior likelihoodIfTrue : Probability) : Nat :=
  likelihoodIfTrue.partsPerMillion * prior.partsPerMillion

/-- The weight of an observation under its negation. -/
def falseWeight (prior likelihoodIfFalse : Probability) : Nat :=
  likelihoodIfFalse.partsPerMillion * (maxProbabilityPartsPerMillion - prior.partsPerMillion)

/-- One Bayesian observation applied to this prior, rounded to the nearest
part per million. -/
def update (prior likelihoodIfTrue likelihoodIfFalse : Probability) :
    Except ReasoningModelError Probability :=
  let trueWeight := prior.trueWeight likelihoodIfTrue
  let denominator := trueWeight + prior.falseWeight likelihoodIfFalse
  if denominator = 0 then .error .undefinedPosterior
  else fromPartsPerMillion
    ((trueWeight * maxProbabilityPartsPerMillion + denominator / 2) / denominator)

theorem fromPartsPerMillion_self (p : Probability) : fromPartsPerMillion p.partsPerMillion = .ok p :=
  dif_pos p.inRange

/-- A rounded share of a total is within the scale: the conversion of a
posterior to `u32` does not panic, and its range check passes. -/
theorem rounded_le {part total : Nat} (scale : Nat) (hpart : part ≤ total) (hpos : 0 < total) :
    (part * scale + total / 2) / total ≤ scale := by
  have hhalf : total / 2 < total := Nat.div_lt_self hpos (by norm_num)
  have hscaled : part * scale ≤ total * scale := Nat.mul_le_mul_right scale hpart
  have hlt : part * scale + total / 2 < (scale + 1) * total := by
    calc part * scale + total / 2 < total * scale + total := by omega
      _ = (scale + 1) * total := by ring
  exact Nat.lt_succ_iff.mp ((Nat.div_lt_iff_lt_mul hpos).mpr hlt)

/-- An update fails only where Bayes' theorem has a zero denominator: both
weights of the observation are zero. -/
theorem update_eq_error {prior likelihoodIfTrue likelihoodIfFalse : Probability}
    {e : ReasoningModelError} :
    prior.update likelihoodIfTrue likelihoodIfFalse = .error e ↔
      e = .undefinedPosterior ∧ prior.trueWeight likelihoodIfTrue = 0 ∧
        prior.falseWeight likelihoodIfFalse = 0 := by
  unfold update
  by_cases h : prior.trueWeight likelihoodIfTrue + prior.falseWeight likelihoodIfFalse = 0
  · have hzero : prior.trueWeight likelihoodIfTrue = 0 ∧ prior.falseWeight likelihoodIfFalse = 0 := by
      omega
    simp only [if_true, hzero, and_true, Except.error.injEq, eq_comm]
  · have hle := rounded_le maxProbabilityPartsPerMillion
      (Nat.le_add_right (prior.trueWeight likelihoodIfTrue) (prior.falseWeight likelihoodIfFalse))
      (Nat.pos_of_ne_zero h)
    simp only [if_neg h, fromPartsPerMillion, dif_pos hle, reduceCtorEq, false_iff]
    omega

end Probability

end Termivar
