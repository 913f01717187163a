/-
# The posterior of one observation

`Probability::update` of `termivar-core/src/reasoning.rs`, in the unsigned
arithmetic it is written in: products and sums of `u128` and a conversion to
`u32` that must not fail. None of them overflows, and the rounded posterior is
the exact one up to half a part per million; rounding turns neither the
direction of an observation nor the order of two priors.
-/
import Termivar.Rounding
import Termivar.Reasoning.Probability

namespace Termivar

open Option

def u128Max : Nat := 2 ^ 128 - 1

/-- A product of an unsigned type with the largest value `top`. -/
def checkedMul (top a b : Nat) : Option Nat := if a * b ≤ top then some (a * b) else none

theorem checkedMul_eq {top a b : Nat} (h : a * b ≤ top) : checkedMul top a b = some (a * b) :=
  if_pos h

theorem checkedAdd_eq {top a b : Nat} (h : a + b ≤ top) : checkedAdd top a b = some (a + b) :=
  if_pos h

namespace Probability

/-- An impossible event. -/
def zero : Probability := ⟨0, Nat.zero_le _⟩

/-- A certain event. -/
def one : Probability := ⟨maxProbabilityPartsPerMillion, le_rfl⟩

variable (prior likelihoodIfTrue likelihoodIfFalse : Probability)

/-- `Probability::update` in `u128`; `none` where an operation overflows or
the conversion to `u32` fails. -/
def updateU128 :
    Option (Except ReasoningModelError Probability) := do
  let scale := maxProbabilityPartsPerMillion
  let trueWeight ← checkedMul u128Max likelihoodIfTrue.partsPerMillion prior.partsPerMillion
  let rest ← if prior.partsPerMillion ≤ scale then some (scale - prior.partsPerMillion) else none
  let falseWeight ← checkedMul u128Max likelihoodIfFalse.partsPerMillion rest
  let denominator ← checkedAdd u128Max trueWeight falseWeight
  if denominator = 0 then return .error .undefinedPosterior
  let scaled ← checkedMul u128Max trueWeight scale
  let shifted ← checkedAdd u128Max scaled (denominator / 2)
  let rounded := shifted / denominator
  let value ← if rounded ≤ u32Max then some rounded else none
  return fromPartsPerMillion value

/-- The weight of an observation under the hypothesis and its negation. -/
def totalWeight : Nat :=
  prior.trueWeight likelihoodIfTrue + prior.falseWeight likelihoodIfFalse

/-- The exact posterior, in parts per million. -/
def posterior : ℚ :=
  (likelihoodIfTrue.partsPerMillion * prior.partsPerMillion * 10 ^ 6) /
    (likelihoodIfTrue.partsPerMillion * prior.partsPerMillion +
      likelihoodIfFalse.partsPerMillion * (10 ^ 6 - prior.partsPerMillion))

/-! ### No operation overflows -/

section Bounds

variable (prior likelihoodIfTrue likelihoodIfFalse : Probability)

theorem trueWeight_le : prior.trueWeight likelihoodIfTrue ≤ 10 ^ 12 :=
  (Nat.mul_le_mul likelihoodIfTrue.inRange prior.inRange).trans_eq (by decide)

theorem falseWeight_le : prior.falseWeight likelihoodIfFalse ≤ 10 ^ 12 :=
  (Nat.mul_le_mul likelihoodIfFalse.inRange (Nat.sub_le _ _)).trans_eq (by decide)

variable {prior likelihoodIfTrue likelihoodIfFalse}

theorem rounded_le_scale (h : totalWeight prior likelihoodIfTrue likelihoodIfFalse ≠ 0) :
    roundDiv (prior.trueWeight likelihoodIfTrue * maxProbabilityPartsPerMillion)
      (totalWeight prior likelihoodIfTrue likelihoodIfFalse) ≤ maxProbabilityPartsPerMillion :=
  rounded_le _ (Nat.le_add_right _ _) (Nat.pos_of_ne_zero h)

variable (prior likelihoodIfTrue likelihoodIfFalse)

/-- The operations of `update` stay within `u128`, and the rounded posterior
within `u32`. -/
theorem updateU128_eq : updateU128 prior likelihoodIfTrue likelihoodIfFalse =
    some (update prior likelihoodIfTrue likelihoodIfFalse) := by
  have htrue := trueWeight_le prior likelihoodIfTrue
  have hfalse := falseWeight_le prior likelihoodIfFalse
  have hbig : 10 ^ 12 * maxProbabilityPartsPerMillion + 10 ^ 12 ≤ u128Max := by decide
  have hscaled : prior.trueWeight likelihoodIfTrue * maxProbabilityPartsPerMillion ≤
      10 ^ 12 * maxProbabilityPartsPerMillion := Nat.mul_le_mul_right _ htrue
  have hsm : 10 ^ 12 + 10 ^ 12 ≤ u128Max := by decide
  unfold updateU128 update
  simp only [if_pos prior.inRange, bind_eq_bind, bind_some]
  have htrueW : checkedMul u128Max likelihoodIfTrue.partsPerMillion prior.partsPerMillion =
      some (prior.trueWeight likelihoodIfTrue) := checkedMul_eq (by
    unfold trueWeight at htrue
    omega)
  have hfals : checkedMul u128Max likelihoodIfFalse.partsPerMillion
      (maxProbabilityPartsPerMillion - prior.partsPerMillion) =
      some (prior.falseWeight likelihoodIfFalse) := checkedMul_eq (by
    unfold falseWeight at hfalse
    omega)
  rw [htrueW, hfals]
  simp only [bind_some]
  rw [checkedAdd_eq (by omega), bind_some]
  split_ifs with hzero
  · rfl
  · rw [checkedMul_eq (by omega), bind_some, checkedAdd_eq (by omega), bind_some]
    have hroun := rounded_le_scale hzero
    unfold roundDiv totalWeight at hroun
    rw [if_pos (le_trans hroun (by decide))]
    rfl

end Bounds

/-! ### The rounded posterior -/

section Posterior

variable {prior prior' likelihoodIfTrue likelihoodIfFalse result result' : Probability}

theorem eq_of_partsPerMillion (h : prior.partsPerMillion = prior'.partsPerMillion) :
    prior = prior' := by
  cases prior
  cases prior'
  simpa using h

theorem update_eq (h : totalWeight prior likelihoodIfTrue likelihoodIfFalse ≠ 0) :
    update prior likelihoodIfTrue likelihoodIfFalse = .ok ⟨_, rounded_le_scale h⟩ := by
  unfold update
  exact (if_neg h).trans (dif_pos (rounded_le_scale h))

/-- The value of an update is the rounded share of the true weight. -/
theorem update_eq_ok : update prior likelihoodIfTrue likelihoodIfFalse = .ok result ↔
    totalWeight prior likelihoodIfTrue likelihoodIfFalse ≠ 0 ∧ result.partsPerMillion =
      roundDiv (prior.trueWeight likelihoodIfTrue * maxProbabilityPartsPerMillion)
        (totalWeight prior likelihoodIfTrue likelihoodIfFalse) := by
  by_cases hzero : totalWeight prior likelihoodIfTrue likelihoodIfFalse = 0
  · have hfls : update prior likelihoodIfTrue likelihoodIfFalse = .error .undefinedPosterior :=
      if_pos hzero
    rw [hfls]
    exact ⟨fun h => (by cases h), fun h => absurd hzero h.1⟩
  · rw [update_eq hzero]
    constructor
    · rintro h
      cases h
      exact ⟨hzero, rfl⟩
    · rintro ⟨-, hres⟩
      exact congrArg Except.ok (eq_of_partsPerMillion hres.symm)

theorem totalWeight_eq_zero : totalWeight prior likelihoodIfTrue likelihoodIfFalse = 0 ↔
    likelihoodIfTrue.partsPerMillion * prior.partsPerMillion +
      likelihoodIfFalse.partsPerMillion * (10 ^ 6 - prior.partsPerMillion) = 0 := Iff.rfl

/-- The exact posterior is the share of the true weight, in parts per million. -/
theorem posterior_eq : posterior prior likelihoodIfTrue likelihoodIfFalse =
    ((prior.trueWeight likelihoodIfTrue * maxProbabilityPartsPerMillion : ℕ) : ℚ) /
      (totalWeight prior likelihoodIfTrue likelihoodIfFalse : ℕ) := by
  have hrg : prior.partsPerMillion ≤ 1000000 := prior.inRange
  unfold posterior totalWeight trueWeight falseWeight maxProbabilityPartsPerMillion
  push_cast [Nat.cast_sub hrg]
  norm_num

theorem update_within_half (h : update prior likelihoodIfTrue likelihoodIfFalse = .ok result) :
    |posterior prior likelihoodIfTrue likelihoodIfFalse - result.partsPerMillion| ≤ 1 / 2 := by
  obtain ⟨hpos, hvalue⟩ := update_eq_ok.mp h
  rw [posterior_eq, hvalue]
  exact roundDiv_within_half (Nat.pos_of_ne_zero hpos)

/-- The prior, scaled by the total weight, in terms of the two likelihoods. -/
theorem scaled_prior (prior : Probability) : prior.partsPerMillion * maxProbabilityPartsPerMillion =
    prior.partsPerMillion * prior.partsPerMillion +
      prior.partsPerMillion * (maxProbabilityPartsPerMillion - prior.partsPerMillion) := by
  rw [← Nat.mul_add, Nat.add_sub_cancel' prior.inRange]

/-- An observation that is no less likely under the hypothesis does not lower
the probability. -/
theorem prior_le_of_update (h : update prior likelihoodIfTrue likelihoodIfFalse = .ok result)
    (hle : likelihoodIfFalse.partsPerMillion ≤ likelihoodIfTrue.partsPerMillion) :
    prior.partsPerMillion ≤ result.partsPerMillion := by
  obtain ⟨hpos, hvalue⟩ := update_eq_ok.mp h
  rw [hvalue]
  refine le_roundDiv (Nat.pos_of_ne_zero hpos) ?_
  unfold totalWeight trueWeight falseWeight
  have hscaled := scaled_prior prior
  nlinarith [Nat.mul_le_mul_right
    (prior.partsPerMillion * (maxProbabilityPartsPerMillion - prior.partsPerMillion)) hle]

/-- An observation that is no more likely under the hypothesis does not raise
the probability. -/
theorem update_le_prior (h : update prior likelihoodIfTrue likelihoodIfFalse = .ok result)
    (hle : likelihoodIfTrue.partsPerMillion ≤ likelihoodIfFalse.partsPerMillion) :
    result.partsPerMillion ≤ prior.partsPerMillion := by
  obtain ⟨hpos, hvalue⟩ := update_eq_ok.mp h
  rw [hvalue]
  refine roundDiv_le (Nat.pos_of_ne_zero hpos) ?_
  unfold totalWeight trueWeight falseWeight
  have hscaled := scaled_prior prior
  nlinarith [Nat.mul_le_mul_right
    (prior.partsPerMillion * (maxProbabilityPartsPerMillion - prior.partsPerMillion)) hle]

/-- A higher prior has a posterior that is no lower. -/
theorem update_mono (hprior : prior.partsPerMillion ≤ prior'.partsPerMillion)
    (h : update prior likelihoodIfTrue likelihoodIfFalse = .ok result)
    (h' : update prior' likelihoodIfTrue likelihoodIfFalse = .ok result') :
    result.partsPerMillion ≤ result'.partsPerMillion := by
  obtain ⟨hpos, hvalue⟩ := update_eq_ok.mp h
  obtain ⟨hpos', hvalue'⟩ := update_eq_ok.mp h'
  rw [hvalue, hvalue']
  refine roundDiv_mono (Nat.pos_of_ne_zero hpos) (Nat.pos_of_ne_zero hpos') ?_
  -- The products of the true weights agree; what is left weighs each prior
  -- against the complement of the other.
  have hcross : prior.partsPerMillion * (maxProbabilityPartsPerMillion - prior'.partsPerMillion) ≤
      prior'.partsPerMillion * (maxProbabilityPartsPerMillion - prior.partsPerMillion) :=
    Nat.mul_le_mul hprior (Nat.sub_le_sub_left hprior _)
  unfold totalWeight trueWeight falseWeight
  have hscaled := Nat.mul_le_mul_left (likelihoodIfTrue.partsPerMillion *
    likelihoodIfFalse.partsPerMillion * maxProbabilityPartsPerMillion) hcross
  nlinarith [hscaled]

theorem update_zero (h : update zero likelihoodIfTrue likelihoodIfFalse = .ok result) :
    result = zero := by
  have hle : result.partsPerMillion ≤ 0 := by
    obtain ⟨hpos, hvalue⟩ := update_eq_ok.mp h
    rw [hvalue]
    refine roundDiv_le (Nat.pos_of_ne_zero hpos) (le_of_eq ?_)
    simp [trueWeight, zero]
  exact eq_of_partsPerMillion (Nat.le_zero.mp hle)

theorem update_one (h : update one likelihoodIfTrue likelihoodIfFalse = .ok result) :
    result = one := by
  have hle : maxProbabilityPartsPerMillion ≤ result.partsPerMillion := by
    obtain ⟨hpos, hvalue⟩ := update_eq_ok.mp h
    rw [hvalue]
    refine le_roundDiv (Nat.pos_of_ne_zero hpos) (le_of_eq ?_)
    simp [totalWeight, falseWeight, one, mul_comm]
  exact eq_of_partsPerMillion (le_antisymm result.inRange hle)

end Posterior

/-- **One Bayesian update.** No operation of `update` overflows, and its
conversion to `u32` succeeds. It fails exactly where both weights vanish; else
its value is a probability within half a part per million of the exact
posterior, on the side of the prior that the likelihoods say, monotone in the
prior, and impossible and certain events stay so. -/
theorem update_posterior (prior likelihoodIfTrue likelihoodIfFalse : Probability) :
    updateU128 prior likelihoodIfTrue likelihoodIfFalse =
      some (update prior likelihoodIfTrue likelihoodIfFalse) ∧
    ((∃ e, update prior likelihoodIfTrue likelihoodIfFalse = .error e) ↔
      likelihoodIfTrue.partsPerMillion * prior.partsPerMillion +
        likelihoodIfFalse.partsPerMillion * (10 ^ 6 - prior.partsPerMillion) = 0) ∧
    ∀ result, update prior likelihoodIfTrue likelihoodIfFalse = .ok result →
      result.partsPerMillion ≤ 10 ^ 6 ∧
      |posterior prior likelihoodIfTrue likelihoodIfFalse - result.partsPerMillion| ≤ 1 / 2 ∧
      (likelihoodIfFalse.partsPerMillion ≤ likelihoodIfTrue.partsPerMillion →
        prior.partsPerMillion ≤ result.partsPerMillion) ∧
      (likelihoodIfTrue.partsPerMillion ≤ likelihoodIfFalse.partsPerMillion →
        result.partsPerMillion ≤ prior.partsPerMillion) ∧
      (∀ prior' result', prior.partsPerMillion ≤ prior'.partsPerMillion →
        update prior' likelihoodIfTrue likelihoodIfFalse = .ok result' →
        result.partsPerMillion ≤ result'.partsPerMillion) ∧
      (prior = zero ∨ prior = one → result = prior) := by
  refine ⟨updateU128_eq _ _ _, ?_, fun result h => ⟨result.inRange, update_within_half h,
    prior_le_of_update h, update_le_prior h, fun prior' result' hle h' => update_mono hle h h', ?_⟩⟩
  · rw [← totalWeight_eq_zero]
    constructor
    · rintro ⟨e, he⟩
      obtain ⟨-, htrue, hfalse⟩ := update_eq_error.mp he
      unfold totalWeight
      rw [htrue, hfalse]
    · intro hzero
      unfold totalWeight at hzero
      exact ⟨.undefinedPosterior, update_eq_error.mpr ⟨rfl, by omega, by omega⟩⟩
  · rintro (rfl | rfl)
    · exact update_zero h
    · exact update_one h

end Probability

end Termivar
