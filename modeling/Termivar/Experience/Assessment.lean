/-
# What an assessment says

The assessment of an action groups its records by case, lets an active record
replace a passive one, sorts what is left by the order of observation and
counts the negatives back to the last success. Because an identity is recorded
once, this is the history without the passive records of cases that have an
active one (`settledCases`), and only the observations and their order matter.
-/
import Termivar.Experience.Store

namespace Termivar

open List

variable (observations : List Observation)

/-- Whether a case has an active observation. -/
def hasActive (caseId : String) : Bool :=
  observations.any fun other => other.1.caseId = caseId && other.1.stage = .active

/-- The observation that counts for each case: the active one if there is one,
otherwise the passive one. -/
def settledCases : List Observation :=
  observations.filter fun observation =>
    observation.1.stage = .active || !hasActive observations observation.1.caseId

/-- What counts for each case, without passive inconclusive observations. -/
def completedView : List Observation :=
  (settledCases observations).filter fun observation => isCompletedAttempt observation.1

/-- The negatives after the last success. -/
def negativesSinceSuccess : Nat :=
  (observations.reverse.takeWhile fun observation =>
    observation.2.suppressionEffect ≠ .reset).countP fun observation =>
      observation.2.suppressionEffect = .increment

/-! ### Counting -/

theorem countFailures_eq : ∀ (observations : List Observation) (start : Nat), start ≤ u16Max →
    countFailures observations start = min u16Max (start +
      (observations.takeWhile fun observation => observation.2.suppressionEffect ≠ .reset).countP
        fun observation => observation.2.suppressionEffect = .increment)
  | [], start, h => by simp [countFailures, h]
  | observation :: rest, start, h => by
    cases heffect : observation.2.suppressionEffect with
    | increment =>
      have hnext : min (start + 1) u16Max ≤ u16Max := Nat.min_le_right _ _
      simp only [countFailures, heffect, countFailures_eq rest _ hnext, takeWhile_cons]
      simp [heffect]
      omega
    | reset => simp [countFailures, heffect, h]
    | neutral => simp [countFailures, heffect, countFailures_eq rest start h]

/-- An action is suppressed exactly if the negatives reach the limit. -/
theorem isSuppressed_iff (subject : EntityId) (actionId : String) (policy : ExperiencePolicy)
    (completed : List Observation) :
    (concludeAssessment subject actionId policy completed).isSuppressed = true ↔
      policy.consecutiveFailureLimit ≤ negativesSinceSuccess completed := by
  have hcnt : countFailures completed.reverse 0 = min u16Max (negativesSinceSuccess completed) := by
    rw [countFailures_eq _ 0 (Nat.zero_le _), Nat.zero_add, negativesSinceSuccess]
  have hbdd := policy.bounded
  simp only [concludeAssessment, ExperienceAssessment.isSuppressed, decide_eq_true_eq, hcnt, recommend]
  split_ifs with hlimit hemp
  · exact ⟨fun _ => by omega, fun _ => rfl⟩
  · exact ⟨nofun, fun hreached => absurd (by omega) hlimit⟩
  · exact ⟨nofun, fun hreached => absurd (by omega) hlimit⟩

/-! ### Cases -/

/-- Two records of one case and stage. -/
def SameAttempt (left right : ExperienceRecord) : Prop :=
  left.outcome.caseId = right.outcome.caseId ∧ left.outcome.stage = right.outcome.stage

/-- A record that counts for its case. -/
def Counts (history : List ExperienceRecord) (record : ExperienceRecord) : Prop :=
  record ∈ history ∧ (record.outcome.stage = .active ∨
    ∀ other ∈ history, other.outcome.caseId = record.outcome.caseId → other.outcome.stage = .passive)

theorem stage_ne_active {stage : VerificationStage} : stage ≠ .active ↔ stage = .passive := by
  cases stage <;> simp

section Cases

variable {history : List ExperienceRecord}

/-- Of one case at most one record counts. -/
theorem Counts.unique (hdist : history.Pairwise fun a b => ¬ SameAttempt a b)
    {left right : ExperienceRecord} (hleft : Counts history left) (hright : Counts history right)
    (hcase : left.outcome.caseId = right.outcome.caseId) : left = right := by
  have hstg : left.outcome.stage = right.outcome.stage := by
    rcases hleft.2 with hact | hpass <;> rcases hright.2 with hact' | hpass'
    · rw [hact, hact']
    · rw [hpass' left hleft.1 hcase, hpass' right hright.1 rfl]
    · rw [hpass left hleft.1 rfl, hpass right hright.1 hcase.symm]
    · rw [hpass left hleft.1 rfl, hpass right hright.1 hcase.symm]
  by_contra hne
  have hsymm : Std.Symm fun a b : ExperienceRecord => ¬ SameAttempt a b :=
    ⟨fun a b hnot hsame => hnot ⟨hsame.1.symm, hsame.2.symm⟩⟩
  exact hdist.forall hleft.1 hright.1 hne ⟨hcase, hstg⟩

/-- Every case of a history has a record that counts. -/
theorem exists_counts {record : ExperienceRecord} (h : record ∈ history) :
    ∃ other, Counts history other ∧ other.outcome.caseId = record.outcome.caseId := by
  by_cases hact : ∃ other ∈ history, other.outcome.caseId = record.outcome.caseId ∧
      other.outcome.stage = .active
  · obtain ⟨other, hmem, hcase, hstg⟩ := hact
    exact ⟨other, ⟨hmem, Or.inl hstg⟩, hcase⟩
  · push Not at hact
    exact ⟨record, ⟨h, Or.inr fun other hmem hcase => stage_ne_active.mp (hact other hmem hcase)⟩,
      rfl⟩

/-- The entry of a case is the record that counts for it. -/
def Latest (history : List ExperienceRecord) (latest : BTreeMap String ExperienceRecord) : Prop :=
  ∀ (caseId : String) record, latest[caseId]? = some record ↔
    Counts history record ∧ record.outcome.caseId = caseId

/-- A record of another case does not matter. -/
theorem counts_concat_of_ne {record other : ExperienceRecord}
    (hne : other.outcome.caseId ≠ record.outcome.caseId) :
    Counts (history ++ [record]) other ↔ Counts history other := by
  have hoth : other ≠ record := fun heq => hne (heq ▸ rfl)
  unfold Counts
  rw [mem_append, mem_singleton, or_iff_left hoth, forall_mem_append]
  refine and_congr_right fun _ => or_congr_right (and_iff_left ?_)
  exact forall_mem_singleton.mpr fun hcase => absurd hcase.symm hne

/-- The entries after one more record. -/
theorem supersede_spec {latest : BTreeMap String ExperienceRecord} {record : ExperienceRecord}
    (hdist : (history ++ [record]).Pairwise fun a b => ¬ SameAttempt a b)
    (h : Latest history latest) : Latest (history ++ [record]) (supersede latest record) := by
  have hlast : record ∈ history ++ [record] := by simp
  -- whichever record counts for the case, the others keep their entries
  have hone : ∀ {counted : ExperienceRecord}, Counts (history ++ [record]) counted →
      counted.outcome.caseId = record.outcome.caseId → ∀ {entries : BTreeMap String ExperienceRecord},
      entries[record.outcome.caseId]? = some counted →
      (∀ caseId, caseId ≠ record.outcome.caseId → entries[caseId]? = latest[caseId]?) →
      Latest (history ++ [record]) entries := by
    intro counted hcounts hcase entries hent hoths caseId other
    by_cases hid : caseId = record.outcome.caseId
    · subst hid
      rw [hent, Option.some.injEq]
      constructor
      · rintro rfl
        exact ⟨hcounts, hcase⟩
      · rintro ⟨hoth, hcase'⟩
        exact hcounts.unique hdist hoth (hcase.trans hcase'.symm)
    · rw [hoths caseId hid, h caseId other]
      refine and_congr_left fun hcase' => (counts_concat_of_ne ?_).symm
      rw [hcase']
      exact hid
  have hinsert : ∀ caseId, caseId ≠ record.outcome.caseId →
      (latest.insert record.outcome.caseId record)[caseId]? = latest[caseId]? :=
    fun caseId hne => get_insert_ne record (Ne.symm hne)
  unfold supersede
  cases hget : latest[record.outcome.caseId]? with
  | none =>
    refine hone ⟨hlast, ?_⟩ rfl (get_insert_self _ _ _) hinsert
    by_cases hact : record.outcome.stage = .active
    · exact Or.inl hact
    · refine Or.inr (forall_mem_append.mpr ⟨fun other hmem hcase => ?_, ?_⟩)
      · obtain ⟨counted, hcounts, hcase'⟩ := exists_counts hmem
        have hent := (h _ counted).mpr ⟨hcounts, hcase'.trans hcase⟩
        rw [hget] at hent
        cases hent
      · exact forall_mem_singleton.mpr fun _ => stage_ne_active.mp hact
  | some existing =>
    obtain ⟨hexisting, hcase⟩ := (h _ existing).mp hget
    simp only
    split_ifs with hrepl
    · exact hone ⟨hlast, Or.inl hrepl.2⟩ rfl (get_insert_self _ _ _) hinsert
    · refine hone ⟨mem_append_left _ hexisting.1, Or.inl ?_⟩ hcase hget fun _ _ => rfl
      -- the two stages differ, and the new record is not the active one
      have hdiffer : existing.outcome.stage ≠ record.outcome.stage := fun hstg =>
        (pairwise_append.mp hdist).2.2 existing hexisting.1 record (by simp) ⟨hcase, hstg⟩
      by_contra hpass
      have hpass := stage_ne_active.mp hpass
      refine hrepl ⟨hpass, ?_⟩
      by_contra hrec
      exact hdiffer (hpass.trans (stage_ne_active.mp hrec).symm)

/-- The entries of a whole history. -/
theorem latestByCase_spec (hdist : history.Pairwise fun a b => ¬ SameAttempt a b) :
    Latest history (latestByCase history) := by
  induction history using reverseRecOn with
  | nil =>
    intro caseId record
    simp [latestByCase, Counts]
  | append_singleton seen record ih =>
    rw [latestByCase, foldl_append]
    exact supersede_spec hdist (ih (pairwise_append.mp hdist).1)

/-! ### The completed attempts -/

theorem mem_settledCases_iff (history : List ExperienceRecord) (record : ExperienceRecord) :
    (record.outcome.stage = .active ||
      !hasActive (history.map ExperienceRecord.observation) record.outcome.caseId) = true ↔
    (record.outcome.stage = .active ∨ ∀ other ∈ history,
      other.outcome.caseId = record.outcome.caseId → other.outcome.stage = .passive) := by
  rw [Bool.or_eq_true, decide_eq_true_eq, Bool.not_eq_true', ← Bool.not_eq_true, hasActive,
    any_map, any_eq_true]
  refine or_congr_right ?_
  simp only [Function.comp, Bool.and_eq_true, not_exists, not_and]
  refine forall₂_congr fun other _ => ⟨fun h hcase => ?_, fun h hcase hact => ?_⟩
  · exact stage_ne_active.mp fun hact => h (decide_eq_true hcase) (decide_eq_true hact)
  · exact stage_ne_active.mpr (h (of_decide_eq_true hcase)) (of_decide_eq_true hact)

/-- The records that count, in their order. -/
def settledRecords (history : List ExperienceRecord) : List ExperienceRecord :=
  history.filter fun record => record.outcome.stage = .active ||
    !hasActive (history.map ExperienceRecord.observation) record.outcome.caseId

theorem mem_settledRecords {record : ExperienceRecord} :
    record ∈ settledRecords history ↔ Counts history record := by
  rw [settledRecords, mem_filter, mem_settledCases_iff, Counts]

/-- The entries are the records that count. -/
theorem latestByCase_perm (hdist : history.Pairwise fun a b => ¬ SameAttempt a b)
    (hnd : history.Nodup) :
    ((latestByCase history).toList.map Prod.snd).Perm (settledRecords history) := by
  have hlatest := latestByCase_spec hdist
  have hkeys : ((latestByCase history).toList.map Prod.snd).map
      (fun record => record.outcome.caseId) = (latestByCase history).toList.map Prod.fst := by
    rw [map_map]
    refine map_congr_left fun entry hent => ?_
    exact ((hlatest entry.1 entry.2).mp (mem_toList.mp hent)).2
  refine (perm_ext_iff_of_nodup ?_ (hnd.sublist filter_sublist)).mpr fun record => ?_
  · exact List.Nodup.of_map _ (hkeys ▸ keys_nodup (latestByCase history))
  · refine Iff.trans ?_ mem_settledRecords.symm
    rw [mem_map]
    constructor
    · rintro ⟨⟨caseId, record⟩, hmem, rfl⟩
      exact ((hlatest caseId record).mp (mem_toList.mp hmem)).1
    · intro hcounts
      exact ⟨(record.outcome.caseId, record), mem_toList.mpr ((hlatest _ _).mpr ⟨hcounts, rfl⟩), rfl⟩

/-- The completed attempts are those of the history, without its order numbers. -/
theorem completedAttempts_eq (hdist : history.Pairwise fun a b => ¬ SameAttempt a b)
    (hord : history.Pairwise fun a b => a.sequence < b.sequence) :
    (completedAttempts history).map ExperienceRecord.observation =
      completedView (history.map ExperienceRecord.observation) := by
  have hnd : history.Nodup := hord.imp fun hlt heq => by
    rw [heq] at hlt
    exact lt_irrefl _ hlt
  have hsort : ((settledRecords history).filter fun record =>
      isCompletedAttempt record.outcome).Pairwise fun a b => a.sequence < b.sequence :=
    (hord.filter _).filter _
  have heq : completedAttempts history = (settledRecords history).filter fun record =>
      isCompletedAttempt record.outcome := by
    have hperm : (completedAttempts history).Perm ((settledRecords history).filter fun record =>
        isCompletedAttempt record.outcome) :=
      (mergeSort_perm _ _).trans ((latestByCase_perm hdist hnd).filter _)
    have hmerged : (completedAttempts history).Pairwise fun a b =>
        decide (a.sequence ≤ b.sequence) = true :=
      pairwise_mergeSort (fun a b c hab hbc => by simp only [decide_eq_true_eq] at *; omega)
        (fun a b => by simp only [Bool.or_eq_true, decide_eq_true_eq]; omega) _
    have hdiffer : ∀ a ∈ (settledRecords history).filter (fun record =>
        isCompletedAttempt record.outcome), ∀ b ∈ (settledRecords history).filter (fun record =>
        isCompletedAttempt record.outcome), a ≠ b → a.sequence ≠ b.sequence := by
      have hsymm : Std.Symm fun a b : ExperienceRecord => a.sequence ≠ b.sequence :=
        ⟨fun _ _ => Ne.symm⟩
      exact fun a ha b hb => (hsort.imp fun hlt => hlt.ne).forall ha hb
    refine hperm.eq_of_pairwise (fun a b ha hb hab hba => ?_) hmerged
      (hsort.imp fun hlt => decide_eq_true hlt.le)
    by_contra hne
    simp only [decide_eq_true_eq] at hab hba
    exact hdiffer a (hperm.mem_iff.mp ha) b hb hne (le_antisymm hab hba)
  rw [heq]
  unfold completedView settledCases settledRecords
  rw [filter_map, filter_map]
  rfl

end Cases

end Termivar
