/-
# Runs of the experience store

A store of a run holds one record for each identity, numbered in the order of
their observation, and only grows at its end. What the records of one subject
and action are depends only on the calls about these (`view_of_run`), so an
assessment cannot be changed by what is observed of others.
-/
import Termivar.Experience.Assessment
import Termivar.Experience.Wire

namespace Termivar

open Command List ExperienceStore

/-- One observation, with an outcome that exists; without a disposition the one
of the outcome is taken. -/
structure ExperienceCall where
  outcome : VerificationOutcome
  disposition : Option ExperienceDisposition
  constructed : outcome.Constructed

namespace ExperienceCall

/-- What a call observes. -/
def observation (call : ExperienceCall) : Observation :=
  (call.outcome, call.disposition.getD (.fromOutcome call.outcome))

def exec (call : ExperienceCall) : Command ExperienceStore ExperienceStoreError ExperienceWrite :=
  match call.disposition with
  | none => ExperienceStore.observe call.outcome
  | some disposition => observeWithDisposition call.outcome disposition

/-- Whether a call is about a subject and an action. -/
def about (subject : EntityId) (actionId : String) (call : ExperienceCall) : Bool :=
  call.outcome.subject = subject && call.outcome.actionId = actionId

theorem exec_eq (call : ExperienceCall) : call.exec =
    observeWithDisposition call.observation.1 call.observation.2 := by
  unfold exec observation
  cases call.disposition <;> rfl

end ExperienceCall

/-! ### One observation -/

/-- What a store with one more observation is. -/
def ExperienceStore.added (store : ExperienceStore) (observation : Observation) : ExperienceStore :=
  ⟨store.nextSequence + 1,
    store.records ++ [⟨store.nextSequence, observation.1, observation.2⟩]⟩

/-- What an observation can do. -/
inductive ExperienceStore.Observed (store : ExperienceStore) (observation : Observation) :
    ExperienceWrite → ExperienceStore → Prop
  | repeated {record : ExperienceRecord} (hmem : record ∈ store.records)
      (hsame : record.observation = observation) :
      ExperienceStore.Observed store observation .unchanged store
  | added (haccepts : observation.2.accepts observation.1.status = true)
      (hnew : ∀ record ∈ store.records, sameIdentity record.outcome observation.1 = false)
      (hroom : store.records.length < vecCapacity) :
      ExperienceStore.Observed store observation .inserted (store.added observation)

/-- Why an observation is refused. -/
inductive ExperienceStore.Refused (store : ExperienceStore) (observation : Observation) : Prop
  | incompatible (h : observation.2.accepts observation.1.status = false)
  | conflict {record : ExperienceRecord} (hmem : record ∈ store.records)
      (h : sameIdentity record.outcome observation.1 = true)
      (hdiffers : record.observation ≠ observation)
  | overflow (h : u64Max < store.nextSequence + 1)
      (hnew : ∀ record ∈ store.records, sameIdentity record.outcome observation.1 = false)

theorem ExperienceStore.observe_spec (store : ExperienceStore) (observation : Observation) :
    wp (observeWithDisposition observation.1 observation.2)
      (Observed store observation) (fun _ t => t = store ∧ Refused store observation)
      (vecCapacity ≤ store.records.length ∧
        ∀ record ∈ store.records, sameIdentity record.outcome observation.1 = false) store := by
  simp only [observeWithDisposition, wp_rules]
  unfold validateDisposition
  cases haccepts : observation.2.accepts observation.1.status with
  | false => exact ⟨trivial, .incompatible haccepts⟩
  | true =>
    simp only [if_pos, Checked.wp_ok]
    cases hfind : store.records.find? fun record => sameIdentity record.outcome observation.1 with
    | some existing =>
      have hmem := mem_of_find?_eq_some hfind
      simp only [wp_rules]
      refine ⟨fun hsame => .repeated hmem (Prod.ext hsame.1 hsame.2), fun hdiffers => ⟨trivial, ?_⟩⟩
      exact .conflict hmem (find?_some (p := fun record : ExperienceRecord =>
          sameIdentity record.outcome observation.1) hfind)
        fun hsame => hdiffers ⟨congrArg Prod.fst hsame, congrArg Prod.snd hsame⟩
    | none =>
      have hnew : ∀ record ∈ store.records, sameIdentity record.outcome observation.1 = false :=
        fun record hmem => (Bool.not_eq_true _).mp (find?_eq_none.mp hfind record hmem)
      simp only [wp_rules, Checked.wp_okOr, wp_unwind]
      refine ⟨fun following hadd => ⟨fun hfull => ⟨hfull, hnew⟩, fun hroom => ?_⟩,
        fun hover => ⟨trivial, ?_⟩⟩
      · obtain ⟨-, rfl⟩ := checkedAdd_eq_some.mp hadd
        exact .added haccepts hnew (not_le.mp hroom)
      · exact .overflow (checkedAdd_eq_none.mp hover) hnew

/-! ### Stores of a run -/

/-- What holds of every store of a run. -/
structure StoreValid (store : ExperienceStore) : Prop where
  next : store.nextSequence = store.records.length
  sequences : store.records.map ExperienceRecord.sequence = range store.records.length
  distinct : store.records.Pairwise fun a b => sameIdentity a.outcome b.outcome = false
  accepted : ∀ record ∈ store.records, record.disposition.accepts record.outcome.status = true
  constructed : ∀ record ∈ store.records, record.outcome.Constructed
  bounded : store.records.length ≤ vecCapacity

theorem vecCapacity_lt : vecCapacity < u64Max := by decide

theorem storeValid_new : StoreValid .new :=
  ⟨rfl, rfl, .nil, forall_mem_nil _, forall_mem_nil _, Nat.zero_le _⟩

theorem StoreValid.added {store : ExperienceStore} (h : StoreValid store) {observation : Observation}
    (hcons : observation.1.Constructed)
    (haccepts : observation.2.accepts observation.1.status = true)
    (hnew : ∀ record ∈ store.records, sameIdentity record.outcome observation.1 = false)
    (hroom : store.records.length < vecCapacity) : StoreValid (store.added observation) := by
  refine ⟨?_, ?_, ?_, ?_, ?_, ?_⟩
  · simp [ExperienceStore.added, h.next]
  · simp [ExperienceStore.added, h.sequences, h.next, range_succ]
  · refine pairwise_append.mpr ⟨h.distinct, pairwise_singleton _ _, fun record hmem => ?_⟩
    exact forall_mem_singleton.mpr (hnew record hmem)
  · exact forall_mem_append.mpr ⟨h.accepted, forall_mem_singleton.mpr haccepts⟩
  · exact forall_mem_append.mpr ⟨h.constructed, forall_mem_singleton.mpr hcons⟩
  · simpa [ExperienceStore.added] using hroom

theorem StoreValid.observed {store t : ExperienceStore} (h : StoreValid store) {call : ExperienceCall}
    {write : ExperienceWrite} (hobs : ExperienceStore.Observed store call.observation write t) : StoreValid t := by
  cases hobs with
  | repeated => exact h
  | added haccepts hnew hroom => exact h.added call.constructed haccepts hnew hroom

theorem sameIdentity_iff {left right : VerificationOutcome} : sameIdentity left right = true ↔
    left.subject = right.subject ∧ left.actionId = right.actionId ∧ left.caseId = right.caseId ∧
      left.stage = right.stage := by
  simp [sameIdentity, and_assoc]

/-- Two records of one identity are one. -/
theorem StoreValid.unique {store : ExperienceStore} (h : StoreValid store)
    {left right : ExperienceRecord} (hleft : left ∈ store.records) (hright : right ∈ store.records)
    (hsame : sameIdentity left.outcome right.outcome = true) : left = right := by
  by_contra hne
  have hsymm : Std.Symm fun a b : ExperienceRecord => sameIdentity a.outcome b.outcome = false := by
    refine ⟨fun a b hab => ?_⟩
    rw [← Bool.not_eq_true, sameIdentity_iff] at hab ⊢
    exact fun hba => hab ⟨hba.1.symm, hba.2.1.symm, hba.2.2.1.symm, hba.2.2.2.symm⟩
  rw [h.distinct.forall hleft hright hne] at hsame
  cases hsame

/-! ### The wire form -/

theorem checkSequences_eq : ∀ (records : List ExperienceRecord) (start : Nat),
    records.map ExperienceRecord.sequence = range' start records.length →
    checkSequences records start = .ok ()
  | [], _, _ => rfl
  | record :: records, start, h => by
    rw [map_cons, length_cons, range'_succ, cons.injEq] at h
    rw [checkSequences, if_neg (not_not.mpr h.1)]
    exact checkSequences_eq records (start + 1) h.2

/-- Replaying what is left of the records. -/
theorem replay_spec {store : ExperienceStore} (h : StoreValid store) :
    ∀ (rest seen : List ExperienceRecord), store.records = seen ++ rest →
      ExperienceStore.replay rest ⟨seen.length, seen⟩ = .ok () ⟨store.records.length, store.records⟩
  | [], seen, hspl => by
    rw [append_nil] at hspl
    rw [hspl]
    rfl
  | record :: rest, seen, hspl => by
    have hmem : record ∈ store.records := by simp [hspl]
    have hlength : seen.length < store.records.length := by simp [hspl]
    have hsequence : record.sequence = seen.length := by
      have hget : (store.records.map ExperienceRecord.sequence)[seen.length]? = some seen.length := by
        rw [h.sequences, getElem?_range hlength]
      rw [getElem?_map, hspl] at hget
      simpa using hget
    have hnew : ∀ earlier ∈ seen, sameIdentity earlier.outcome record.outcome = false := by
      have hdist := h.distinct
      rw [hspl, pairwise_append] at hdist
      exact fun earlier hearl => hdist.2.2 earlier hearl record (by simp)
    rw [eq_ok_iff_wp]
    rw [ExperienceStore.replay, wp_bind]
    refine wp_mono (ExperienceStore.observe_spec ⟨seen.length, seen⟩ record.observation) ?_ ?_ fun hfull => ?_
    · intro write t hobs
      cases hobs with
      | @repeated earlier hearl hsame =>
        have hout : earlier.outcome = record.outcome := congrArg Prod.fst hsame
        have hfsh := hnew earlier hearl
        rw [hout, ← Bool.not_eq_true, sameIdentity_iff] at hfsh
        exact absurd ⟨rfl, rfl, rfl, rfl⟩ hfsh
      | added =>
        have hnext : (ExperienceStore.mk seen.length seen).added record.observation =
            ⟨(seen ++ [record]).length, seen ++ [record]⟩ := by
          simp [ExperienceStore.added, ExperienceRecord.observation, ← hsequence]
        rw [hnext, if_neg (by decide)]
        exact eq_ok_iff_wp.mp (replay_spec h rest (seen ++ [record]) (by simp [hspl]))
    · rintro e t ⟨-, hrefused⟩
      cases hrefused with
      | incompatible hinc =>
        exact absurd ((h.accepted record hmem).symm.trans hinc) (by decide)
      | conflict hearl hsame =>
        exact absurd (hsame.symm.trans (hnew _ hearl)) (by decide)
      | overflow hover =>
        have hbdd := h.bounded
        have hcap := vecCapacity_lt
        simp only at hover
        omega
    · have hbdd := h.bounded
      have hfull := hfull.1
      simp only at hfull
      omega

/-- A store of a run is read back. -/
theorem StoreValid.round_trip {store : ExperienceStore} (h : StoreValid store) :
    deserialize store.serialize () = .ok store () := by
  have hlength : store.records.length ≤ u64Max := le_trans h.bounded vecCapacity_lt.le
  have hsequence : ∀ record ∈ store.records, record.sequence < store.records.length := by
    intro record hmem
    have hrg : record.sequence ∈ range store.records.length := by
      rw [← h.sequences]
      exact mem_map_of_mem hmem
    exact mem_range.mp hrg
  have hwire := readWire_serialize (h.next.symm ▸ hlength) fun record hmem =>
    ExperienceRecord.round_trip (h.constructed record hmem) (h.accepted record hmem)
      (le_trans (hsequence record hmem).le hlength)
  have hchk : checkSequences store.records 0 = .ok () := by
    refine checkSequences_eq store.records 0 ?_
    rw [h.sequences, range_eq_range']
  have hrepl := replay_spec h store.records [] rfl
  have hstore : (⟨store.records.length, store.records⟩ : ExperienceStore) = store := by
    rw [← h.next]
  rw [hstore] at hrepl
  rw [eq_ok_iff_wp]
  simp only [deserialize, wp_rules, hwire, Checked.wp_ok, hchk, Except.mapError]
  refine ⟨fun hne => hne h.next, fun _ => ?_⟩
  rw [wp_mapErr, wp_locally]
  exact (wp_of_eq_ok hrepl).mpr ⟨rfl, trivial⟩

/-! ### What a run says about one action -/

/-- What was observed of a subject and an action. -/
def view (subject : EntityId) (actionId : String) (store : ExperienceStore) : List Observation :=
  (store.history subject actionId).map ExperienceRecord.observation

/-- One more observation of the subject and action. -/
def stepView (observations : List Observation) (observation : Observation) : List Observation :=
  if observation.2.accepts observation.1.status &&
      !observations.any fun other => sameIdentity other.1 observation.1 then
    observations ++ [observation]
  else observations

section Views

variable {subject : EntityId} {actionId : String} {store : ExperienceStore}

theorem mem_view {observation : Observation} : observation ∈ view subject actionId store ↔
    ∃ record ∈ store.records, record.observation = observation ∧
      observation.1.subject = subject ∧ observation.1.actionId = actionId := by
  unfold view history
  simp only [mem_map, mem_filter, Bool.and_eq_true, decide_eq_true_eq]
  constructor
  · rintro ⟨record, ⟨hmem, habout⟩, rfl⟩
    exact ⟨record, hmem, rfl, habout⟩
  · rintro ⟨record, hmem, rfl, habout⟩
    exact ⟨record, ⟨hmem, habout⟩, rfl⟩

/-- An observation in the store of the same identity is one of the same action. -/
theorem any_sameIdentity {observation : Observation} (hsubj : observation.1.subject = subject)
    (haction : observation.1.actionId = actionId) {record : ExperienceRecord}
    (hmem : record ∈ store.records) (hsame : sameIdentity record.outcome observation.1 = true) :
    ((view subject actionId store).any fun other => sameIdentity other.1 observation.1) = true := by
  obtain ⟨hs, ha, -⟩ := sameIdentity_iff.mp hsame
  exact any_eq_true.mpr ⟨record.observation,
    mem_view.mpr ⟨record, hmem, rfl, hs.trans hsubj, ha.trans haction⟩, hsame⟩

theorem view_added (observation : Observation) : view subject actionId (store.added observation) =
    view subject actionId store ++
      if observation.1.subject = subject && observation.1.actionId = actionId then [observation]
      else [] := by
  unfold view history added
  rw [filter_append, map_append, filter_singleton]
  simp only
  cases (decide (observation.1.subject = subject) && decide (observation.1.actionId = actionId))
  · rfl
  · rfl

variable {call : ExperienceCall} {r : Except ExperienceStoreError ExperienceWrite}
  {t : ExperienceStore}

/-- What one call does to the view of an action. -/
theorem view_step (h : StoreValid store) (hrep : reply call.exec store = some (r, t)) :
    view subject actionId t =
      if call.about subject actionId then stepView (view subject actionId store) call.observation
      else view subject actionId store := by
  rw [call.exec_eq] at hrep
  obtain ⟨hok, herr, -⟩ := wp_iff_reply.mp (ExperienceStore.observe_spec store call.observation)
  have habout : call.about subject actionId = true ↔
      call.observation.1.subject = subject ∧ call.observation.1.actionId = actionId := by
    simp [ExperienceCall.about, ExperienceCall.observation]
  -- an observation that changes nothing is one the view has, or does not accept
  have hkept : t = store → (call.about subject actionId = true →
      ¬ (call.observation.2.accepts call.observation.1.status = true ∧
        ((view subject actionId store).any fun other =>
          sameIdentity other.1 call.observation.1) = false)) →
      view subject actionId t = if call.about subject actionId then
        stepView (view subject actionId store) call.observation else view subject actionId store := by
    rintro rfl hnot
    split_ifs with hcall
    · rw [stepView, if_neg]
      simpa using hnot hcall
    · rfl
  cases r with
  | error e =>
    obtain ⟨ht, hrefused⟩ := herr e t hrep
    refine hkept ht fun hcall hboth => ?_
    cases hrefused with
    | incompatible hinc => exact absurd (hboth.1.symm.trans hinc) (by decide)
    | conflict hmem hsame =>
      obtain ⟨hsubj, haction⟩ := habout.mp hcall
      exact absurd ((any_sameIdentity hsubj haction hmem hsame).symm.trans hboth.2) (by decide)
    | overflow hover =>
      have hnext := h.next
      have hbdd := h.bounded
      have hcap := vecCapacity_lt
      omega
  | ok write =>
    cases hok write t hrep with
    | @repeated record hmem hsame =>
      refine hkept rfl fun hcall hboth => ?_
      obtain ⟨hsubj, haction⟩ := habout.mp hcall
      have hout : record.outcome = call.observation.1 := congrArg Prod.fst hsame
      have hid : sameIdentity record.outcome call.observation.1 = true := by
        rw [hout]
        exact sameIdentity_iff.mpr ⟨rfl, rfl, rfl, rfl⟩
      exact absurd ((any_sameIdentity hsubj haction hmem hid).symm.trans hboth.2) (by decide)
    | added haccepts hnew hroom =>
      rw [view_added]
      by_cases hcall : call.about subject actionId = true
      · obtain ⟨hsubj, haction⟩ := habout.mp hcall
        have hfsh : ((view subject actionId store).any fun other =>
            sameIdentity other.1 call.observation.1) = false := by
          rw [← Bool.not_eq_true, any_eq_true]
          rintro ⟨other, hoth, hsame⟩
          obtain ⟨record, hmem, rfl, -⟩ := mem_view.mp hoth
          exact absurd ((hnew record hmem).symm.trans hsame) (by decide)
        have hstep : stepView (view subject actionId store) call.observation =
            view subject actionId store ++ [call.observation] := by
          rw [stepView, haccepts, hfsh]
          rfl
        rw [if_pos hcall, hstep, if_pos (by simp [hsubj, haction])]
      · have hoth : ¬ (call.observation.1.subject = subject ∧
            call.observation.1.actionId = actionId) := fun hboth => hcall (habout.mpr hboth)
        rw [if_neg hcall]
        simp only [Bool.and_eq_true, decide_eq_true_eq, hoth, if_false, append_nil]

/-- An assessment depends on the view of its action only. -/
theorem StoreValid.assess_eq (h : StoreValid store) (policy : ExperiencePolicy) :
    store.assess subject actionId policy = concludeAssessment subject actionId policy
      (completedView (view subject actionId store)) := by
  have hmem : ∀ record ∈ store.history subject actionId,
      record.outcome.subject = subject ∧ record.outcome.actionId = actionId := by
    intro record hrec
    simpa using (mem_filter.mp hrec).2
  have hdist : (store.history subject actionId).Pairwise fun a b => ¬ SameAttempt a b := by
    refine (h.distinct.filter _).imp_of_mem fun {a b} ha hb hnot hsame => ?_
    obtain ⟨hsubj, haction⟩ := hmem a ha
    obtain ⟨hsubj', haction'⟩ := hmem b hb
    rw [← Bool.not_eq_true, sameIdentity_iff] at hnot
    exact hnot ⟨hsubj.trans hsubj'.symm, haction.trans haction'.symm, hsame⟩
  have hord : (store.history subject actionId).Pairwise fun a b => a.sequence < b.sequence := by
    refine List.Pairwise.filter _ (pairwise_map.mp ?_)
    rw [h.sequences]
    exact pairwise_lt_range
  rw [assess, completedAttempts_eq hdist hord, view]

/-- What a store is grows at its end only. -/
theorem records_step (hrep : reply call.exec store = some (r, t)) :
    store.records <+: t.records ∧ (r ≠ .ok .inserted → t = store) := by
  rw [call.exec_eq] at hrep
  obtain ⟨hok, herr, -⟩ := wp_iff_reply.mp (ExperienceStore.observe_spec store call.observation)
  cases r with
  | error e =>
    obtain ⟨rfl, -⟩ := herr e t hrep
    exact ⟨prefix_refl _, fun _ => rfl⟩
  | ok write =>
    cases hok write t hrep with
    | repeated => exact ⟨prefix_refl _, fun _ => rfl⟩
    | added => exact ⟨prefix_append _ _, fun hne => absurd rfl hne⟩

theorem storeValid_step (h : StoreValid store) (hrep : reply call.exec store = some (r, t)) :
    StoreValid t := by
  rw [call.exec_eq] at hrep
  obtain ⟨hok, herr, -⟩ := wp_iff_reply.mp (ExperienceStore.observe_spec store call.observation)
  cases r with
  | error e =>
    obtain ⟨rfl, -⟩ := herr e t hrep
    exact h
  | ok write => exact h.observed (hok write t hrep)

/-- What was observed before is found again. -/
theorem repeated_unchanged (h : StoreValid store)
    (hmem : ∃ record ∈ store.records, record.observation = call.observation) :
    reply call.exec store = some (.ok .unchanged, store) := by
  obtain ⟨record, hrec, hsame⟩ := hmem
  have hout : record.outcome = call.observation.1 := congrArg Prod.fst hsame
  have hdisp : record.disposition = call.observation.2 := congrArg Prod.snd hsame
  have hid : sameIdentity record.outcome call.observation.1 = true := by
    rw [hout]
    exact sameIdentity_iff.mpr ⟨rfl, rfl, rfl, rfl⟩
  have hrun : call.exec store = .ok .unchanged store := by
    rw [call.exec_eq, eq_ok_iff_wp]
    refine wp_mono (ExperienceStore.observe_spec store call.observation) ?_ ?_ fun hfull => ?_
    · intro write t hobs
      cases hobs with
      | repeated => exact ⟨rfl, rfl⟩
      | added _ hnew => exact absurd ((hnew record hrec).symm.trans hid) (by decide)
    · rintro e t ⟨-, hrefused⟩
      cases hrefused with
      | incompatible hinc =>
        have hacc := h.accepted record hrec
        rw [hout, hdisp] at hacc
        exact absurd (hacc.symm.trans hinc) (by decide)
      | @conflict other hoth hsame' hdiffers =>
        have hboth : sameIdentity other.outcome record.outcome = true := by
          rw [hout]
          exact hsame'
        rw [h.unique hoth hrec hboth] at hdiffers
        exact hdiffers hsame
      | overflow _ hnew => exact absurd ((hnew record hrec).symm.trans hid) (by decide)
    · exact absurd ((hfull.2 record hrec).symm.trans hid) (by decide)
  rw [reply, hrun]

end Views

/-- The view of an action is made of the calls about it. -/
theorem view_of_run {subject : EntityId} {actionId : String} {calls : List ExperienceCall}
    {trace : List (ExperienceCall × Except ExperienceStoreError ExperienceWrite)}
    {store : ExperienceStore}
    (hrun : Command.run ExperienceCall.exec .new calls = some (trace, store)) :
    StoreValid store ∧ view subject actionId store =
      ((calls.filter (ExperienceCall.about subject actionId)).map
        ExperienceCall.observation).foldl stepView [] := by
  have hall := run_history (J := fun past store => StoreValid store ∧ view subject actionId store =
      (((past.map Prod.fst).filter (ExperienceCall.about subject actionId)).map
        ExperienceCall.observation).foldl stepView []) ?_ [] ⟨storeValid_new, rfl⟩ hrun
  · rw [nil_append, run_calls hrun] at hall
    exact hall
  · rintro past s call r t ⟨hvalid, hview⟩ hrep
    refine ⟨storeValid_step hvalid hrep, ?_⟩
    rw [view_step hvalid hrep, hview]
    cases hcall : call.about subject actionId <;> simp [hcall]

/-- What a run has recorded, every later call finds. -/
theorem recorded_of_run {calls : List ExperienceCall}
    {trace : List (ExperienceCall × Except ExperienceStoreError ExperienceWrite)}
    {store : ExperienceStore}
    (hrun : Command.run ExperienceCall.exec .new calls = some (trace, store)) :
    ∀ entry ∈ trace, ∀ write, entry.2 = .ok write →
      ∃ record ∈ store.records, record.observation = entry.1.observation := by
  have hall := run_history (J := fun past store => ∀ entry ∈ past, ∀ write, entry.2 = .ok write →
      ∃ record ∈ store.records, record.observation = entry.1.observation) ?_ []
    (forall_mem_nil _) hrun
  · exact hall
  · intro past s call r t hpast hrep
    have hpre := (records_step hrep).1
    refine forall_mem_append.mpr ⟨fun entry hent write hwr => ?_, ?_⟩
    · obtain ⟨record, hmem, hsame⟩ := hpast entry hent write hwr
      exact ⟨record, hpre.subset hmem, hsame⟩
    · refine forall_mem_singleton.mpr fun write hwr => ?_
      simp only at hwr
      subst hwr
      rw [call.exec_eq] at hrep
      cases (wp_iff_reply.mp (ExperienceStore.observe_spec s call.observation)).1 write t hrep with
      | repeated hmem hsame => exact ⟨_, hmem, hsame⟩
      | added => exact ⟨_, mem_append_right _ mem_cons_self, rfl⟩

/-- **Experience is kept and judged action by action.** In the store of every
run an identity has one record; later calls keep the records as they are, and
those that fail or repeat an observation change nothing; the store is read back
from its wire form; an action is suppressed exactly if its negatives since the
last success reach the limit; and runs with the same calls about an action
assess it alike. -/
theorem experience_sound {calls : List ExperienceCall}
    {trace : List (ExperienceCall × Except ExperienceStoreError ExperienceWrite)}
    {store : ExperienceStore}
    (hrun : Command.run ExperienceCall.exec .new calls = some (trace, store)) :
    (∀ left ∈ store.records, ∀ right ∈ store.records,
      sameIdentity left.outcome right.outcome = true → left = right) ∧
    (∀ later trace' store', Command.run ExperienceCall.exec store later = some (trace', store') →
      store.records <+: store'.records) ∧
    (∀ call r t, reply (ExperienceCall.exec call) store = some (r, t) → r ≠ .ok .inserted →
      t = store) ∧
    (∀ entry ∈ trace, ∀ write, entry.2 = .ok write →
      reply entry.1.exec store = some (.ok .unchanged, store)) ∧
    ExperienceStore.deserialize store.serialize () = .ok store () ∧
    (∀ subject actionId policy, (store.assess subject actionId policy).isSuppressed = true ↔
      policy.consecutiveFailureLimit ≤
        negativesSinceSuccess (completedView (view subject actionId store))) ∧
    (∀ subject actionId policy calls' trace' store',
      Command.run ExperienceCall.exec .new calls' = some (trace', store') →
      calls'.filter (ExperienceCall.about subject actionId) =
        calls.filter (ExperienceCall.about subject actionId) →
      store'.assess subject actionId policy = store.assess subject actionId policy) := by
  have hvalid : StoreValid store := run_preserves storeValid_step storeValid_new hrun
  refine ⟨fun left hleft right hright => hvalid.unique hleft hright,
    fun later trace' store' hlat => ?_, fun call r t hrep => (records_step hrep).2,
    fun entry hent write hwr => ?_, hvalid.round_trip, fun subject actionId policy => ?_,
    fun subject actionId policy calls' trace' store' hrun' hcalls => ?_⟩
  · exact run_preserves (I := fun s => store.records <+: s.records)
      (fun hs hrep => hs.trans (records_step hrep).1) (List.prefix_refl _) hlat
  · exact repeated_unchanged hvalid (recorded_of_run hrun entry hent write hwr)
  · rw [hvalid.assess_eq, isSuppressed_iff]
  · obtain ⟨hvalid', hview'⟩ := @view_of_run subject actionId _ _ _ hrun'
    rw [hvalid'.assess_eq, hvalid.assess_eq, hview', hcalls, (view_of_run hrun).2]

/-- An active check that rejected its hypothesis. -/
def rejectedOutcome : VerificationOutcome where
  caseId := "case"
  subject := ⟨"app", .refl false⟩
  actionId := "probe"
  hypothesisId := "h1"
  verifierRuleId := some "rule"
  stage := .active
  status := .falsePositive
  confidence := ⟨530000, by decide⟩
  rationale := "no difference"
  evidenceIds := (∅ : BTreeSet EvidenceId).insert ⟨"e1", .refl false⟩

def rejectedCall : ExperienceCall where
  outcome := rejectedOutcome
  disposition := none
  constructed := .verified (show VerificationOutcome.verified "case" ⟨"app", by decide⟩ "probe" "h1"
    "rule" .active .falsePositive ⟨530000, by decide⟩ "no difference"
    ((∅ : BTreeSet EvidenceId).insert ⟨"e1", by decide⟩) = .ok rejectedOutcome by decide +kernel)

theorem experience_sound_rejected : ∃ trace store,
    Command.run ExperienceCall.exec .new [rejectedCall, rejectedCall] = some (trace, store) ∧
    store.records.length = 1 ∧
    (store.assess ⟨"app", by decide⟩ "probe" ⟨1, by decide, by decide⟩).isSuppressed = true := by
  have hrun : Command.run ExperienceCall.exec .new [rejectedCall, rejectedCall] =
      some ([(rejectedCall, .ok .inserted), (rejectedCall, .ok .unchanged)],
        ⟨1, [⟨0, rejectedOutcome, .verificationRejected⟩]⟩) := by rfl
  exact ⟨_, _, hrun, rfl, ((experience_sound hrun).2.2.2.2.2.1 _ _ _).mpr (by decide +kernel)⟩

end Termivar
