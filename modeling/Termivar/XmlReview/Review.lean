/-
# A review yields an audit that its validator accepts

The facts a run assembles pass the check of the audit, except where an event of
the control callback comes late: in the replay leg, in the candidate leg when a
leg has two polls, or before a cancellation. The check then expects a run that
stopped before its accounting was complete, and the run did not.
-/
import Termivar.XmlReview.Legs

namespace Termivar.XmlReview

open Command List XmlExternalEntityAuditFacts
open Termivar.Correlation
open Termivar.NativeOast
open Termivar.Oast (PollResponse)
open Termivar.Runtime (TransportDispatchReceipt)

/-! ### The classification and the check -/

/-- What the facts of a run satisfy when it concludes. -/
structure Consistent (facts : RuntimeFacts) (count requests : Nat) : Prop where
  counted : count ≤ targetRequests
  admitted : 1 ≤ requests ∧ requests ≤ maxProviderRequests
  body : facts.targetRequestBodyBytes ≤ targetRequests * maxDocumentBytes
  empty : count = 0 ↔ facts.targetRequestBodyBytes = 0
  complete : facts.targetComplete = true → count = targetRequests ∧
    facts.targetResponseBytes ≤ targetRequests * maxTargetResponseBytes
  clean : facts.preflightClean = true
  distinct : facts.callbackTargetsDistinct = true
  target : facts.targetAccountingComplete = true → facts.targetComplete = true
  provider : facts.providerAccountingComplete = true → 9 ≤ requests
  stopped : facts.stopReason ≠ none → facts.targetComplete = false
  contaminated : facts.phaseContaminated = true →
    facts.candidateEvents.isEmpty = false ∨ facts.replayEvents.isEmpty = false

/-- The outcome is the positive one exactly when the legs completed and were
accounted for, the cleanup was verified, and the candidate and the replay had
events of their own and nothing else was seen. -/
theorem classifyOutcome_repeated {facts : RuntimeFacts} (cancelled : Bool)
    (hcl : facts.preflightClean = true)
    (hstopped : facts.stopReason ≠ none → facts.targetComplete = false) :
    classifyOutcome cancelled facts = .repeatedExternalEntityResolutionObserved ↔
      (facts.targetComplete = true ∧ facts.targetAccountingComplete = true ∧
        facts.providerAccountingComplete = true) ∧ facts.cleanupVerified = true ∧
      facts.controlEvents.isEmpty = true ∧ facts.phaseContaminated = false ∧
      facts.candidateEvents.isEmpty = false ∧ facts.replayEvents.isEmpty = false ∧
      isDisjoint facts.candidateEvents facts.replayEvents = true := by
  constructor
  · intro hout
    simp only [classifyOutcome] at hout
    split at hout
    · cases hout
    split at hout
    · cases hout
    split at hout
    · cases hout
    rename_i hcontrol
    split at hout
    · cases hout
    split at hout
    · cases hout
    rename_i hcln
    split at hout
    · cases hout
    rename_i hph
    split at hout
    · cases hout
    rename_i hlif
    simp only [Bool.or_eq_true, not_or, Bool.not_eq_true', Bool.not_eq_false] at hlif
    obtain ⟨⟨⟨-, htgt⟩, hacct⟩, hprov⟩ := hlif
    split at hout
    · cases hout
    · cases hout
    · cases hout
    rename_i hcand hrepl
    split at hout
    · rename_i hdisj
      exact ⟨⟨htgt, hacct, hprov⟩, by simpa using hcln, by simpa using hcontrol,
        by simpa using hph, hcand, hrepl, hdisj⟩
    · cases hout
  · rintro ⟨⟨htgt, hacct, hprov⟩, hcln, hcontrol, hph, hcand, hrepl, hdisj⟩
    have hunst : facts.stopReason = none := by
      by_contra hsome
      rw [hstopped hsome] at htgt
      cases htgt
    simp [classifyOutcome, htgt, hacct, hprov, hcln, hph, hdisj, hcl, hunst, hcontrol, hcand, hrepl]

section Accepted

variable {facts : RuntimeFacts} {count requests : Nat} {positive : Bool}
  {outcome : XmlExternalEntityReviewOutcome}

variable (h : Consistent facts count requests)

include h

theorem Consistent.counts :
    (auditFacts facts count requests positive outcome).invalidCounts = false := by
  obtain ⟨hposit, hadmitted⟩ := h.admitted
  have hact : (decide (count ≥ 2)).toNat ≤ activeVerifications := Bool.toNat_le _
  have hreqs : min requests u8Max ≤ maxProviderRequests := (Nat.min_le_left _ _).trans hadmitted
  simp only [invalidCounts, auditFacts, Bool.or_eq_false_iff, Bool.and_eq_false_iff]
  refine ⟨⟨⟨⟨decide_eq_false h.counted.not_gt, decide_eq_false hreqs.not_gt⟩,
    decide_eq_false hact.not_gt⟩, decide_eq_false h.body.not_gt⟩, ?_⟩
  cases htgt : facts.targetComplete with
  | false => exact .inl rfl
  | true => exact .inr (decide_eq_false (h.complete htgt).2.not_gt)

/-- The requests of a provider fit their counter. -/
theorem Consistent.requests_eq :
    min requests u8Max = requests :=
  Nat.min_eq_left (h.admitted.2.trans (by decide))

theorem Consistent.correlated :
    (auditFacts facts count requests positive outcome).correlated = true := by
  obtain ⟨hposit, hadmitted⟩ := h.admitted
  have hemp := h.empty
  have hprov := h.provider
  have htgt := h.target
  have hcomp : facts.targetComplete = true → count = targetRequests :=
    fun hdone => (h.complete hdone).1
  simp only [XmlExternalEntityAuditFacts.correlated, auditFacts, h.requests_eq, h.clean, h.distinct,
    XmlExternalEntityAuditFacts.targetBytesConsistent,
    XmlExternalEntityAuditFacts.targetCompletionConsistent,
    XmlExternalEntityAuditFacts.targetAccountingConsistent,
    XmlExternalEntityAuditFacts.callbackFactsConsistent,
    XmlExternalEntityAuditFacts.eventFactsConsistent,
    XmlExternalEntityAuditFacts.providerEmptyConsistent,
    XmlExternalEntityAuditFacts.providerCompletionConsistent,
    XmlExternalEntityAuditFacts.targetStartedConsistent, Bool.and_eq_true]
  refine ⟨⟨⟨⟨⟨⟨⟨⟨beq_self_eq_true _, ?_⟩, ?_⟩, ?_⟩, ?_⟩, ?_⟩, ?_⟩, ?_⟩, ?_⟩
  · rw [beq_iff_eq, Bool.eq_iff_iff, beq_iff_eq, beq_iff_eq]
    exact hemp
  · cases htc : facts.targetComplete with
    | false => rfl
    | true => simp [hcomp htc]
  · cases hta : facts.targetAccountingComplete with
    | false => rfl
    | true => simp [htgt hta]
  · simp
  · cases facts.phaseContaminated <;> cases facts.candidateEvents.isEmpty <;>
      cases facts.replayEvents.isEmpty <;> simp
  · simp [show requests ≠ 0 by omega]
  · cases hpa : facts.providerAccountingComplete with
    | false => rfl
    | true => simp [hprov hpa]
  · simp [show 0 < requests by omega]

/-- The facts of a lifecycle that is complete. -/
theorem Consistent.completeLifecycle (positive : Bool) (outcome : XmlExternalEntityReviewOutcome) :
    (auditFacts facts count requests positive outcome).completeLifecycle = true ↔
      (facts.targetComplete = true ∧ facts.targetAccountingComplete = true ∧
        facts.providerAccountingComplete = true) ∧ facts.cleanupVerified = true ∧
      facts.controlEvents.isEmpty = true := by
  obtain ⟨hposit, -⟩ := h.admitted
  simp only [XmlExternalEntityAuditFacts.completeLifecycle, auditFacts, h.requests_eq, h.clean,
    h.distinct, Bool.and_eq_true, Bool.not_not, beq_iff_eq, decide_eq_true_eq, and_true]
  constructor
  · rintro ⟨⟨⟨⟨⟨-, htgt⟩, hcontrol⟩, hcln⟩, hacct⟩, hprov⟩
    exact ⟨⟨htgt, hacct, hprov⟩, hcln, hcontrol⟩
  · rintro ⟨⟨htgt, hacct, hprov⟩, hcln, hcontrol⟩
    have hcnt := (h.complete htgt).1
    have hbody : facts.targetRequestBodyBytes ≠ 0 := fun hzero => by
      rw [h.empty.mpr hzero] at hcnt
      cases hcnt
    refine ⟨⟨⟨⟨⟨⟨⟨⟨hcnt, by omega⟩, ?_⟩, by omega⟩, htgt⟩, hcontrol⟩, hcln⟩, hacct⟩, hprov⟩
    rw [hcnt]
    rfl

theorem Consistent.completePositive (positive : Bool)
    (outcome : XmlExternalEntityReviewOutcome) (cancelled : Bool) :
    (auditFacts facts count requests positive outcome).completePositive = true ↔
      classifyOutcome cancelled facts = .repeatedExternalEntityResolutionObserved := by
  rw [classifyOutcome_repeated cancelled h.clean h.stopped]
  have hlif := h.completeLifecycle positive outcome
  simp only [XmlExternalEntityAuditFacts.completePositive, Bool.and_eq_true, hlif]
  simp only [auditFacts, Bool.and_eq_true, Bool.not_eq_true']
  tauto

/-- The lifecycle of a run that stopped without an event of the control callback. -/
theorem Consistent.stoppedLifecycle (positive : Bool) (outcome : XmlExternalEntityReviewOutcome)
    (hcontrol : facts.controlEvents.isEmpty = true)
    (hpart : facts.targetAccountingComplete = false ∨ facts.providerAccountingComplete = false) :
    (auditFacts facts count requests positive outcome).stoppedLifecycle = true := by
  have hlif : (auditFacts facts count requests positive outcome).completeLifecycle = false := by
    rw [Bool.eq_false_iff, ne_eq, h.completeLifecycle]
    rintro ⟨⟨-, hacct, hprov⟩, -⟩
    rcases hpart with hpart | hpart <;> simp_all
  simp only [XmlExternalEntityAuditFacts.stoppedLifecycle, hlif]
  simp only [auditFacts, hcontrol]
  rcases hpart with hpart | hpart <;> simp [hpart]

/-- The lifecycle is not complete where a part of it is not. -/
theorem Consistent.part_missing (hpart : (facts.targetComplete && facts.targetAccountingComplete &&
      facts.providerAccountingComplete) = false) :
    facts.targetAccountingComplete = false ∨ facts.providerAccountingComplete = false := by
  have htgt := h.target
  cases hta : facts.targetAccountingComplete with
  | false => exact .inl rfl
  | true =>
    rw [htgt hta, hta] at hpart
    exact .inr hpart

/-- The facts match the outcome the run gives them. An event of the control
callback must have ended the run before its accounting was complete, and no
cancellation may have followed it. -/
theorem Consistent.outcomeFactsMatch {cancelled : Bool}
    (hcontrol : facts.controlEvents.isEmpty = false → 0 < count ∧ facts.targetComplete = false ∧
      facts.providerAccountingComplete = false ∧ cancelled = false ∧
      facts.stopReason ≠ some .cancelled) :
    (auditFacts facts count requests positive
      (classifyOutcome cancelled facts)).outcomeFactsMatch = true := by
  have hlif := h.completeLifecycle positive (classifyOutcome cancelled facts)
  have hposit := h.completePositive positive (classifyOutcome cancelled facts) cancelled
  have hstopped := h.stoppedLifecycle positive (classifyOutcome cancelled facts)
  have hpar := h.part_missing
  generalize hout : classifyOutcome cancelled facts = outcome at *
  simp only [classifyOutcome] at hout
  split at hout
  · rename_i hcanc
    simp only [Bool.and_eq_true, Bool.or_eq_true, decide_eq_true_eq, Bool.not_eq_true'] at hcanc
    subst hout
    refine hstopped ?_ (hpar hcanc.2)
    by_contra hsome
    obtain ⟨-, -, -, hunc, hreason⟩ := hcontrol (by simpa using hsome)
    rcases hcanc.1 with hflag | hstop
    · rw [hunc] at hflag
      cases hflag
    · exact hreason hstop
  split at hout
  · rename_i hdirty
    rw [h.clean] at hdirty
    cases hdirty
  split at hout
  · rename_i hsome
    subst hout
    obtain ⟨hcnt, htgt, hprov, -, -⟩ := hcontrol (by simpa using hsome)
    have hacct : facts.targetAccountingComplete = false := by
      rw [Bool.eq_false_iff]
      intro hta
      rw [h.target hta] at htgt
      cases htgt
    simp [XmlExternalEntityAuditFacts.outcomeFactsMatch, auditFacts, h.clean, hsome, htgt,
      hacct, hprov, hcnt]
  rename_i hnone
  have hnone : facts.controlEvents.isEmpty = true := by simpa using hnone
  -- a run that stopped has no complete accounting
  have hunac : facts.targetComplete = false → facts.targetAccountingComplete = false := by
    intro htgt
    rw [Bool.eq_false_iff]
    intro hta
    rw [h.target hta] at htgt
    cases htgt
  split at hout
  · rename_i hbud
    subst hout
    exact hstopped hnone (.inl (hunac (h.stopped (by simp [hbud]))))
  split at hout
  · rename_i hcln
    subst hout
    simpa [XmlExternalEntityAuditFacts.outcomeFactsMatch, auditFacts, h.clean, hnone] using hcln
  rename_i hcln
  have hcln : facts.cleanupVerified = true := by simpa using hcln
  split at hout
  · rename_i hph
    subst hout
    have hevs := h.contaminated hph
    simpa [XmlExternalEntityAuditFacts.outcomeFactsMatch, auditFacts, h.clean, hnone, hph,
      ← Bool.not_eq_true] using hevs
  split at hout
  · rename_i hinc
    subst hout
    refine hstopped hnone ?_
    simp only [Bool.or_eq_true, decide_eq_true_eq, Bool.not_eq_true'] at hinc
    rcases hinc with ((hstop | htgt) | hacct) | hprov
    · exact .inl (hunac (h.stopped (by simp [hstop])))
    · exact .inl (hunac htgt)
    · exact .inl hacct
    · exact .inr hprov
  rename_i hcomp
  simp only [Bool.or_eq_true, not_or, Bool.not_eq_true', Bool.not_eq_false] at hcomp
  obtain ⟨⟨⟨-, htgt⟩, hacct⟩, hprov⟩ := hcomp
  have hwh := hlif.mpr ⟨⟨htgt, hacct, hprov⟩, hcln, hnone⟩
  split at hout
  · rename_i hcand hrepl
    subst hout
    refine Bool.and_eq_true_iff.mpr ⟨hwh, ?_⟩
    simp [XmlExternalEntityAuditFacts.noCallbacks, auditFacts, hnone, hcand, hrepl]
  · rename_i hcand hrepl
    subst hout
    simp only [XmlExternalEntityAuditFacts.outcomeFactsMatch, auditFacts, Bool.and_eq_true]
    exact ⟨⟨⟨hwh, by simp [hcand]⟩, by simp [hrepl]⟩, by simp [hcand, hrepl]⟩
  · rename_i hcand hrepl
    subst hout
    simp only [XmlExternalEntityAuditFacts.outcomeFactsMatch, auditFacts, Bool.and_eq_true]
    exact ⟨⟨⟨hwh, by simp [hcand]⟩, by simp [hrepl]⟩, by simp [hcand, hrepl]⟩
  rename_i hcand hrepl
  split at hout
  · subst hout
    exact hposit.mpr rfl
  · rename_i hshared
    subst hout
    simp [XmlExternalEntityAuditFacts.outcomeFactsMatch, auditFacts, h.clean, hnone, hcand,
      hrepl, hshared]

/-- **The check accepts.** -/
theorem accepted_of_consistent (cancelled : Bool)
    (hcontrol : facts.controlEvents.isEmpty = false → 0 < count ∧ facts.targetComplete = false ∧
      facts.providerAccountingComplete = false ∧ cancelled = false ∧
      facts.stopReason ≠ some .cancelled) :
    validateAuditFacts (auditFacts facts count requests
      (classifyOutcome cancelled facts = .repeatedExternalEntityResolutionObserved : Bool)
      (classifyOutcome cancelled facts)) = .ok () := by
  refine validateAuditFacts_eq_ok.mpr ⟨h.counts, h.correlated, ?_, h.outcomeFactsMatch hcontrol, rfl⟩
  rw [Bool.eq_iff_iff, h.completePositive _ _ cancelled]
  exact decide_eq_true_iff

omit h

end Accepted

/-! ### The end of a run -/

/-- The events of a run whose audit is sure to be accepted: an event of the
control callback comes in the control leg, or in the candidate leg if a leg has
one poll; no cancellation is read after it; and no target receipt is omitted. -/
structure Timely (policy : XmlExternalEntityReviewPolicy) (trace : List ReviewEvent) : Prop where
  early : ∀ leg, ControlIn leg trace →
    leg = .control ∨ (leg = .candidate ∧ policy.pollsPerLeg = 1)
  uncancelled : ∀ before after leg, trace = before ++ .cancelled :: after → ¬ ControlIn leg before
  retained : ReviewEvent.omitted ∉ trace

/-- The legs of a run are complete and accounted for and its cleanup is
verified, and its polls brought events for the candidate and others for the
replay, none of them early, and none for the control. -/
structure Resolved (facts : RuntimeFacts) (trace : List ReviewEvent) : Prop where
  legs : facts.targetComplete = true ∧ facts.targetAccountingComplete = true ∧
    facts.providerAccountingComplete = true
  cleanup : facts.cleanupVerified = true
  control : ∀ key, ¬ Brought trace .control key
  phases : ¬ Contaminated trace
  candidate : ∃ key, Brought trace .candidate key
  replay : ∃ key, Brought trace .replay key
  disjoint : ∀ key, Brought trace .candidate key → ¬ Brought trace .replay key

theorem sum_le {f : TransportDispatchReceipt → Nat} {bound : Nat} :
    ∀ (receipts : List TransportDispatchReceipt) (total : Nat),
      (∀ receipt ∈ receipts, f receipt ≤ bound) →
      receipts.foldl (fun total receipt => saturatingAdd u64Max total (f receipt)) total ≤
        total + receipts.length * bound
  | [], total, _ => by simp
  | receipt :: receipts, total, h => by
    have hhead := h receipt (by simp)
    have htail := sum_le receipts (saturatingAdd u64Max total (f receipt))
      fun other hmem => h other (mem_cons_of_mem _ hmem)
    have hstep : saturatingAdd u64Max total (f receipt) ≤ total + f receipt := Nat.min_le_left _ _
    rw [foldl_cons, length_cons, Nat.succ_mul]
    omega

theorem sum_pos {f : TransportDispatchReceipt → Nat} :
    ∀ (receipts : List TransportDispatchReceipt) (total : Nat), 0 < total →
      0 < receipts.foldl (fun total receipt => saturatingAdd u64Max total (f receipt)) total
  | [], _, h => h
  | receipt :: receipts, total, h => by
    refine sum_pos receipts (saturatingAdd u64Max total (f receipt)) ?_
    unfold saturatingAdd u64Max
    omega

theorem sum_eq_zero_iff {f : TransportDispatchReceipt → Nat} {receipts : List TransportDispatchReceipt}
    (h : ∀ receipt ∈ receipts, 0 < f receipt) :
    receipts.length = 0 ↔
      receipts.foldl (fun total receipt => saturatingAdd u64Max total (f receipt)) 0 = 0 := by
  cases receipts with
  | nil => simp
  | cons receipt receipts =>
    have hhead := h receipt (by simp)
    have hpos : 0 < saturatingAdd u64Max 0 (f receipt) := by
      unfold saturatingAdd u64Max
      omega
    have := sum_pos (f := f) receipts _ hpos
    simp only [foldl_cons, length_cons]
    omega

section Concluded

variable {setting : ReviewSetting} {r : Review} {provider : NativeOastProviderAdapter}
  {verified : Bool} {script : ReviewScript}

theorem Ended.stopped (h : Ended setting r) :
    (concludedFacts script { r with provider } verified).stopReason ≠ none →
      (concludedFacts script { r with provider } verified).targetComplete = false := by
  intro hstop
  show (r.targetComplete && _) = false
  cases hcomp : r.targetComplete with
  | false => rfl
  | true => exact absurd (h.complete hcomp).2.1 hstop

theorem providerAccountingIsComplete_requests (h : providerAccountingIsComplete provider = true) :
    9 ≤ provider.receipts.length ∧ provider.receipts.length = provider.admittedProviderRequests := by
  simp only [providerAccountingIsComplete, Bool.and_eq_true, decide_eq_true_eq] at h
  obtain ⟨⟨⟨⟨⟨⟨⟨hmin, hmax⟩, -⟩, -⟩, -⟩, -⟩, -⟩, hcnt⟩ := h
  refine ⟨hmin, ?_⟩
  unfold NativeOastProviderAdapter.admittedProviderRequests
  rw [hcnt]
  unfold maxProviderRequests at hmax
  unfold u16Max
  omega

/-- An event out of phase is one of the candidate or of the replay. -/
theorem Kept.contaminated_events {n : Nat} (h : Kept setting n r)
    (hph : r.facts.phaseContaminated = true) :
    r.facts.candidateEvents.isEmpty = false ∨ r.facts.replayEvents.isEmpty = false := by
  obtain ⟨leg, found, role, key, hmem, hkey, hearly⟩ := h.contaminated.mp hph
  have hevent : key ∈ r.facts.events role := (h.reported role key).mpr ⟨leg, found, hmem, hkey⟩
  cases leg with
  | none => rw [h.preflight found hmem] at hkey; cases hkey
  | some leg =>
    cases role with
    | control => exact absurd hearly (by simp [OutOfPhase, legIndex])
    | candidate => exact .inl (isEmpty_eq_false_iff.mpr ⟨key, hevent⟩)
    | replay => exact .inr (isEmpty_eq_false_iff.mpr ⟨key, hevent⟩)

theorem Ended.consistent (h : Ended setting r) (script : ReviewScript) (verified : Bool)
    (hserv : Served setting r.provider provider) (hroom : ReviewEvent.omitted ∉ r.trace) :
    Consistent (concludedFacts script { r with provider } verified) (min r.targetReceipts.length u8Max)
      provider.admittedProviderRequests := by
  have hcnt : min r.targetReceipts.length u8Max = r.targetReceipts.length :=
    Nat.min_eq_left (h.count.trans (by decide))
  rw [hcnt]
  have hlimit : provider.boundary.permit.limits.maxProviderRequests = maxProviderRequests :=
    hserv.step.same.limits ▸ h.limit
  exact
    { counted := h.count
      admitted := ⟨h.admitted.trans hserv.used.requests, hlimit ▸ hserv.step.sound.balanced.requests⟩
      body := by
        have hle := sum_le r.targetReceipts 0 fun receipt hmem => (h.bodies receipt hmem).2
        have := Nat.mul_le_mul_right maxDocumentBytes h.count
        exact hle.trans (by rw [Nat.zero_add]; exact this)
      empty := sum_eq_zero_iff fun receipt hmem => (h.bodies receipt hmem).1
      complete := by
        intro hcomp
        obtain ⟨htgt, hlength⟩ := Bool.and_eq_true_iff.mp hcomp
        obtain ⟨hall, hsm⟩ := (h.complete htgt).2.2 hroom
        refine ⟨hall, ?_⟩
        have hle := sum_le r.targetReceipts 0 hsm
        rw [hall, Nat.zero_add] at hle
        exact hle
      clean := h.clean
      distinct := h.distinct
      target := by
        intro hacct
        exact (Bool.and_eq_true_iff.mp (Bool.and_eq_true_iff.mp hacct).1).1
      provider := by
        intro hcomp
        obtain ⟨hmin, heq⟩ := providerAccountingIsComplete_requests hcomp
        exact heq ▸ hmin
      stopped := h.stopped
      contaminated := h.contaminated_events }

/-- What the check asks of a run with an event of the control callback. -/
theorem Ended.controlled (h : Ended setting r) (hserv : Served setting r.provider provider)
    (htimely : Timely setting.policy
      (r.trace ++ if script.cancelled = true then [ReviewEvent.cancelled] else []))
    (hsome : r.facts.controlEvents.isEmpty = false) :
    0 < min r.targetReceipts.length u8Max ∧
      (concludedFacts script { r with provider } verified).targetComplete = false ∧
      (concludedFacts script { r with provider } verified).providerAccountingComplete = false ∧
      script.cancelled = false ∧ r.facts.stopReason ≠ some .cancelled := by
  obtain ⟨leg, hin, hrcpts, hcnt, hrepl⟩ := h.control hsome
  have hpolls := setting.policy.polls.2
  have hroom : ReviewEvent.omitted ∉ r.trace := fun hmem =>
    htimely.retained (mem_append_left _ hmem)
  -- the leg of the event leaves too few polls for a complete accounting
  have hfew : (legIndex leg + 1) * setting.policy.pollsPerLeg ≤ 2 ∧ leg ≠ .replay := by
    rcases htimely.early leg (controlIn_append hin _) with rfl | ⟨rfl, hone⟩
    · exact ⟨by simpa [legIndex] using (show setting.policy.pollsPerLeg ≤ 2 from hpolls), (by simp)⟩
    · exact ⟨by simp [legIndex, hone], (by simp)⟩
  refine ⟨?_, ?_, ?_, ?_, ?_⟩
  · have := hcnt hroom
    unfold u8Max
    omega
  · show (r.targetComplete && _) = false
    cases hcomp : r.targetComplete with
    | false => rfl
    | true => exact absurd (hrepl hcomp) hfew.2
  · show providerAccountingIsComplete provider = false
    rw [Bool.eq_false_iff]
    intro hcomp
    have := (providerAccountingIsComplete_requests hcomp).1
    have := hserv.used.receipts
    omega
  · rw [Bool.eq_false_iff]
    intro hcanc
    refine htimely.uncancelled r.trace [] leg ?_ hin
    rw [if_pos hcanc]
  · intro hstop
    obtain ⟨before, htr⟩ := h.cancelled hstop
    obtain ⟨found, key, hmem, hkey⟩ := hin
    rw [htr] at hmem
    refine htimely.uncancelled before (if script.cancelled = true then [.cancelled] else []) leg ?_
      ⟨found, key, ?_, hkey⟩
    · rw [htr, append_assoc]
      rfl
    · simpa using hmem

theorem isDisjoint_eq_true {left right : BTreeSet OastEventKey} :
    isDisjoint left right = true ↔ ∀ key, key ∈ left → key ∉ right := by
  simp [isDisjoint, Std.ExtTreeSet.mem_toList, ← Bool.not_eq_true, Std.ExtTreeSet.contains_iff_mem]

theorem isEmpty_eq_true_iff {events : BTreeSet OastEventKey} :
    events.isEmpty = true ↔ ∀ key, key ∉ events := by
  rw [Std.ExtTreeSet.isEmpty_iff, Std.ExtTreeSet.eq_empty_iff_forall_not_mem]

/-- The positive outcome in terms of the run. -/
theorem Ended.resolved (h : Ended setting r) :
    classifyOutcome script.cancelled (concludedFacts script { r with provider } verified) =
        .repeatedExternalEntityResolutionObserved ↔
      Resolved (concludedFacts script { r with provider } verified)
        (r.trace ++ if script.cancelled = true then [ReviewEvent.cancelled] else []) := by
  have hpoll := pollless_cancelled (script.cancelled = true)
  have hrep : ∀ role key, key ∈ r.facts.events role ↔ Brought
      (r.trace ++ if script.cancelled = true then [ReviewEvent.cancelled] else []) role key :=
    (h.toKept.noted hpoll).reported
  have hphases : r.facts.phaseContaminated = true ↔ Contaminated
      (r.trace ++ if script.cancelled = true then [ReviewEvent.cancelled] else []) :=
    (h.toKept.noted hpoll).contaminated
  have hcl : (concludedFacts script { r with provider } verified).preflightClean = true := h.clean
  rw [classifyOutcome_repeated script.cancelled hcl h.stopped]
  constructor
  · rintro ⟨hlegs, hcln, hcontrol, hph, hcand, hrepl, hdisj⟩
    refine ⟨hlegs, hcln, fun key hkey => ?_, fun hearly => ?_, ?_, ?_, fun key hkey hboth => ?_⟩
    · exact isEmpty_eq_true_iff.mp hcontrol key ((hrep .control key).mpr hkey)
    · rw [show (concludedFacts script { r with provider } verified).phaseContaminated =
        r.facts.phaseContaminated from rfl, hphases.mpr hearly] at hph
      cases hph
    · obtain ⟨key, hkey⟩ := isEmpty_eq_false_iff.mp hcand
      exact ⟨key, (hrep .candidate key).mp hkey⟩
    · obtain ⟨key, hkey⟩ := isEmpty_eq_false_iff.mp hrepl
      exact ⟨key, (hrep .replay key).mp hkey⟩
    · exact isDisjoint_eq_true.mp hdisj key ((hrep .candidate key).mpr hkey)
        ((hrep .replay key).mpr hboth)
  · rintro ⟨hlegs, hcln, hcontrol, hph, ⟨candidate, hcand⟩, ⟨replay, hrepl⟩, hdisj⟩
    refine ⟨hlegs, hcln, ?_, ?_, ?_, ?_, ?_⟩
    · exact isEmpty_eq_true_iff.mpr fun key hkey => hcontrol key ((hrep .control key).mp hkey)
    · exact Bool.eq_false_iff.mpr fun hearly => hph (hphases.mp hearly)
    · exact isEmpty_eq_false_iff.mpr ⟨candidate, (hrep .candidate candidate).mpr hcand⟩
    · exact isEmpty_eq_false_iff.mpr ⟨replay, (hrep .replay replay).mpr hrepl⟩
    · exact isDisjoint_eq_true.mpr fun key hkey hboth => hdisj key
        ((hrep .candidate key).mp hkey) ((hrep .replay key).mp hboth)

end Concluded

/-! ### Runs -/

section Runs

variable {setting : ReviewSetting} {r : Review} {script : ReviewScript}

theorem cleanup_served (h : Sound setting.sha256 r.provider) (exchange : Exchange Bool) :
    wp (NativeOast.observed .cleanup (cleanupInner exchange))
      (fun _ a => Served setting r.provider a ∧ 1 ≤ a.admittedProviderRequests)
      (fun _ a => Served setting r.provider a) False r.provider := by
  have hstep : wp (NativeOast.observed .cleanup (cleanupInner exchange))
      (fun _ a => Step setting.sha256 r.provider a) (fun _ a => Step setting.sha256 r.provider a)
      False r.provider :=
    wp_observed .cleanup (wp_mono (cleanupInner_spec h exchange) (fun _ _ hok => hok)
      (fun _ _ herr _ _ => herr.1.noted _ _) id)
  exact wp_mono (wp_and hstep (observed_used .cleanup (cleanupInner_used h exchange)))
    (fun _ _ hboth => ⟨⟨hboth.1, hboth.2.1⟩, hboth.2.2⟩) (fun _ _ hboth => ⟨hboth.1, hboth.2⟩)
    And.left

/-- A cleanup that is verified was a request. -/
theorem cleanupProvider_spec (h : Sound setting.sha256 r.provider) :
    wp (cleanupProvider script) (fun verified r' => ∃ provider, r' = { r with provider } ∧
        Served setting r.provider provider ∧
        (verified = true → 1 ≤ provider.admittedProviderRequests))
      (fun _ _ => False) False r := by
  unfold cleanupProvider
  rw [wp_bind]
  refine wp_imp (onProvider_spec (cleanup_served h script.cleanup)) ?_
  rintro (kind | receipt) _ ⟨provider, rfl, hserv⟩
  · exact ⟨provider, rfl, hserv, (by simp)⟩
  · exact ⟨provider, rfl, hserv.1, fun _ => hserv.2⟩

/-- What the end of a run says of it. -/
structure Concluded (setting : ReviewSetting)
    (result : Except ReviewFailure XmlExternalEntityRuntimeResult) (facts : RuntimeFacts)
    (trace : List ReviewEvent) : Prop where
  accepted : ∀ error, result = .error (.audit error) → ¬ Timely setting.policy trace
  resolved : ∀ value, result = .ok value → validateAuditFacts value.audit = .ok () ∧
    (value.audit.outcome = .repeatedExternalEntityResolutionObserved ↔ Resolved facts trace)
  sane : result ≠ .error .limits ∧ result ≠ .error .document

theorem Concluded.ofOk {facts : RuntimeFacts} {trace : List ReviewEvent}
    {value : XmlExternalEntityRuntimeResult} (haudit : validateAuditFacts value.audit = .ok ())
    (h : value.audit.outcome = .repeatedExternalEntityResolutionObserved ↔ Resolved facts trace) :
    Concluded setting (.ok value) facts trace where
  accepted error heq := by cases heq
  resolved value' heq := by
    cases heq
    exact ⟨haudit, h⟩
  sane := by constructor <;> intro heq <;> cases heq

theorem Concluded.ofError {facts : RuntimeFacts} {trace : List ReviewEvent} {failure : ReviewFailure}
    (haudit : ∀ error, failure = .audit error → ¬ Timely setting.policy trace)
    (hlims : failure ≠ .limits) (hdoc : failure ≠ .document) :
    Concluded setting (.error failure) facts trace where
  accepted error heq := haudit error (Except.error.inj heq)
  resolved value heq := by cases heq
  sane := ⟨fun heq => hlims (Except.error.inj heq), fun heq => hdoc (Except.error.inj heq)⟩

/-- The conclusion is the audit of the classified outcome. -/
theorem conclusion_spec (facts : RuntimeFacts) (count requests : Nat) (cancelled committed : Bool) :
    Checked.wp (conclusion cancelled committed facts count requests)
      (fun value => validateAuditFacts value.audit = .ok () ∧
        value.audit.outcome = classifyOutcome cancelled facts)
      (fun failure => failure = .evidence ∨ ∃ error, failure = .audit error ∧
        validateAuditFacts (auditFacts facts count requests
          (classifyOutcome cancelled facts = .repeatedExternalEntityResolutionObserved : Bool)
          (classifyOutcome cancelled facts)) = .error error) := by
  simp only [conclusion, auditNew, ↓Checked.wp_rules]
  refine ⟨fun _ => .inl trivial, fun _ => ?_⟩
  cases hchec : validateAuditFacts (auditFacts facts count requests
      (classifyOutcome cancelled facts = .repeatedExternalEntityResolutionObserved : Bool)
      (classifyOutcome cancelled facts)) with
  | error error => exact .inr ⟨error, rfl, rfl⟩
  | ok _ =>
    exact ⟨fun _ => ⟨hchec, rfl⟩, fun _ => ⟨fun _ => ⟨hchec, rfl⟩, fun _ => ⟨hchec, rfl⟩⟩⟩

theorem concludeReview_spec (h : Ended setting r) :
    wp (concludeReview script) (fun value r' => Concluded setting (.ok value) r'.facts r'.trace)
      (fun failure r' => Concluded setting (.error failure) r'.facts r'.trace) False r := by
  unfold concludeReview
  rw [wp_bind]
  refine wp_mono (cleanupProvider_spec h.sound) ?_ (fun _ _ he => he.elim) id
  rintro verified _ ⟨provider, rfl, hserv, -⟩
  simp only [↓wp_rules]
  refine Checked.wp_mono (conclusion_spec _ _ _ _ _) (fun value hvalue => ?_) fun failure hfail => ?_
  · refine Concluded.ofOk hvalue.1 ?_
    rw [hvalue.2]
    exact h.resolved
  · refine Concluded.ofError (fun error heq htimely => ?_) ?_ ?_
    · obtain hev | ⟨error', -, hrej⟩ := hfail
      · rw [hev] at heq
        cases heq
      · have hroom : ReviewEvent.omitted ∉ r.trace := fun hmem =>
          htimely.retained (mem_append_left _ hmem)
        have hacc := accepted_of_consistent (h.consistent script verified hserv hroom)
          script.cancelled fun hsome => h.controlled hserv htimely hsome
        exact absurd (hacc.symm.trans hrej) (by simp)
    · rcases hfail with hev | ⟨error', haudit, -⟩ <;> simp [*]
    · rcases hfail with hev | ⟨error', haudit, -⟩ <;> simp [*]

/-- The facts of a run that ends before its legs. -/
structure Halted (facts : RuntimeFacts) (requests : Nat) : Prop where
  admitted : requests ≤ maxProviderRequests
  target : facts.targetComplete = false
  provider : facts.providerAccountingComplete = false
  dirty : facts.preflightClean = false
  empty : requests = 0 → facts.callbackTargetsDistinct = false ∧ facts.cleanupVerified = false
  events : facts.callbackTargetsDistinct = false → facts.controlEvents.isEmpty = true ∧
    facts.candidateEvents.isEmpty = true ∧ facts.replayEvents.isEmpty = true

theorem Halted.counted {facts : RuntimeFacts} {requests : Nat} (h : Halted facts requests)
    (outcome : XmlExternalEntityReviewOutcome) :
    let audit := auditFacts { facts with
      targetRequestBodyBytes := 0, targetResponseBytes := 0, targetAccountingComplete := false }
      0 requests false outcome
    audit.invalidCounts = false ∧ audit.correlated = true ∧ audit.completeLifecycle = false := by
  have hreqs : min requests u8Max = requests := Nat.min_eq_left (h.admitted.trans (by decide))
  refine ⟨?_, ?_, ?_⟩
  · simp [invalidCounts, auditFacts, h.target, hreqs, h.admitted]
  · simp only [correlated, auditFacts, hreqs, h.dirty, h.target, h.provider, targetBytesConsistent,
      targetCompletionConsistent,
      targetAccountingConsistent,
      callbackFactsConsistent,
      eventFactsConsistent,
      providerEmptyConsistent,
      providerCompletionConsistent,
      targetStartedConsistent, noCallbacks]
    cases hdist : facts.callbackTargetsDistinct with
    | false =>
      obtain ⟨hcontrol, hcand, hrepl⟩ := h.events hdist
      rcases Nat.eq_zero_or_pos requests with hzero | hpos
      · simp [hzero, hcontrol, hcand, hrepl, (h.empty hzero).2]
      · simp [hcontrol, hcand, hrepl, show requests ≠ 0 by omega]
    | true =>
      have hpos : requests ≠ 0 := fun hzero => by
        rw [(h.empty hzero).1] at hdist
        cases hdist
      cases facts.phaseContaminated <;> cases facts.candidateEvents.isEmpty <;>
        cases facts.replayEvents.isEmpty <;> simp [hpos]
  · simp [completeLifecycle, auditFacts, h.dirty]

/-- A run that ends before its legs reports the outcome it is given. -/
theorem terminalResult_ok {facts : RuntimeFacts} {requests : Nat}
    {outcome : XmlExternalEntityReviewOutcome} (h : Halted facts requests)
    (hout : (outcome = .cancelled ∨ outcome = .budgetExhausted ∨ outcome = .incomplete) ∧
        facts.controlEvents.isEmpty = true ∨
      outcome = .preflightContaminated ∧ facts.callbackTargetsDistinct = true ∧
        (facts.controlEvents.isEmpty && facts.candidateEvents.isEmpty &&
          facts.replayEvents.isEmpty) = false) :
    ∃ audit, terminalResult facts [] requests outcome = .ok (.stopped audit) ∧
      validateAuditFacts audit = .ok () ∧ audit.outcome = outcome := by
  obtain ⟨hcounts, hcorr, hlif⟩ := h.counted outcome
  have hneg : outcome ≠ .repeatedExternalEntityResolutionObserved := by
    rcases hout with ⟨rfl | rfl | rfl, -⟩ | ⟨rfl, -⟩ <;> simp
  have hacc : validateAuditFacts (auditFacts { facts with
      targetRequestBodyBytes := 0, targetResponseBytes := 0, targetAccountingComplete := false }
      0 requests false outcome) = .ok () := by
    have hposit : decide (outcome = .repeatedExternalEntityResolutionObserved) = false :=
      decide_eq_false hneg
    refine validateAuditFacts_eq_ok.mpr ⟨hcounts, hcorr, ?_, ?_, hposit.symm⟩
    · simp only [completePositive, hlif, Bool.false_and]
      exact hposit
    · rcases hout with ⟨hstopped, hcontrol⟩ | ⟨rfl, hdist, hevs⟩
      · have hlife : (auditFacts { facts with
            targetRequestBodyBytes := 0, targetResponseBytes := 0, targetAccountingComplete := false }
            0 requests false outcome).stoppedLifecycle = true := by
          simp only [stoppedLifecycle, hlif]
          simp [auditFacts, hcontrol]
        rcases hstopped with rfl | rfl | rfl <;> exact hlife
      · have hpos : 0 < min requests u8Max := by
          rcases Nat.eq_zero_or_pos requests with hzero | hpos
          · rw [(h.empty hzero).1] at hdist
            cases hdist
          · unfold u8Max
            omega
        simp only [outcomeFactsMatch, auditFacts, hpos, h.target,
          h.provider, h.dirty, hdist, noCallbacks, Bool.not_not,
          hevs]
        rfl
  refine ⟨auditFacts { facts with
    targetRequestBodyBytes := 0, targetResponseBytes := 0, targetAccountingComplete := false }
    0 requests false outcome, ?_, hacc, rfl⟩
  simp only [terminalResult, targetAccounting, auditNew, length_nil, foldl_nil, Nat.zero_min]
  rw [hacc]
  rfl

theorem outcomeForProviderError_stopped (kind : NativeOastProviderErrorKind) :
    outcomeForProviderError kind = .cancelled ∨ outcomeForProviderError kind = .budgetExhausted ∨
      outcomeForProviderError kind = .incomplete := by
  unfold outcomeForProviderError
  split
  · exact .inl rfl
  all_goals first | exact .inr (.inl rfl) | exact .inr (.inr rfl)

theorem Halted.concluded {facts : RuntimeFacts} {requests : Nat}
    {outcome : XmlExternalEntityReviewOutcome} (h : Halted facts requests) (setting : ReviewSetting)
    (hout : (outcome = .cancelled ∨ outcome = .budgetExhausted ∨ outcome = .incomplete) ∧
        facts.controlEvents.isEmpty = true ∨
      outcome = .preflightContaminated ∧ facts.callbackTargetsDistinct = true ∧
        (facts.controlEvents.isEmpty && facts.candidateEvents.isEmpty &&
          facts.replayEvents.isEmpty) = false) (trace : List ReviewEvent) :
    Concluded setting (terminalResult facts [] requests outcome) facts trace := by
  obtain ⟨audit, haudit, hacc, hsame⟩ := terminalResult_ok h hout
  rw [haudit]
  refine Concluded.ofOk hacc ⟨fun hposit => ?_, fun hresv => ?_⟩
  · rw [show (XmlExternalEntityRuntimeResult.stopped audit).audit.outcome = outcome from hsame]
      at hposit
    rcases hout with ⟨rfl | rfl | rfl, -⟩ | ⟨rfl, -⟩ <;> cases hposit
  · have htgt := hresv.legs.1
    rw [h.target] at htgt
    cases htgt


/-- A review before its legs. -/
structure Waiting (setting : ReviewSetting) (r : Review) : Prop where
  sound : Sound setting.sha256 r.provider
  limit : r.provider.boundary.permit.limits.maxProviderRequests = maxProviderRequests
  receipts : r.targetReceipts = []
  target : r.facts.targetComplete = false
  dirty : r.facts.preflightClean = false
  admitted : r.facts.callbackTargetsDistinct = true → 1 ≤ r.provider.admittedProviderRequests
  events : r.facts.callbackTargetsDistinct = false → r.facts.controlEvents.isEmpty = true ∧
    r.facts.candidateEvents.isEmpty = true ∧ r.facts.replayEvents.isEmpty = true

variable {provider : NativeOastProviderAdapter}

theorem Waiting.served (h : Waiting setting r)
    (hserv : Served setting r.provider provider) : Waiting setting { r with provider } :=
  { h with
    sound := hserv.step.sound
    limit := by rw [hserv.step.same.limits]; exact h.limit
    admitted := fun hdist => (h.admitted hdist).trans hserv.used.requests }

theorem terminalWithProvider_spec {outcome : XmlExternalEntityReviewOutcome} (h : Waiting setting r)
    (hout : (outcome = .cancelled ∨ outcome = .budgetExhausted ∨ outcome = .incomplete) ∧
        r.facts.controlEvents.isEmpty = true ∨
      outcome = .preflightContaminated ∧ r.facts.callbackTargetsDistinct = true ∧
        (r.facts.controlEvents.isEmpty && r.facts.candidateEvents.isEmpty &&
          r.facts.replayEvents.isEmpty) = false) :
    wp (terminalWithProvider script outcome) (fun value r' => Concluded setting (.ok value) r'.facts r'.trace)
      (fun failure r' => Concluded setting (.error failure) r'.facts r'.trace) False r := by
  unfold terminalWithProvider
  rw [wp_bind]
  refine wp_mono (cleanupProvider_spec h.sound) ?_ (fun _ _ he => he.elim) id
  rintro verified _ ⟨provider, rfl, hserv, hver⟩
  simp only [↓wp_rules, h.receipts]
  have hnext := h.served hserv
  have hhalted : Halted { r.facts with cleanupVerified := verified, providerAccountingComplete := false }
      provider.admittedProviderRequests :=
    { admitted := hnext.limit ▸ hnext.sound.balanced.requests
      target := h.target
      provider := rfl
      dirty := h.dirty
      empty := fun hzero => by
        refine ⟨Bool.eq_false_iff.mpr fun hdist => ?_, Bool.eq_false_iff.mpr fun hcl => ?_⟩
        · have : 1 ≤ provider.admittedProviderRequests := hnext.admitted hdist
          omega
        · have := hver hcl
          omega
      events := h.events }
  have hconc := hhalted.concluded setting hout r.trace
  unfold NativeOastProviderAdapter.admittedProviderRequests at hconc
  revert hconc
  generalize terminalResult _ [] _ outcome = result
  cases result with
  | ok value => exact id
  | error failure => exact id

theorem cleanupThenError_spec {α : Type} {failure : ReviewFailure}
    (h : Sound setting.sha256 r.provider) (haudit : ∀ error, failure ≠ .audit error)
    (hlims : failure ≠ .limits) (hdoc : failure ≠ .document) :
    wp (cleanupThenError script failure : ReviewCommand α) (fun _ _ => False)
      (fun failure r' => Concluded setting (.error failure) r'.facts r'.trace) False r := by
  unfold cleanupThenError
  rw [wp_bind]
  refine wp_mono (cleanupProvider_spec h) (fun _ r' _ => ?_) (fun _ _ he => he.elim) id
  exact Concluded.ofError (fun error heq => absurd heq (haudit error)) hlims hdoc

/-- The legs begin after a clean preflight. -/
theorem going_of_preflight (hsnd : Sound setting.sha256 provider)
    (hlimit : provider.boundary.permit.limits.maxProviderRequests = maxProviderRequests)
    (hadmitted : 1 ≤ provider.admittedProviderRequests) (hrcpts : provider.receipts.length ≤ 5)
    {facts : RuntimeFacts} {found : List (Role × OastEventKey)} (hfnd : found = [])
    (hfacts : facts.preflightClean = true ∧ facts.callbackTargetsDistinct = true ∧
      facts.phaseContaminated = false ∧ facts.stopReason = none)
    (hcl : ∀ role key, key ∉ facts.events role) :
    Going setting 0 (0 * setting.policy.pollsPerLeg)
      { provider, facts, trace := [.polled none found] } where
  sound := hsnd
  limit := hlimit
  admitted := hadmitted
  clean := hfacts.1
  distinct := hfacts.2.1
  reported role key := by simp [hcl role key, Brought, hfnd]
  preflight found' hmem := by
    obtain ⟨-, rfl⟩ : True ∧ found' = found := by simpa using hmem
    exact hfnd
  phases leg found' hmem := by simp at hmem
  contaminated := by simp [hfacts.2.2.1, Contaminated, hfnd]
  count := le_rfl
  bodies receipt hmem := by simp at hmem
  receipts := by simpa using hrcpts
  expected := rfl
  complete := rfl
  unstopped := hfacts.2.2.2
  whole _ := ⟨rfl, fun _ hmem => absurd hmem not_mem_nil⟩
  control hsome := by
    obtain ⟨key, hkey⟩ := isEmpty_eq_false_iff.mp hsome
    exact absurd hkey (hcl .control key)

theorem buildDocument_policyId (policyId : Bytes) (role : Role) (target : String) :
    Checked.wp (buildDocument policyId role target) (fun document => document.policyId = policyId)
      (fun _ => True) := by
  cases hbt : buildDocument policyId role target with
  | error _ => exact trivial
  | ok document =>
    unfold buildDocument at hbt
    dsimp only at hbt
    split at hbt
    · rw [Checked.wp_ok, ← Except.ok.inj hbt]
    · cases hbt

theorem planNew_policyId {policyId : Bytes} {validate : String → Option Url}
    {control candidate replay : String} {plan : XmlExternalEntityDocumentPlan}
    (h : planNew policyId validate control candidate replay = .ok plan) (leg : Role) :
    (plan.document leg).policyId = policyId := by
  have hspec : Checked.wp (planNew policyId validate control candidate replay)
      (fun plan => ∀ leg, (plan.document leg).policyId = policyId) (fun _ => True) := by
    unfold planNew
    simp only [↓Checked.wp_rules]
    refine ⟨fun _ _ => ⟨fun _ _ => ⟨fun _ _ => ⟨fun _ => trivial, fun _ => ?_⟩, fun _ => trivial⟩,
      fun _ => trivial⟩, fun _ => trivial⟩
    refine Checked.wp_imp (buildDocument_policyId _ _ _) fun _ hcontrol => ?_
    refine Checked.wp_imp (buildDocument_policyId _ _ _) fun _ hcand => ?_
    refine Checked.wp_imp (buildDocument_policyId _ _ _) fun _ hrepl => ?_
    rintro (_ | _ | _)
    · exact hcontrol
    · exact hcand
    · exact hrepl
  rw [h] at hspec
  exact hspec leg

theorem reviewPlanned_spec {bindings : CallbackBindings}
    {plan : XmlExternalEntityDocumentPlan} (hsnd : Sound setting.sha256 provider)
    (hlimit : provider.boundary.permit.limits.maxProviderRequests = maxProviderRequests)
    (hadmitted : 1 ≤ provider.admittedProviderRequests) (hrcpts : provider.receipts.length ≤ 4)
    (hpol : ∀ leg, (plan.document leg).policyId = setting.policy.policyId) :
    wp (reviewPlanned setting script bindings plan)
      (fun value r' => Concluded setting (.ok value) r'.facts r'.trace)
      (fun failure r' => Concluded setting (.error failure) r'.facts r'.trace) False
      { provider } := by
  unfold reviewPlanned
  simp only [↓wp_rules]
  have hwait : Waiting setting { provider, facts := { callbackTargetsDistinct := true } } :=
    ⟨hsnd, hlimit, rfl, rfl, rfl, fun _ => hadmitted, (by simp)⟩
  refine wp_mono (pollProvider_spec hwait.sound bindings none script.preflight) ?_
    (fun _ _ he => he.elim) id
  rintro (kind | _) r' ⟨provider', hserv, hr'⟩
  · subst hr'
    exact terminalWithProvider_spec (hwait.served hserv)
      (.inl ⟨outcomeForProviderError_stopped kind, rfl⟩)
  · obtain ⟨receipts, rfl⟩ := hr'
    obtain ⟨controlEvents, candidateEvents, replayEvents, heq⟩ :=
      absorbPoll_rest bindings receipts { callbackTargetsDistinct := true }
    have hevs := fun role key =>
      absorbPoll_events bindings role key receipts { callbackTargetsDistinct := true }
    rw [heq] at hevs ⊢
    have hnext := hwait.served hserv
    simp only [↓wp_rules, ↓wp_attempt]
    refine ⟨fun hdirty => ?_, fun hcl => ⟨fun _ => ?_, fun _ => ?_⟩⟩
    · have hdirty : (controlEvents.isEmpty && candidateEvents.isEmpty && replayEvents.isEmpty) =
          false := Bool.not_eq_true' _ ▸ hdirty
      refine terminalWithProvider_spec ⟨hnext.sound, hnext.limit, rfl, rfl, hdirty, hnext.admitted,
        fun hnone => by cases hnone⟩ (.inr ⟨rfl, rfl, hdirty⟩)
    · exact wp_imp (cleanupThenError_spec hnext.sound (by simp) (by simp) (by simp)) (fun _ _ he => he.elim)
    · have hcl : (controlEvents.isEmpty && candidateEvents.isEmpty && replayEvents.isEmpty) =
          true := by simpa using hcl
      obtain ⟨⟨hcontrol, hcand⟩, hrepl⟩ :=
        (Bool.and_eq_true_iff.mp hcl).imp_left Bool.and_eq_true_iff.mp
      have hnone : ∀ role key, key ∉ RuntimeFacts.events
          { callbackTargetsDistinct := true, controlEvents, candidateEvents, replayEvents } role := by
        intro role key hkey
        cases role with
        | control => exact isEmpty_eq_true_iff.mp hcontrol key hkey
        | candidate => exact isEmpty_eq_true_iff.mp hcand key hkey
        | replay => exact isEmpty_eq_true_iff.mp hrepl key hkey
      have hfnd : brought bindings receipts = [] :=
        eq_nil_iff_forall_not_mem.mpr fun event hmem =>
          hnone event.1 event.2 ((hevs event.1 event.2).mpr (.inr hmem))
      have hused : provider'.receipts.length ≤ 5 := hserv.used.receipts.trans (Nat.succ_le_succ hrcpts)
      have hgo : Going setting 0 (0 * setting.policy.pollsPerLeg)
          { provider := provider'
            facts :=
              { callbackTargetsDistinct := true, preflightClean := true, controlEvents
                candidateEvents, replayEvents }
            trace := [.polled none (brought bindings receipts)] } :=
        going_of_preflight hnext.sound hnext.limit (hnext.admitted rfl) hused hfnd
          ⟨rfl, rfl, rfl, rfl⟩ fun role key hkey => hnone role key (by cases role <;> exact hkey)
      rw [hcl]
      refine wp_mono (runLegs_spec script.leg hpol roles 0 _ rfl rfl hgo) (fun _ r' hend => ?_)
        (fun _ _ he => he.elim) id
      exact concludeReview_spec hend

theorem register_served (h : Sound setting.sha256 provider)
    (exchange : Exchange Oast.SessionRegistration) :
    wp (NativeOast.observed .register (registerInner exchange))
      (fun _ a => Served setting provider a ∧ 1 ≤ a.admittedProviderRequests)
      (fun _ a => Served setting provider a) False provider := by
  have hstep : wp (NativeOast.observed .register (registerInner exchange))
      (fun _ a => Step setting.sha256 provider a) (fun _ a => Step setting.sha256 provider a) False
      provider :=
    wp_observed .register (wp_mono (registerInner_spec h exchange) (fun _ _ hok => hok)
      (fun _ _ herr _ _ => herr.1.noted _ _) id)
  exact wp_mono (wp_and hstep (observed_used .register (registerInner_used h exchange)))
    (fun _ _ hboth => ⟨⟨hboth.1, hboth.2.1⟩, hboth.2.2⟩) (fun _ _ hboth => ⟨hboth.1, hboth.2⟩)
    And.left

theorem allocateCallback_spec (h : Sound setting.sha256 provider) (role : Role) (allocation : AllocationScript) :
    wp (allocateCallback setting role allocation)
      (fun _ r' => ∃ provider', r' = { provider := provider' } ∧ Served setting provider provider')
      (fun _ _ => False) False { provider } := by
  unfold allocateCallback
  cases allocation.token with
  | none => exact ⟨provider, rfl, Step.refl h, Used.refl provider⟩
  | some token =>
    have hstep : wp (NativeOast.observed .allocateCallback (allocateCallbackInner setting.sha256
        (reviewCase setting.subject role) token allocation.now allocation.later allocation.exchange))
        (fun _ a => Step setting.sha256 provider a) (fun _ a => Step setting.sha256 provider a) False
        provider :=
      wp_observed .allocateCallback (wp_mono (allocateCallbackInner_spec h _ _ _ _ _)
        (fun _ _ hok => hok) (fun _ _ herr _ _ => herr.1.noted _ _) id)
    have hserv := wp_and hstep
      (observed_used .allocateCallback (allocateCallbackInner_used h _ _ _ _ allocation.exchange))
    refine wp_imp (onProvider_spec (r := { provider }) (P := fun _ a => Served setting provider a)
      (Q := fun a => Served setting provider a) (wp_mono hserv (fun _ _ hboth => ⟨hboth.1, hboth.2⟩)
        (fun _ _ hboth => ⟨hboth.1, hboth.2⟩) And.left)) ?_
    rintro (kind | callback) _ ⟨provider', rfl, hdone⟩
    · exact ⟨provider', rfl, hdone⟩
    · exact ⟨provider', rfl, hdone⟩

/-- A provider of the run with a bound on its receipts. -/
structure Ready (setting : ReviewSetting) (receipts : Nat) (provider : NativeOastProviderAdapter) :
    Prop where
  sound : Sound setting.sha256 provider
  limit : provider.boundary.permit.limits.maxProviderRequests = maxProviderRequests
  receipts : provider.receipts.length ≤ receipts

theorem Ready.served {n : Nat} {provider provider' : NativeOastProviderAdapter}
    (h : Ready setting n provider) (hserv : Served setting provider provider') :
    Ready setting (n + 1) provider' where
  sound := hserv.step.sound
  limit := by rw [hserv.step.same.limits]; exact h.limit
  receipts := hserv.used.receipts.trans (Nat.succ_le_succ h.receipts)

/-- A run that ends while it sets its callbacks up. -/
theorem Ready.terminal {n : Nat} {provider : NativeOastProviderAdapter} (h : Ready setting n provider)
    (kind : NativeOastProviderErrorKind) :
    wp (terminalWithProvider script (outcomeForProviderError kind))
      (fun value r' => Concluded setting (.ok value) r'.facts r'.trace)
      (fun failure r' => Concluded setting (.error failure) r'.facts r'.trace) False { provider } :=
  terminalWithProvider_spec ⟨h.sound, h.limit, rfl, rfl, rfl, nofun, fun _ => ⟨rfl, rfl, rfl⟩⟩
    (.inl ⟨outcomeForProviderError_stopped kind, rfl⟩)

theorem reviewMinted_spec (script : ReviewScript) (h : Ready setting 0 provider) :
    wp (reviewMinted setting script)
      (fun value r' => Concluded setting (.ok value) r'.facts r'.trace)
      (fun failure r' => Concluded setting (.error failure) r'.facts r'.trace) False
      { provider } := by
  unfold reviewMinted
  rw [wp_bind]
  refine wp_mono (onProvider_spec (register_served h.sound script.register)) ?_
    (fun _ _ he => he.elim) id
  rintro (kind | _) _ ⟨registered, rfl, hserv⟩
  · exact (h.served hserv).terminal kind
  obtain ⟨hserv, hadmitted⟩ := hserv
  have hregistered := h.served hserv
  rw [wp_bind]
  refine wp_mono (allocateCallback_spec hregistered.sound .control _) ?_ (fun _ _ he => he.elim) id
  rintro (kind | control) _ ⟨first, rfl, hfirst⟩
  · exact (hregistered.served hfirst).terminal kind
  have hcontrol := hregistered.served hfirst
  simp only [↓wp_bind]
  refine wp_mono (allocateCallback_spec hcontrol.sound .candidate _) ?_ (fun _ _ he => he.elim) id
  rintro (kind | candidate) _ ⟨second, rfl, hsec⟩
  · exact (hcontrol.served hsec).terminal kind
  have hcand := hcontrol.served hsec
  simp only [↓wp_bind]
  refine wp_mono (allocateCallback_spec hcand.sound .replay _) ?_ (fun _ _ he => he.elim) id
  rintro (kind | replay) _ ⟨third, rfl, hthd⟩
  · exact (hcand.served hthd).terminal kind
  have hrepl := hcand.served hthd
  have hreqs : 1 ≤ third.admittedProviderRequests :=
    ((hadmitted.trans hfirst.used.requests).trans hsec.used.requests).trans hthd.used.requests
  cases hplan : planNew setting.policy.policyId setting.validateCallbackTarget control.target
      candidate.target replay.target with
  | error _ =>
    simp only [hplan]
    exact wp_imp (@cleanupThenError_spec _ { provider := third } _ _ .plan
      hrepl.sound (by simp) (by simp) (by simp)) (fun _ _ he => he.elim)
  | ok plan =>
    simp only [hplan]
    exact reviewPlanned_spec hrepl.sound hrepl.limit hreqs hrepl.receipts (planNew_policyId hplan)

theorem mintProvider_ready {provider : ProviderSetting} {limits : NativeOastProviderLimits}
    {adapter : NativeOastProviderAdapter} (hlims : limits.maxProviderRequests = maxProviderRequests)
    (h : mintProvider setting provider limits = .ok adapter) : Ready setting 0 adapter := by
  unfold mintProvider at h
  split at h
  · cases h
  · obtain ⟨hsnd, hsame⟩ := mint_sound h
    exact ⟨hsnd, by rw [hsame]; exact hlims, (mint_receipts h).le⟩

/-- The limits of the provider are within what the provider allows. -/
theorem reviewLimits_new (policy : XmlExternalEntityReviewPolicy) :
    ∃ limits, NativeOastProviderLimits.new 1 3 maxProviderRequests (1 + policy.pollsPerLeg * 3)
      providerRequestBytes providerResponseBytes policy.lifetimeMs = .ok limits ∧
      limits.maxProviderRequests = maxProviderRequests := by
  obtain ⟨-, hpolls⟩ := policy.polls
  obtain ⟨hsh, hlong⟩ := policy.lifetime
  have hchec : LimitsChecked 1 3 maxProviderRequests (1 + policy.pollsPerLeg * 3)
      providerRequestBytes providerResponseBytes policy.lifetimeMs := by
    unfold maxPollsPerLeg at hpolls
    unfold minLifetimeMs at hsh
    unfold maxLifetimeMs at hlong
    refine ⟨rfl, by decide, by decide, ⟨by omega, ?_⟩, by decide, by decide, by omega, ?_⟩
    · unfold hardMaxNativeOastPolls
      omega
    · unfold hardMaxNativeOastProviderWallTimeMs
      omega
  unfold NativeOastProviderLimits.new
  rw [dif_pos hchec]
  exact ⟨_, rfl, rfl⟩

/-- **The audit of a review.** Every run ends, and not because its legs or its
limits were broken. If the events of the control callback come early, no
cancellation follows them and no target receipt is omitted, the run is never
refused its audit: it ends with one, unless the documents, the broker or the
evidence could not be made. The audit of every run that has one passes the
check, and its outcome is the positive one exactly when the review resolved. -/
theorem review_audited (setting : ReviewSetting) (provider : ProviderSetting) (earlierReceipts : Nat)
    (script : ReviewScript) :
    ∃ result record, executeReview setting provider earlierReceipts script = some (result, record) ∧
      (Timely setting.policy record.trace → (∃ value, result = .ok value) ∨
        result = .error .earlierReceipts ∨ result = .error .plan ∨ result = .error .broker ∨
        result = .error .evidence) ∧
      ∀ value, result = .ok value → validateAuditFacts value.audit = .ok () ∧
        (value.audit.outcome = .repeatedExternalEntityResolutionObserved ↔
          Resolved record.facts record.trace) := by
  have hof : ∀ (result : Except ReviewFailure XmlExternalEntityRuntimeResult) (record : Record),
      Concluded setting result record.facts record.trace →
      (Timely setting.policy record.trace → (∃ value, result = .ok value) ∨
        result = .error .earlierReceipts ∨ result = .error .plan ∨ result = .error .broker ∨
        result = .error .evidence) := by
    intro result record h htimely
    obtain ⟨hlims, hdoc⟩ := h.sane
    rcases result with failure | value
    · cases failure with
      | earlierReceipts => exact .inr (.inl rfl)
      | limits => exact absurd rfl hlims
      | plan => exact .inr (.inr (.inl rfl))
      | broker => exact .inr (.inr (.inr (.inl rfl)))
      | document => exact absurd rfl hdoc
      | evidence => exact .inr (.inr (.inr (.inr rfl)))
      | audit error => exact absurd htimely (h.accepted error rfl)
    · exact .inl ⟨value, rfl⟩
  obtain ⟨limits, hlims, hreqs⟩ := reviewLimits_new setting.policy
  unfold executeReview
  rw [hlims]
  split
  · exact ⟨_, _, rfl, fun _ => .inr (.inl rfl), fun value heq => by cases heq⟩
  · cases hmint : mintProvider setting provider limits with
    | error kind =>
      have hhalted : Halted {} 0 :=
        ⟨Nat.zero_le _, rfl, rfl, rfl, fun _ => ⟨rfl, rfl⟩, fun _ => ⟨rfl, rfl, rfl⟩⟩
      have hconc := hhalted.concluded setting
        (.inl ⟨outcomeForProviderError_stopped kind, rfl⟩) []
      exact ⟨_, {}, by simp only [hmint], hof _ {} hconc, hconc.resolved⟩
    | ok adapter =>
      have hspec := reviewMinted_spec script (mintProvider_ready hreqs hmint)
      obtain ⟨hok, herror, htot⟩ := wp_iff_reply.mp hspec
      cases hreply : reply (reviewMinted setting script) { provider := adapter } with
      | none => exact (htot hreply).elim
      | some q =>
        obtain ⟨result, r⟩ := q
        have hconc : Concluded setting result r.facts r.trace := by
          cases result with
          | ok value => exact hok value r hreply
          | error failure => exact herror failure r hreply
        exact ⟨result, r.toRecord, by simp only [hmint, hreply, Option.map_some], hof result r.toRecord hconc, hconc.resolved⟩

end Runs

/-! ### A run whose control event comes late -/

/-- A digest of thirty-two bytes for the sample. -/
def sampleDigest (bytes : Bytes) : Bytes :=
  beBytes 32 (bytes.foldl (fun digest byte => (digest * 257 + byte.toNat + 1) % (2 ^ 255 - 19)) 1)

theorem opaque_threes : Oast.isOpaqueText .callback "AwMDAwMDAwMDAwMDAwMDAw" = true := by decide +kernel

theorem opaque_fours : Oast.isOpaqueText .callback "BAQEBAQEBAQEBAQEBAQEBA" = true := by decide +kernel

def sampleCallback : Role → Oast.CallbackId
  | .control => sampleCallbackId
  | .candidate => ⟨"AwMDAwMDAwMDAwMDAwMDAw", opaque_threes⟩
  | .replay => ⟨"BAQEBAQEBAQEBAQEBAQEBA", opaque_fours⟩

def sampleToken : Role → OastCorrelationToken
  | .control => sampleOpaque 5 (by decide)
  | .candidate => sampleOpaque 6 (by decide)
  | .replay => sampleOpaque 7 (by decide)

/-- A page with one event for each of the callbacks. -/
def samplePage (events : List (Role × Oast.EventId)) : PollScript where
  exchange := sampleExchange
    { sessionId := sampleSessionId, nextCursor := Oast.EventCursor.start, complete := true
      expired := false
      events := events.map fun event => ⟨event.2, sampleCallback event.1, Oast.EventCursor.start, 0⟩ }
  now := 5

/-- A leg whose request is answered and whose polls bring the events. -/
def sampleLeg (events : List (Role × Oast.EventId)) : LegScript where
  exchange := .sent (.ok (sampleUrl "target")) ⟨[⟨4096, 64, 4096⟩], 4096, .ok ()⟩ 0 1 true
  waits _ := { now := 5 }
  polls _ := samplePage events

def samplePolicy (pollsPerLeg : Nat)
    (polls : minPollsPerLeg ≤ pollsPerLeg ∧ pollsPerLeg ≤ maxPollsPerLeg) :
    XmlExternalEntityReviewPolicy where
  policyId := [1]
  endpoint := sampleUrl "target"
  pollsPerLeg := pollsPerLeg
  pollIntervalMs := 250
  lifetimeMs := 5000
  polls := polls
  lifetime := by decide

def sampleSetting : ReviewSetting where
  sha256 := sampleDigest
  policy := samplePolicy 1 (by decide)
  validateCallbackTarget target := some (sampleUrl target)
  subject := ⟨"host", .refl false⟩
  deadline := none
  maxBodyBytes := 65536

def sampleProvider : ProviderSetting where
  parse := sampleParse
  origin := "https://oast/"
  assessmentId := sampleAssessment
  epoch := sampleEpoch
  administrator := replicate 32 97
  targetOrigin := "https://target/"
  broker := .new ⟨64, 4194304, 1048576, 4, by decide, by decide, by decide, by decide⟩
  parentBudget := ⟨64, 4194304, 1048576, 4, by decide, by decide, by decide, by decide⟩
  now := 1
  clockOrigin := 1

/-- A run in which the polls of the legs bring the events. -/
def sampleScript (events : Role → List (Role × Oast.EventId)) : ReviewScript where
  register := sampleExchange ⟨sampleSessionId, ⟨[1]⟩, 4000⟩
  allocate role := ⟨some (sampleToken role), 3, 3, sampleExchange ⟨sampleCallback role, role.asStr⟩⟩
  preflight := samplePage []
  leg role := sampleLeg (events role)
  cleanup := sampleExchange true

def sampleEvent : Oast.EventId :=
  ⟨"AgICAgICAgICAgICAgICAgICAgICAgICAgICAgICAgI", by decide +kernel⟩

/-- The event of the control callback comes in the replay leg. -/
def lateControlScript : ReviewScript :=
  sampleScript fun
    | .replay => [(.control, sampleEvent)]
    | _ => []

/-- The run is complete, and its audit is refused. -/
theorem late_control_refused : ∃ record,
    executeReview sampleSetting sampleProvider 0 lateControlScript =
      some (.error (.audit .invalidOutcome), record) := by
  have heval : (executeReview sampleSetting sampleProvider 0 lateControlScript).map
      (fun q => q.1.map fun _ => ()) = some (.error (.audit .invalidOutcome)) := by
    decide +kernel
  cases hrun : executeReview sampleSetting sampleProvider 0 lateControlScript with
  | none =>
    rw [hrun] at heval
    cases heval
  | some q =>
    obtain ⟨result, record⟩ := q
    rw [hrun, Option.map_some] at heval
    cases result with
    | ok value => cases heval
    | error failure =>
      obtain rfl : failure = .audit .invalidOutcome := Except.error.inj (Option.some.inj heval)
      exact ⟨record, rfl⟩

end Termivar.XmlReview
