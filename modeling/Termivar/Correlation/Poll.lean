/-
# Polls of one registration

What a registration keeps while polls are begun, staged, finished, dropped and
cancelled at arbitrary times: `Registered` relates it to the polls it has begun
and the receipts it has given. The batch of a poll is committed as a whole, and
its receipts do not depend on the order its events were staged in.
-/
import Termivar.Correlation.Authority

namespace Termivar.Correlation

open Command List Option

/-! ### The batch of a poll -/

/-- The keys that were reported as new. -/
def acceptedKeys (receipts : List OastEventReceipt) : List OastEventKey :=
  (receipts.filter fun receipt => receipt.disposition = .accepted).map OastEventReceipt.eventKey

@[simp] theorem acceptedKeys_append (receipts more : List OastEventReceipt) :
    acceptedKeys (receipts ++ more) = acceptedKeys receipts ++ acceptedKeys more := by
  simp [acceptedKeys]

/-- What the loop of `finish` has prepared from the events it has seen. -/
structure Prepared (seen : BTreeMap OastEventKey OastEventProtocol) (done : List StagedEvent)
    (batch : Batch) : Prop where
  observed : batch.receipts.map OastEventReceipt.observedAt = done.map StagedEvent.observedAt
  counted : batch.accepted + batch.duplicate = done.length
  accepted : batch.accepted = batch.protocols.size
  once : (acceptedKeys batch.receipts).Nodup
  listed : ∀ key ∈ acceptedKeys batch.receipts, key ∈ batch.protocols
  known : ∀ receipt ∈ batch.receipts,
    (seen[receipt.eventKey]?.or batch.protocols[receipt.eventKey]?) = some receipt.protocol
  disjoint : ∀ key, key ∈ batch.protocols → key ∉ seen

variable {seen : BTreeMap OastEventKey OastEventProtocol} {done : List StagedEvent}

theorem prepared_nil : Prepared seen [] {} := by
  constructor <;> simp [acceptedKeys]

variable {pan : Prop} {completedAt : Nat} {q : Polling}

theorem wp_addU16 {σ ε : Type} {a b : Nat} {ok : Nat → σ → Prop} {err : ε → σ → Prop} {s : σ}
    (hfits : a + b ≤ u16Max) (h : ok (a + b) s) : wp (addU16 a b) ok err pan s := by
  unfold addU16
  rw [if_pos hfits]
  exact h

theorem wp_addU16_iff {σ ε : Type} {a b : Nat} {ok : Nat → σ → Prop} {err : ε → σ → Prop} {s : σ} :
    wp (addU16 a b) ok err False s ↔ a + b ≤ u16Max ∧ ok (a + b) s := by
  unfold addU16
  split_ifs with hfits
  · simp [hfits]
  · simp [hfits]

theorem not_mem_of_getElem?_eq_none {key : OastEventKey}
    {m : BTreeMap OastEventKey OastEventProtocol} (h : m[key]? = none) : key ∉ m := by
  intro hin
  rw [Std.ExtTreeMap.getElem?_eq_some_getElem hin] at h
  cases h

theorem commitStaged_spec {batch : Batch} (staged : StagedEvent)
    (hlength : done.length < hardMaxEventsPerPoll) (h : Prepared seen done batch) :
    wp (commitStaged seen staged) (fun _ next => Prepared seen (done ++ [staged]) next)
      (fun _ _ => True) False batch := by
  have hcntd := h.counted
  unfold commitStaged
  simp only [↓wp_bind, ↓wp_get]
  cases hkn : seen[staged.event.key]?.or batch.protocols[staged.event.key]? with
  | some existing =>
    simp only [↓wp_ite, ↓wp_throw, ↓wp_bind]
    refine ⟨fun _ => trivial, fun hsame => wp_addU16 ?_ ?_⟩
    · simp only [hardMaxEventsPerPoll, u16Max] at hlength ⊢
      omega
    · rw [wp_set]
      refine ⟨?_, ?_, h.accepted, ?_, ?_, ?_, h.disjoint⟩
      · simp [h.observed]
      · simp only [length_append, length_singleton]
        omega
      · simpa [acceptedKeys] using h.once
      · simpa [acceptedKeys] using h.listed
      · intro receipt hin
        rcases mem_append.mp hin with hin | hin
        · exact h.known receipt hin
        · rw [mem_singleton.mp hin]
          exact hkn.trans (congrArg some (not_not.mp hsame))
  | none =>
    obtain ⟨hnew, hfsh⟩ := or_eq_none_iff.mp hkn
    have hfsh' := not_mem_of_getElem?_eq_none hfsh
    rw [wp_bind]
    refine wp_addU16 ?_ ?_
    · simp only [hardMaxEventsPerPoll, u16Max] at hlength ⊢
      omega
    · rw [wp_set]
      refine ⟨?_, ?_, ?_, ?_, ?_, ?_, ?_⟩
      · simp [h.observed]
      · simp only [length_append, length_singleton]
        omega
      · rw [size_insert_new _ hfsh, h.accepted]
      · have hlisted : staged.event.key ∉ acceptedKeys batch.receipts := fun hin =>
          hfsh' (h.listed _ hin)
        rw [acceptedKeys_append, nodup_append]
        refine ⟨h.once, by simp [acceptedKeys], fun key hkey other hoth heq => ?_⟩
        have hoth : other = staged.event.key := by simpa [acceptedKeys] using hoth
        exact hlisted (hoth ▸ heq ▸ hkey)
      · intro key hkey
        rw [acceptedKeys_append] at hkey
        rcases mem_append.mp hkey with hkey | hkey
        · exact Std.ExtTreeMap.mem_insert.mpr (.inr (h.listed key hkey))
        · have hkey : key = staged.event.key := by simpa [acceptedKeys] using hkey
          rw [hkey]
          exact Std.ExtTreeMap.mem_insert_self
      · intro receipt hin
        rcases mem_append.mp hin with hin | hin
        · have hold := h.known receipt hin
          by_cases hsame : receipt.eventKey = staged.event.key
          · rw [hsame, hnew, hfsh] at hold
            cases hold
          · rw [get_insert_ne _ (Ne.symm hsame)]
            exact hold
        · rw [mem_singleton.mp hin]
          simp only
          rw [hnew, get_insert_self]
          rfl
      · intro key hkey
        rcases Std.ExtTreeMap.mem_insert.mp hkey with hsame | hold
        · rw [← Std.LawfulEqOrd.eq_of_compare hsame]
          exact not_mem_of_getElem?_eq_none hnew
        · exact h.disjoint key hold

/-- The loop prepares every event it goes over, or fails and leaves nothing. -/
theorem commitAll_spec : ∀ {rest done : List StagedEvent} {batch : Batch},
    done.length + rest.length ≤ hardMaxEventsPerPoll → Prepared seen done batch →
    wp (commitAll seen rest) (fun _ next => Prepared seen (done ++ rest) next) (fun _ _ => True) False
      batch
  | [], done, batch, _, h => by
    rw [append_nil]
    exact h
  | staged :: rest, done, batch, hlength, h => by
    rw [length_cons] at hlength
    unfold commitAll
    rw [wp_bind]
    refine wp_imp (commitStaged_spec staged (by omega) h) fun _ next hnext => ?_
    have hbd : (done ++ [staged]).length + rest.length ≤ hardMaxEventsPerPoll := by
      rw [length_append, length_singleton]
      omega
    have hrest := commitAll_spec hbd hnext
    rwa [append_assoc, singleton_append] at hrest

/-! ### What a registration keeps -/

/-- The event receipts of the polls, in order. -/
def reports (receipts : List OastPollReceipt) : List OastEventReceipt :=
  receipts.flatMap OastPollReceipt.eventReceipts

@[simp] theorem reports_append (receipts more : List OastPollReceipt) :
    reports (receipts ++ more) = reports receipts ++ reports more :=
  flatMap_append

@[simp] theorem reports_singleton (receipt : OastPollReceipt) :
    reports [receipt] = receipt.eventReceipts := by
  simp [reports]

/-- A poll that is open: it is the last one begun, and what it has staged was
observed since then and before the expiry. -/
structure PermitOpen (began : List (Nat × Nat)) (c : OastCorrelation) (p : OastPollPermit) : Prop where
  uncommitted : p.committed = false
  staged : p.stagedEvents.length ≤ c.maxEventsPerPoll
  timely : ∃ now, (p.pollOrdinal, now) ∈ began ∧ now ≤ c.lastTime ∧
    ∀ staged ∈ p.stagedEvents, now ≤ staged.observedAt ∧ staged.observedAt < c.expiresAt

/-- A registration after the polls it has begun (with their ordinals and
times) and the receipts it has given. -/
structure Registered (began : List (Nat × Nat)) (receipts : List OastPollReceipt)
    (c : OastCorrelation) (permit : Option OastPollPermit) : Prop where
  ordinals : began.map Prod.fst = range' 1 began.length
  next : c.nextPollOrdinal = began.length + 1
  budget : c.remainingPolls + began.length = c.pollLimit
  polls : c.pollLimit ≤ hardMaxPolls
  perPoll : c.maxEventsPerPoll ≤ hardMaxEventsPerPoll
  unique : c.maxUniqueEvents ≤ hardMaxUniqueEvents
  spent : receipts.length + c.abandonedPolls + permit.toList.length = began.length
  accepted : c.acceptedEvents = c.seenEvents.size
  bounded : c.seenEvents.size ≤ c.maxUniqueEvents
  counted : c.acceptedEvents + c.duplicateEvents ≤ hardMaxEventsPerPoll * receipts.length
  once : (acceptedKeys (reports receipts)).Nodup
  known : ∀ receipt ∈ reports receipts, c.seenEvents[receipt.eventKey]? = some receipt.protocol
  timely : ∀ receipt ∈ receipts, ∃ now, (receipt.pollOrdinal, now) ∈ began ∧
    ∀ event ∈ receipt.eventReceipts, now ≤ event.observedAt ∧ event.observedAt < c.expiresAt
  live : ∀ p, permit = some p → PermitOpen began c p

/-- What no call changes, and what a terminal registration keeps. -/
structure Kept (c c' : OastCorrelation) : Prop where
  bindingId : c'.bindingId = c.bindingId
  correlationId : c'.correlationId = c.correlationId
  expiresAt : c'.expiresAt = c.expiresAt
  terminal : c.state ≠ .active → c' = { c with abandonedPolls := c'.abandonedPolls }

theorem Kept.refl (c : OastCorrelation) : Kept c c := ⟨rfl, rfl, rfl, fun _ => rfl⟩

variable {began : List (Nat × Nat)} {receipts : List OastPollReceipt} {c : OastCorrelation}
  {permit : Option OastPollPermit}

/-- The expiry of a registration touches nothing that is counted. -/
theorem Registered.ended (h : Registered began receipts c permit) (state : OastCorrelationState)
    (terminalAt : Option Nat) :
    Registered began receipts { c with state, terminalAt } permit :=
  { h with live := fun p hp =>
      ⟨(h.live p hp).uncommitted, (h.live p hp).staged, (h.live p hp).timely⟩ }

/-- What `ensure_active_at` makes of a registration it refuses. -/
def OastCorrelation.refusedAt (c : OastCorrelation) (now : Nat) : OastCorrelation :=
  if c.state = .active ∧ c.lastTime ≤ now ∧ c.expiresAt ≤ now then
    { c with state := .expired, terminalAt := some c.expiresAt }
  else c

theorem wp_ensureActiveAt {ok : Unit → OastCorrelation → Prop} {err : OastError → OastCorrelation → Prop}
    {now : Nat}
    (hok : c.state = .active → c.lastTime ≤ now → now < c.expiresAt → ok () c)
    (herr : ∀ e, ¬(c.state = .active ∧ c.lastTime ≤ now ∧ now < c.expiresAt) →
      err e (c.refusedAt now)) :
    wp (ensureActiveAt now) ok err pan c := by
  unfold ensureActiveAt
  simp only [↓wp_rules]
  cases hst : c.state with
  | cancelled =>
    have := herr .cancelled (by simp [hst])
    simpa [OastCorrelation.refusedAt, hst] using this
  | expired =>
    have := herr (.expired c.expiresAt) (by simp [hst])
    simpa [OastCorrelation.refusedAt, hst] using this
  | active =>
    simp only [↓wp_rules]
    refine ⟨fun hearly => ?_, fun hlat => ⟨fun hlate => ?_, fun hbef => ?_⟩⟩
    · have := herr (.clockRegressed c.lastTime now) (by omega)
      rwa [OastCorrelation.refusedAt, if_neg (by omega)] at this
    · have := herr (.expired c.expiresAt) (by omega)
      rwa [OastCorrelation.refusedAt, if_pos ⟨hst, by omega, hlate⟩] at this
    · exact hok hst (by omega) (by omega)

theorem Registered.refusedAt (h : Registered began receipts c permit) (now : Nat) :
    Registered began receipts (c.refusedAt now) permit := by
  unfold OastCorrelation.refusedAt
  split_ifs
  · exact h.ended _ _
  · exact h

theorem kept_refusedAt (c : OastCorrelation) (now : Nat) : Kept c (c.refusedAt now) := by
  unfold OastCorrelation.refusedAt
  split_ifs with hexpired
  · exact ⟨rfl, rfl, rfl, fun hst => absurd hexpired.1 hst⟩
  · exact Kept.refl c

theorem wp_ensureBinding {ok : Unit → OastCorrelation → Prop} {err : OastError → OastCorrelation → Prop}
    {assessmentId : OastAssessmentId} {verificationCase : VerificationCase}
    (hok : ok () c) (herr : err .bindingMismatch c) :
    wp (ensureBinding assessmentId verificationCase) ok err pan c := by
  unfold ensureBinding
  simp only [↓wp_rules]
  exact ⟨fun _ => herr, fun _ => hok⟩

/-! ### Calls on a free registration -/

theorem cancel_spec (h : Registered began receipts c none) (assessmentId : OastAssessmentId)
    (verificationCase : VerificationCase) (now : Nat) :
    wp (cancel assessmentId verificationCase now)
      (fun _ c' => Registered began receipts c' none ∧ Kept c c')
      (fun _ c' => Registered began receipts c' none ∧ Kept c c') False c := by
  unfold cancel
  simp only [↓wp_bind]
  refine wp_ensureBinding ?_ ⟨h, Kept.refl c⟩
  refine wp_ensureActiveAt (fun hact _ _ => ?_) (fun _ _ => ⟨h.refusedAt now, kept_refusedAt c now⟩)
  simp only [↓wp_rules]
  refine ⟨?_, rfl, rfl, rfl, fun hst => absurd hact hst⟩
  exact { h with live := by simp }

theorem beginPoll_spec (h : Registered began receipts c none) (assessmentId : OastAssessmentId)
    (verificationCase : VerificationCase) (now : Nat) :
    wp (beginPoll assessmentId verificationCase now)
      (fun p c' => Registered (began ++ [(p.pollOrdinal, now)]) receipts c' (some p) ∧ Kept c c')
      (fun _ c' => Registered began receipts c' none ∧ Kept c c') False c := by
  have hnext := h.next
  have hbud := h.budget
  have hpolls := h.polls
  unfold beginPoll
  simp only [↓wp_bind]
  refine wp_ensureBinding ?_ ⟨h, Kept.refl c⟩
  refine wp_ensureActiveAt (fun hact _ _ => ?_) (fun _ _ => ⟨h.refusedAt now, kept_refusedAt c now⟩)
  simp only [↓wp_get, ↓wp_ite, ↓wp_throw, ↓wp_pure, ↓wp_bind]
  refine ⟨fun _ => ⟨h, Kept.refl c⟩, fun hleft => wp_addU16 ?_ ?_⟩
  · simp only [hardMaxPolls, u16Max] at hpolls ⊢
    omega
  · simp only [↓wp_set]
    refine ⟨{ h with ordinals := ?_, next := ?_, budget := ?_, spent := ?_, timely := ?_, live := ?_ }, rfl, rfl, rfl, fun hst => absurd hact hst⟩
    · rw [map_append, h.ordinals, length_append, length_singleton, range'_concat, hnext]
      simp [Nat.add_comm]
    · simp [hnext]
    · simp only [length_append, length_singleton]
      omega
    · have hspent := h.spent
      simp only [length_append, length_singleton, toList_some, toList_none,
        length_nil] at hspent ⊢
      omega
    · intro receipt hin
      obtain ⟨began', hbegan, htimes⟩ := h.timely receipt hin
      exact ⟨began', mem_append_left _ hbegan, htimes⟩
    · intro p hp
      cases hp
      exact ⟨rfl, Nat.zero_le _, now, by simp, le_rfl, (by simp)⟩

/-! ### Calls on a permit -/

variable {p : OastPollPermit}

/-- A latched failure leaves the rest of the permit and the registration. -/
theorem Registered.latched (h : Registered began receipts c (some p)) (failure : Option OastError) :
    Registered began receipts c (some { p with failure }) :=
  { h with
    live := fun q hq => by
      cases hq
      exact ⟨(h.live p rfl).uncommitted, (h.live p rfl).staged, (h.live p rfl).timely⟩ }

theorem Registered.staged (h : Registered began receipts c (some p)) {staged : StagedEvent}
    (hroom : p.stagedEvents.length < c.maxEventsPerPoll) (hlat : c.lastTime ≤ staged.observedAt)
    (hbef : staged.observedAt < c.expiresAt) (latestObservedTime : Nat) :
    Registered began receipts c (some { p with
      latestObservedTime, stagedEvents := p.stagedEvents ++ [staged] }) := by
  refine { h with live := fun q hq => ?_ }
  cases hq
  obtain ⟨hopen, -, now, hbegan, hnow, htimes⟩ := h.live p rfl
  refine ⟨hopen, ?_, now, hbegan, hnow, fun event hin => ?_⟩
  · simp only [length_append, length_singleton]
    omega
  · rcases mem_append.mp hin with hin | hin
    · exact htimes event hin
    · rw [mem_singleton.mp hin]
      exact ⟨hnow.trans hlat, hbef⟩

theorem wp_reject {α : Type} {ok : α → Polling → Prop} {err : OastError → Polling → Prop}
    {error : OastError} :
    wp (reject error) ok err pan q ↔
      err error { q with permit := { q.permit with failure := some error } } := Iff.rfl

theorem stageEvent_spec (h : Registered began receipts c (some p)) (correlationId : OastCorrelationId)
    (event : OastEvent) (observedAt : Nat) :
    wp (stageEvent correlationId event observedAt)
      (fun _ q => Registered began receipts q.correlation (some q.permit) ∧ Kept c q.correlation)
      (fun _ q => Registered began receipts q.correlation (some q.permit) ∧ Kept c q.correlation)
      False ⟨c, p⟩ := by
  have hrej : ∀ error : OastError, Registered began receipts c
      (some { p with failure := some error }) ∧ Kept c c :=
    fun error => ⟨h.latched _, Kept.refl c⟩
  unfold stageEvent
  simp only [↓wp_rules]
  cases hfail : p.failure with
  | some error => exact ⟨h, Kept.refl c⟩
  | none =>
    simp only [↓wp_rules, ↓wp_reject, ↓wp_tryCatch, onCorrelation, ↓wp_zoom]
    refine ⟨fun _ => hrej _, fun _ => ⟨fun _ => hrej _, fun _ => ⟨fun _ => hrej _,
      fun hroom => ?_⟩⟩⟩
    refine wp_ensureActiveAt (fun _ hlat hbef => ?_) (fun error _ => ?_)
    · exact ⟨h.staged (by simpa using hroom) hlat hbef _, Kept.refl c⟩
    · exact ⟨(h.refusedAt observedAt).latched _, kept_refusedAt c observedAt⟩

/-- The sorted events are the staged ones. -/
theorem perm_sortStaged (staged : List StagedEvent) : (sortStaged staged).Perm staged :=
  perm_insertionSort _ _

/-- The batch only adds keys. -/
theorem Prepared.getElem?_union {batch : Batch} (h : Prepared seen done batch) (key : OastEventKey) :
    (seen ∪ batch.protocols)[key]? = seen[key]?.or batch.protocols[key]? := by
  rw [Std.ExtTreeMap.getElem?_union]
  by_cases hnew : key ∈ batch.protocols
  · have hnone : seen[key]? = none := Std.ExtTreeMap.getElem?_eq_none (h.disjoint key hnew)
    rw [hnone, or_none, none_or]
  · rw [Std.ExtTreeMap.getElem?_eq_none hnew, or_none, none_or]

/-- A batch joins the registration as a whole. -/
theorem Registered.committed (h : Registered began receipts c (some p)) {batch : Batch}
    (hprep : Prepared c.seenEvents (sortStaged p.stagedEvents) batch)
    (hroom : c.seenEvents.size + batch.protocols.size ≤ c.maxUniqueEvents)
    {receipt : OastPollReceipt} (hord : receipt.pollOrdinal = p.pollOrdinal)
    (hevs : receipt.eventReceipts = batch.receipts) (lastTime : Nat) :
    Registered began (receipts ++ [receipt])
      { c with
        seenEvents := c.seenEvents ∪ batch.protocols
        acceptedEvents := c.acceptedEvents + batch.accepted
        duplicateEvents := c.duplicateEvents + batch.duplicate
        lastTime } none := by
  obtain ⟨-, hstaged, now, hbegan, -, htimes⟩ := h.live p rfl
  have hperP := h.perPoll
  have hcntd := hprep.counted
  have hsize : (c.seenEvents ∪ batch.protocols).size = c.seenEvents.size + batch.protocols.size :=
    Std.ExtTreeMap.size_union_of_not_mem fun key hin hnew => hprep.disjoint key hnew hin
  refine ⟨h.ordinals, h.next, h.budget, h.polls, h.perPoll, h.unique, ?_, ?_, ?_, ?_, ?_, ?_, ?_, nofun⟩
  · have hspent := h.spent
    simp only [length_append, length_singleton, toList_some, toList_none,
      length_nil] at hspent ⊢
    omega
  · rw [hsize, h.accepted, hprep.accepted]
  · rw [hsize]
    exact hroom
  · have hold := h.counted
    rw [(perm_sortStaged _).length_eq] at hcntd
    simp only [length_append, length_singleton, Nat.mul_add]
    omega
  · rw [reports_append, reports_singleton, acceptedKeys_append, hevs, nodup_append]
    refine ⟨h.once, hprep.once, fun key hold other hnew heq => ?_⟩
    obtain ⟨old, hin, hkey⟩ := mem_map.mp hold
    have hseen := h.known old (mem_of_mem_filter hin)
    have hfsh := hprep.disjoint other (hprep.listed other hnew)
    refine hfsh ?_
    rw [← heq, ← hkey]
    exact Std.ExtTreeMap.mem_iff_isSome_getElem?.mpr (by rw [hseen]; rfl)
  · intro event hin
    rw [reports_append, reports_singleton, hevs] at hin
    rw [hprep.getElem?_union]
    rcases mem_append.mp hin with hold | hnew
    · rw [h.known event hold, some_or]
    · exact hprep.known event hnew
  · intro old hin
    rcases mem_append.mp hin with hin | hin
    · exact h.timely old hin
    · rw [mem_singleton.mp hin]
      refine ⟨now, hord ▸ hbegan, fun event hev => ?_⟩
      rw [hevs] at hev
      have hobs : event.observedAt ∈ p.stagedEvents.map StagedEvent.observedAt := by
        rw [← ((perm_sortStaged p.stagedEvents).map _).mem_iff, ← hprep.observed]
        exact mem_map_of_mem hev
      obtain ⟨staged, hstaged, heq⟩ := mem_map.mp hobs
      rw [← heq]
      exact htimes staged hstaged

theorem ensureCompletionTime_spec {ok : Unit → Polling → Prop} {err : OastError → Polling → Prop}
    (hok : c.state = .active → c.lastTime ≤ completedAt → completedAt < c.expiresAt →
      p.latestObservedTime ≤ completedAt → ok () ⟨c, p⟩)
    (herr : ∀ e, ¬(c.state = .active ∧ c.lastTime ≤ completedAt ∧ completedAt < c.expiresAt ∧
      p.latestObservedTime ≤ completedAt) → err e ⟨c.refusedAt completedAt, p⟩) :
    wp (ensureCompletionTime completedAt) ok err pan ⟨c, p⟩ := by
  unfold ensureCompletionTime
  simp only [↓wp_bind, onCorrelation, ↓wp_zoom]
  refine wp_ensureActiveAt (fun hact hlat hbef => ?_) (fun e hnot => herr e (by tauto))
  simp only [↓wp_rules]
  refine ⟨fun hearly => ?_, fun hlate => hok hact hlat hbef (by omega)⟩
  have hrefused : c.refusedAt completedAt = c := by
    rw [OastCorrelation.refusedAt, if_neg (by omega)]
  have := herr (.clockRegressed p.latestObservedTime completedAt) (by omega)
  rwa [hrefused] at this

/-- The counters of a registration never overflow. -/
theorem Registered.counters (h : Registered began receipts c (some p)) {batch : Batch}
    (hprep : Prepared c.seenEvents (sortStaged p.stagedEvents) batch) :
    c.acceptedEvents + batch.accepted ≤ u16Max ∧ c.duplicateEvents + batch.duplicate ≤ u16Max := by
  have hstaged := (h.live p rfl).staged
  have hperP := h.perPoll
  have hcntd := hprep.counted
  have hold := h.counted
  have hspent := h.spent
  have hbud := h.budget
  have hpolls := h.polls
  rw [(perm_sortStaged _).length_eq] at hcntd
  simp only [hardMaxEventsPerPoll, hardMaxPolls, u16Max] at *
  omega

/-- What a poll that is not committed leaves of a registration. -/
structure Unchanged (c c' : OastCorrelation) : Prop where
  seenEvents : c'.seenEvents = c.seenEvents
  acceptedEvents : c'.acceptedEvents = c.acceptedEvents
  duplicateEvents : c'.duplicateEvents = c.duplicateEvents

theorem unchanged_refusedAt (c : OastCorrelation) (now : Nat) : Unchanged c (c.refusedAt now) := by
  unfold OastCorrelation.refusedAt
  split_ifs <;> exact ⟨rfl, rfl, rfl⟩

/-- **A poll is committed as a whole or not at all.** -/
theorem finish_spec (h : Registered began receipts c (some p)) (completedAt : Nat) :
    wp (finish completedAt)
      (fun receipt q => Registered began (receipts ++ [receipt]) q.correlation none ∧
        Kept c q.correlation ∧ q.permit.committed = true)
      (fun _ q => Registered began receipts q.correlation (some q.permit) ∧ Kept c q.correlation ∧
        q.permit.committed = false ∧ Unchanged c q.correlation) False ⟨c, p⟩ := by
  have hopen := (h.live p rfl).uncommitted
  have hfailed : Registered began receipts c (some p) ∧ Kept c c ∧ p.committed = false ∧
      Unchanged c c := ⟨h, Kept.refl c, hopen, rfl, rfl, rfl⟩
  unfold finish
  rw [wp_bind]
  refine ensureCompletionTime_spec (fun hact _ _ _ => ?_) (fun _ _ => ⟨h.refusedAt completedAt,
    kept_refusedAt c completedAt, hopen, unchanged_refusedAt c completedAt⟩)
  simp only [↓wp_rules]
  cases hfail : p.failure with
  | some error => exact hfailed
  | none =>
    simp only [↓wp_rules, ↓wp_locally]
    have hlength : ([] : List StagedEvent).length + (sortStaged p.stagedEvents).length ≤
        hardMaxEventsPerPoll := by
      rw [(perm_sortStaged _).length_eq, length_nil, Nat.zero_add]
      exact (h.live p rfl).staged.trans h.perPoll
    refine wp_mono (commitAll_spec hlength prepared_nil) (fun _ batch hprep => ?_)
      (fun _ _ _ => hfailed) id
    rw [nil_append] at hprep
    obtain ⟨hacc, hdupl⟩ := h.counters hprep
    refine ⟨fun _ => hfailed, fun hroom => wp_addU16 hacc (wp_addU16 hdupl ?_)⟩
    refine ⟨h.committed hprep (by omega) rfl rfl completedAt, ⟨rfl, rfl, rfl, ?_⟩, trivial⟩
    exact fun hst => absurd hact hst

/-- A poll that was not committed is abandoned. -/
theorem dropPermit_spec (h : Registered began receipts c (some p)) (hopen : p.committed = false) :
    wp dropPermit (fun _ q => Registered began receipts q.correlation none ∧ Kept c q.correlation ∧
      Unchanged c q.correlation) (fun _ _ => False) False ⟨c, p⟩ := by
  have hspent := h.spent
  have hbud := h.budget
  have hpolls := h.polls
  unfold dropPermit
  simp only [↓wp_bind, ↓wp_get, ↓wp_ite, ↓wp_pure]
  refine ⟨fun _ => wp_addU16 ?_ ?_, fun hno => by simp [hopen] at hno⟩
  · simp only [hardMaxPolls, u16Max] at hpolls ⊢
    omega
  · rw [wp_set]
    refine ⟨{ h with spent := ?_, live := by simp }, ⟨rfl, rfl, rfl, fun _ => rfl⟩, rfl, rfl, rfl⟩
    simp only [toList_some, toList_none, length_nil, length_singleton]
      at hspent ⊢
    omega

/-! ### The order of staging -/

/-- What the receipts show of a staged event. -/
def StagedEvent.shown (staged : StagedEvent) : OastEventKey × OastEventProtocol × Nat :=
  (staged.event.key, staged.event.protocol, staged.observedAt)

/-- The order of the staged events, of what is shown. -/
def shownCompare (left right : OastEventKey × OastEventProtocol × Nat) : Ordering :=
  (compare left.1 right.1).then
    ((compare left.2.1.rank right.2.1.rank).then (compare left.2.2 right.2.2))

theorem stagedCompare_eq (left right : StagedEvent) :
    stagedCompare left right = shownCompare left.shown right.shown := rfl

instance : Std.TransCmp shownCompare :=
  inferInstanceAs (Std.TransCmp (compareLex
    (compareOn fun e : OastEventKey × OastEventProtocol × Nat => e.1)
    (compareLex (compareOn fun e : OastEventKey × OastEventProtocol × Nat => e.2.1.rank)
      (compareOn fun e : OastEventKey × OastEventProtocol × Nat => e.2.2))))

/-- What compares equal is equal. -/
theorem eq_of_shownCompare {left right : OastEventKey × OastEventProtocol × Nat}
    (h : shownCompare left right = .eq) : left = right := by
  unfold shownCompare at h
  obtain ⟨hkey, hrest⟩ := Ordering.then_eq_eq.mp h
  obtain ⟨hprot, htime⟩ := Ordering.then_eq_eq.mp hrest
  have hprot := OastEventProtocol.rank_injective (Std.LawfulEqOrd.eq_of_compare hprot)
  exact Prod.ext (Std.LawfulEqOrd.eq_of_compare hkey)
    (Prod.ext hprot (Std.LawfulEqOrd.eq_of_compare htime))

instance : IsTrans StagedEvent StagedEvent.le where
  trans a b c hab hbc := by
    unfold StagedEvent.le at hab hbc ⊢
    rw [stagedCompare_eq] at hab hbc ⊢
    exact Std.TransCmp.isLE_trans hab hbc

instance : Std.Total StagedEvent.le where
  total a b := by
    have hswap : shownCompare a.shown b.shown = (shownCompare b.shown a.shown).swap :=
      Std.OrientedCmp.eq_swap
    unfold StagedEvent.le
    rw [stagedCompare_eq, stagedCompare_eq, hswap]
    cases shownCompare b.shown a.shown <;> simp

/-- The events of a poll sort to one list of what the receipts show. -/
theorem shown_sortStaged {staged staged' : List StagedEvent} (h : staged.Perm staged') :
    (sortStaged staged).map StagedEvent.shown = (sortStaged staged').map StagedEvent.shown := by
  have hsort : ∀ events, ((sortStaged events).map StagedEvent.shown).Pairwise
      fun left right => (shownCompare left right).isLE = true := fun events =>
    pairwise_map.mpr (pairwise_insertionSort StagedEvent.le events)
  refine List.Perm.eq_of_pairwise (fun left right _ _ hle hge => ?_) (hsort staged)
    (hsort staged') ?_
  · exact eq_of_shownCompare (Std.OrientedCmp.isLE_antisymm hle hge)
  · exact (((perm_sortStaged staged).trans h).trans (perm_sortStaged staged').symm).map _

/-- The loop reads no more of an event than its receipt shows. -/
theorem commitAll_congr : ∀ {events events' : List StagedEvent},
    events.map StagedEvent.shown = events'.map StagedEvent.shown →
    commitAll seen events = commitAll seen events'
  | [], [], _ => rfl
  | event :: events, event' :: events', h => by
    rw [map_cons, map_cons, cons.injEq] at h
    obtain ⟨hshown, hrest⟩ := h
    obtain ⟨hkey, hprot, htime⟩ :
        event.event.key = event'.event.key ∧ event.event.protocol = event'.event.protocol ∧
          event.observedAt = event'.observedAt := by
      simpa [StagedEvent.shown] using hshown
    have hfirst : commitStaged seen event = commitStaged seen event' := by
      unfold commitStaged
      rw [hkey, hprot, htime]
    rw [commitAll, commitAll, hfirst, commitAll_congr hrest]

/-- A permit with the same events staged in another order commits alike. -/
theorem finish_congr {p p' : OastPollPermit} (hord : p'.pollOrdinal = p.pollOrdinal)
    (hlatest : p'.latestObservedTime = p.latestObservedTime) (hfail : p'.failure = p.failure)
    (hstaged : p.stagedEvents.Perm p'.stagedEvents) {receipt : OastPollReceipt}
    (h : finish completedAt ⟨c, p⟩ = .ok receipt q) :
    wp (finish completedAt) (fun receipt' q' => receipt' = receipt ∧ q'.correlation = q.correlation)
      (fun _ _ => False) False ⟨c, p'⟩ := by
  have hloop : commitAll c.seenEvents (sortStaged p'.stagedEvents) =
      commitAll c.seenEvents (sortStaged p.stagedEvents) :=
    commitAll_congr (shown_sortStaged hstaged).symm
  have hwp : wp (finish completedAt) (fun receipt' q' => receipt' = receipt ∧ q' = q)
      (fun _ _ => False) False ⟨c, p⟩ := eq_ok_iff_wp.mp h
  unfold finish at hwp ⊢
  rw [wp_bind] at hwp ⊢
  by_cases htime : c.state = .active ∧ c.lastTime ≤ completedAt ∧ completedAt < c.expiresAt ∧
      p.latestObservedTime ≤ completedAt
  · have hrdy : ensureCompletionTime completedAt ⟨c, p⟩ = .ok () ⟨c, p⟩ :=
      eq_ok_iff_wp.mpr (ensureCompletionTime_spec (fun _ _ _ _ => ⟨rfl, rfl⟩)
        fun _ hnot => hnot htime)
    have hrdy' : ensureCompletionTime completedAt ⟨c, p'⟩ = .ok () ⟨c, p'⟩ :=
      eq_ok_iff_wp.mpr (ensureCompletionTime_spec (fun _ _ _ _ => ⟨rfl, rfl⟩)
        fun _ hnot => hnot (hlatest ▸ htime))
    rw [wp_of_eq_ok hrdy] at hwp
    rw [wp_of_eq_ok hrdy']
    simp only [↓wp_rules, hfail] at hwp ⊢
    cases hlatc : p.failure with
    | some error =>
      rw [hlatc] at hwp
      exact hwp
    | none =>
      simp only [hlatc, ↓wp_rules, ↓wp_locally, hloop, ↓wp_addU16_iff] at hwp ⊢
      unfold wp at hwp ⊢
      cases hbatch : commitAll c.seenEvents (sortStaged p.stagedEvents) {} with
      | error e batch =>
        rw [hbatch] at hwp
        exact hwp
      | panic =>
        rw [hbatch] at hwp
        exact hwp
      | ok u batch =>
        rw [hbatch] at hwp
        simp only at hwp ⊢
        refine ⟨hwp.1, fun hroom => ?_⟩
        obtain ⟨hacc, hdupl, hrcpt, hq⟩ := hwp.2 hroom
        refine ⟨hacc, hdupl, ?_, ?_⟩
        · rw [← hrcpt, hord]
        · rw [← hq]
  · have hrefused : wp (ensureCompletionTime completedAt) (fun _ _ => False) (fun _ _ => True) False
        ⟨c, p⟩ := ensureCompletionTime_spec (fun h1 h2 h3 h4 => htime ⟨h1, h2, h3, h4⟩)
      fun _ _ => trivial
    have hboth := wp_and hwp hrefused
    unfold wp at hboth
    cases hres : ensureCompletionTime completedAt ⟨c, p⟩ <;> rw [hres] at hboth
    · exact hboth.2.elim
    · exact hboth.1.elim
    · exact hboth.1.elim

/-- A call of `stage_event`. -/
structure Staging where
  correlationId : OastCorrelationId
  event : OastEvent
  observedAt : Nat

/-- The calls of `stage_event` for a poll, whatever they return. -/
def stageAll : List Staging → PollCommand Unit
  | [] => pure ()
  | staging :: rest => do
    tryCatch (stageEvent staging.correlationId staging.event staging.observedAt) (fun _ => pure ())
    stageAll rest

/-- The checks on one event. -/
def OastCorrelation.Admits (c : OastCorrelation) (staging : Staging) : Prop :=
  staging.correlationId = c.correlationId ∧
    c.allowedProtocols.allows staging.event.protocol = true ∧
    c.lastTime ≤ staging.observedAt ∧ staging.observedAt < c.expiresAt

/-- The permit with one more event. -/
def OastPollPermit.stage (p : OastPollPermit) (staging : Staging) : OastPollPermit :=
  { p with
    latestObservedTime := max p.latestObservedTime staging.observedAt
    stagedEvents := p.stagedEvents ++ [{ event := staging.event, observedAt := staging.observedAt }] }

/-- A poll that cannot be committed any more. -/
def Polling.Spoiled (q : Polling) : Prop := q.permit.failure ≠ none ∨ q.correlation.state ≠ .active

/-- An event is staged when it passes the checks and there is room. Anything
else spoils the poll. -/
theorem stageEvent_outcome (staging : Staging) :
    wp (stageEvent staging.correlationId staging.event staging.observedAt)
      (fun _ q => ¬Polling.Spoiled ⟨c, p⟩ ∧ c.Admits staging ∧
        p.stagedEvents.length < c.maxEventsPerPoll ∧ q = ⟨c, p.stage staging⟩)
      (fun _ q => q.Spoiled ∧ (Polling.Spoiled ⟨c, p⟩ ∨ ¬(c.Admits staging ∧
        p.stagedEvents.length < c.maxEventsPerPoll))) False ⟨c, p⟩ := by
  unfold stageEvent
  simp only [↓wp_rules]
  cases hfail : p.failure with
  | some error =>
    have hspoiled : Polling.Spoiled ⟨c, p⟩ := .inl (by simp [hfail])
    exact ⟨hspoiled, .inl hspoiled⟩
  | none =>
    simp only [↓wp_rules, ↓wp_reject, ↓wp_tryCatch, onCorrelation, ↓wp_zoom]
    refine ⟨fun hoth => ⟨.inl (by simp), .inr fun hok => hoth hok.1.1⟩, fun hsame =>
      ⟨fun hprot => ⟨.inl (by simp), .inr fun hok => ?_⟩, fun hprot =>
        ⟨fun hfull => ⟨.inl (by simp), .inr fun hok => by omega⟩, fun hroom => ?_⟩⟩⟩
    · simp [hok.1.2.1] at hprot
    · refine wp_ensureActiveAt (fun hact hlat hbef => ?_) (fun _ hrefused => ⟨.inl (by simp), ?_⟩)
      · refine ⟨?_, ⟨not_not.mp hsame, by simpa using hprot, hlat, hbef⟩, by omega, rfl⟩
        rintro (hlatc | hst)
        · exact hlatc hfail
        · exact hst hact
      · by_cases hact : c.state = .active
        · exact .inr fun hok => hrefused ⟨hact, hok.1.2.2⟩
        · exact .inl (.inr hact)

theorem stageAll_spoiled : ∀ (stagings : List Staging) {q : Polling}, q.Spoiled →
    wp (stageAll stagings) (fun _ q' => q'.Spoiled) (fun _ _ => False) False q
  | [], q, h => h
  | staging :: rest, ⟨c, p⟩, h => by
    unfold stageAll
    rw [wp_bind, wp_tryCatch]
    refine wp_mono (stageEvent_outcome staging) (fun _ q hq => absurd h hq.1) (fun _ q hq => ?_) id
    exact stageAll_spoiled rest hq.1

/-- Every event passes the checks, and there is room for all of them. -/
def Admitted (c : OastCorrelation) (p : OastPollPermit) (stagings : List Staging) : Prop :=
  (∀ staging ∈ stagings, c.Admits staging) ∧
    p.stagedEvents.length + stagings.length ≤ c.maxEventsPerPoll

theorem stageAll_outcome : ∀ (stagings : List Staging) {p : OastPollPermit},
    ¬Polling.Spoiled ⟨c, p⟩ → p.stagedEvents.length ≤ c.maxEventsPerPoll →
    wp (stageAll stagings) (fun _ q => (Admitted c p stagings ∧ q = ⟨c, stagings.foldl .stage p⟩) ∨
      (¬Admitted c p stagings ∧ q.Spoiled)) (fun _ _ => False) False ⟨c, p⟩
  | [], p, _, hroom => .inl ⟨⟨nofun, by simpa using hroom⟩, rfl⟩
  | staging :: rest, p, hfine, hroom => by
    unfold stageAll
    rw [wp_bind, wp_tryCatch]
    refine wp_mono (stageEvent_outcome staging) (fun _ q hq => ?_) (fun _ q hq => ?_) id
    · obtain ⟨-, hadmits, hfits, rfl⟩ := hq
      have hlength : (p.stage staging).stagedEvents.length = p.stagedEvents.length + 1 := by
        simp [OastPollPermit.stage]
      refine wp_imp (stageAll_outcome rest (p := p.stage staging) hfine (by omega))
        (fun _ q hq => ?_)
      have hiff : Admitted c p (staging :: rest) ↔ Admitted c (p.stage staging) rest := by
        unfold Admitted
        rw [hlength, length_cons, forall_mem_cons]
        constructor
        · rintro ⟨⟨-, hrest⟩, hall⟩
          exact ⟨hrest, by omega⟩
        · rintro ⟨hrest, hall⟩
          exact ⟨⟨hadmits, hrest⟩, by omega⟩
      rw [hiff]
      exact hq
    · rcases hq with ⟨hspoiled, hbad | hrefused⟩
      · exact absurd hbad hfine
      · rw [wp_pure]
        refine wp_imp (stageAll_spoiled rest hspoiled) (fun _ q hq => .inr ⟨fun hall => ?_, hq⟩)
        refine hrefused ⟨hall.1 staging mem_cons_self, ?_⟩
        have := hall.2
        rw [length_cons] at this
        omega

theorem finish_spoiled (h : q.Spoiled) :
    wp (finish completedAt) (fun _ _ => False) (fun _ _ => True) True q := by
  obtain ⟨c, p⟩ := q
  unfold finish
  rw [wp_bind]
  refine ensureCompletionTime_spec (fun hact _ _ _ => ?_) (fun _ _ => trivial)
  simp only [↓wp_rules]
  rcases h with hlatc | hst
  · cases hfail : p.failure with
    | some error => exact trivial
    | none => exact absurd hfail hlatc
  · exact absurd hact hst

theorem foldl_stage : ∀ (stagings : List Staging) (p : OastPollPermit), stagings.foldl .stage p =
      { p with
        latestObservedTime := (stagings.map Staging.observedAt).foldl max p.latestObservedTime
        stagedEvents := p.stagedEvents ++ stagings.map fun s => ⟨s.event, s.observedAt⟩ }
  | [], p => by simp
  | staging :: rest, p => by
    rw [foldl_cons, foldl_stage rest]
    simp [OastPollPermit.stage]

/-- **The order of staging does not matter.** A poll that is finished after
its events were staged in one order gives the same receipt, and leaves the
same registration, after they were staged in any other order. -/
theorem finish_order_independent {stagings stagings' : List Staging} (hperm : stagings.Perm stagings')
    (hroom : p.stagedEvents.length ≤ c.maxEventsPerPoll) {receipt : OastPollReceipt} {r : Polling}
    (h : (do stageAll stagings; finish completedAt : PollCommand OastPollReceipt) ⟨c, p⟩ =
      .ok receipt r) :
    ∃ r', (do stageAll stagings'; finish completedAt : PollCommand OastPollReceipt) ⟨c, p⟩ =
      .ok receipt r' ∧ r'.correlation = r.correlation := by
  have hrun := eq_ok_iff_wp.mp h
  rw [wp_bind] at hrun
  -- a spoiled poll is not finished
  have hnever : ∀ {q : Polling}, q.Spoiled → ¬wp (finish completedAt)
      (fun receipt' r' => receipt' = receipt ∧ r' = r) (fun _ _ => False) False q := by
    intro q hspoiled hfin
    have hfls : wp (finish completedAt) (fun _ _ => False) (fun _ _ => True) True q :=
      finish_spoiled hspoiled
    have hboth := wp_and hfin hfls
    unfold wp at hboth
    cases hres : finish completedAt q <;> rw [hres] at hboth
    · exact hboth.2
    · exact hboth.1
    · exact hboth.1
  have hfine : ¬Polling.Spoiled ⟨c, p⟩ := by
    intro hspoiled
    have hboth := wp_and hrun (stageAll_spoiled stagings hspoiled)
    unfold wp at hboth
    cases hres : stageAll stagings ⟨c, p⟩ <;> rw [hres] at hboth
    · exact hnever hboth.2 hboth.1
    · exact hboth.1
    · exact hboth.1
  have hboth := wp_and hrun (stageAll_outcome stagings hfine hroom)
  have hstaged : Admitted c p stagings ∧ wp (finish completedAt)
      (fun receipt' r' => receipt' = receipt ∧ r' = r) (fun _ _ => False) False
      ⟨c, stagings.foldl .stage p⟩ := by
    unfold wp at hboth
    cases hres : stageAll stagings ⟨c, p⟩ <;> rw [hres] at hboth
    · obtain ⟨hfin, ⟨hadmitted, rfl⟩ | ⟨-, hspoiled⟩⟩ := hboth
      · exact ⟨hadmitted, hfin⟩
      · exact absurd hfin (hnever hspoiled)
    · exact hboth.1.elim
    · exact hboth.1.elim
  obtain ⟨hadmitted, hfin⟩ := hstaged
  have hadmitted' : Admitted c p stagings' :=
    ⟨fun staging hin => hadmitted.1 staging (hperm.mem_iff.mpr hin), hperm.length_eq ▸ hadmitted.2⟩
  have hlatest : (stagings'.map Staging.observedAt).foldl max p.latestObservedTime =
      (stagings.map Staging.observedAt).foldl max p.latestObservedTime :=
    ((hperm.map _).foldl_eq _).symm
  have hcongr : wp (finish completedAt)
      (fun receipt' q' => receipt' = receipt ∧ q'.correlation = r.correlation) (fun _ _ => False) False
      ⟨c, stagings'.foldl .stage p⟩ := by
    rw [foldl_stage stagings] at hfin
    rw [foldl_stage stagings']
    have hsame := eq_ok_iff_wp.mpr hfin
    refine finish_congr ?_ ?_ ?_ ?_ hsame
    · rfl
    · exact hlatest
    · rfl
    · exact (hperm.map _).append_left _
  have hoth : wp (do stageAll stagings'; finish completedAt : PollCommand OastPollReceipt)
      (fun receipt' r' => receipt' = receipt ∧ r'.correlation = r.correlation) (fun _ _ => False) False
      ⟨c, p⟩ := by
    rw [wp_bind]
    refine wp_imp (stageAll_outcome stagings' hfine hroom) fun _ q hq => ?_
    rcases hq with ⟨-, rfl⟩ | ⟨hnot, -⟩
    · exact hcongr
    · exact absurd hadmitted' hnot
  unfold wp at hoth
  cases hres : (do stageAll stagings'; finish completedAt : PollCommand OastPollReceipt) ⟨c, p⟩ with
  | ok receipt' r' =>
    rw [hres] at hoth
    exact ⟨r', by rw [hoth.1], hoth.2⟩
  | error e r' =>
    rw [hres] at hoth
    exact hoth.elim
  | panic =>
    rw [hres] at hoth
    exact hoth.elim

end Termivar.Correlation
