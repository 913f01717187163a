/-
# Runs of an authority

A host registers tokens with an authority and polls its registrations, in any
order and at any times. The invariant of a run relates every registration to
the part of the trace that is about it: the polls begun on it and the receipts
given for it.
-/
import Termivar.Correlation.Poll

namespace Termivar.Correlation

open Command List

/-! ### What a trace says about a registration -/

/-- A call with what it returned. -/
abbrev OastEntry : Type := OastCall × Except OastError OastReply

/-- The poll a call began on a registration: its ordinal and its time. -/
def beganIn (index : Nat) : OastEntry → List (Nat × Nat)
  | (.beginPoll i _ _ now, .ok (.began pollOrdinal)) => if i = index then [(pollOrdinal, now)] else []
  | _ => []

/-- The receipt a call gave for a poll of a registration. -/
def committedIn (index : Nat) : OastEntry → List OastPollReceipt
  | (.finish i _, .ok (.finished receipt)) => if i = index then [receipt] else []
  | _ => []

def began (index : Nat) (trace : List OastEntry) : List (Nat × Nat) := trace.flatMap (beganIn index)

def committed (index : Nat) (trace : List OastEntry) : List OastPollReceipt :=
  trace.flatMap (committedIn index)

theorem began_snoc (index : Nat) (trace : List OastEntry) (entry : OastEntry) :
    began index (trace ++ [entry]) = began index trace ++ beganIn index entry := by
  simp [began]

theorem committed_snoc (index : Nat) (trace : List OastEntry) (entry : OastEntry) :
    committed index (trace ++ [entry]) = committed index trace ++ committedIn index entry := by
  simp [committed]

/-- The entry says nothing about the registration. -/
def Silent (index : Nat) (entry : OastEntry) : Prop :=
  beganIn index entry = [] ∧ committedIn index entry = []

/-! ### The invariant -/

def Slot.ids (slot : Slot) : OastBindingId × OastCorrelationId :=
  (slot.correlation.bindingId, slot.correlation.correlationId)

variable {sha256 : Bytes → Bytes}

/-- Every registration reserved the fingerprint of a token of its own, from
which its id was made. -/
structure Reserved (sha256 : Bytes → Bytes) (a : OastCorrelationAuthority)
    (ids : List (OastBindingId × OastCorrelationId)) : Prop where
  registered : a.registered = ids.length
  fingerprints : a.tokenFingerprints.size = ids.length
  bounded : a.registered ≤ a.limits.maxRegistrations
  tokens : ∃ tokens : List OastCorrelationToken, tokens.Nodup ∧
    (∀ token ∈ tokens, tokenFingerprint sha256 token ∈ a.tokenFingerprints) ∧
    List.Forall₂ (fun token id => id.2 = correlationId sha256 token id.1) tokens ids

/-- The state of a host after the calls of a trace. -/
structure Sound (sha256 : Bytes → Bytes) (trace : List OastEntry) (w : OastWorld) : Prop where
  reserved : Reserved sha256 w.authority (w.slots.map Slot.ids)
  slots : ∀ {index : Nat} {slot : Slot}, w.slots[index]? = some slot →
    Registered (began index trace) (committed index trace) slot.correlation slot.permit
  fresh : ∀ index, w.slots.length ≤ index → began index trace = [] ∧ committed index trace = []

/-- Every registration is still there, and is kept. -/
structure Follows (w w' : OastWorld) : Prop where
  limits : w'.authority.limits = w.authority.limits
  slots : ∀ {index : Nat} {slot : Slot}, w.slots[index]? = some slot →
    ∃ slot', w'.slots[index]? = some slot' ∧ Kept slot.correlation slot'.correlation

theorem Follows.refl (w : OastWorld) : Follows w w := ⟨rfl, fun hslot => ⟨_, hslot, Kept.refl _⟩⟩

theorem Kept.trans {c c' c'' : OastCorrelation} (h : Kept c c') (h' : Kept c' c'') : Kept c c'' := by
  refine ⟨h'.bindingId.trans h.bindingId, h'.correlationId.trans h.correlationId,
    h'.expiresAt.trans h.expiresAt, fun hst => ?_⟩
  have hfirst := h.terminal hst
  have hsec := h'.terminal (by rw [hfirst]; exact hst)
  rw [hfirst] at hsec
  exact hsec

theorem Follows.trans {w w' w'' : OastWorld} (h : Follows w w') (h' : Follows w' w'') :
    Follows w w'' := by
  refine ⟨h'.limits.trans h.limits, fun hslot => ?_⟩
  obtain ⟨slot', hslot', hkept⟩ := h.slots hslot
  obtain ⟨slot'', hslot'', hkept'⟩ := h'.slots hslot'
  exact ⟨slot'', hslot'', hkept.trans hkept'⟩

variable {trace : List OastEntry} {w : OastWorld} {entry : OastEntry} {index : Nat} {slot : Slot}

/-- A call that is silent about every registration leaves the invariant. -/
theorem Sound.idle (h : Sound sha256 trace w) (hsilent : ∀ i, Silent i entry) :
    Sound sha256 (trace ++ [entry]) w := by
  have hbegan : ∀ i, began i (trace ++ [entry]) = began i trace := fun i => by
    rw [began_snoc, (hsilent i).1, append_nil]
  have hcomm : ∀ i, committed i (trace ++ [entry]) = committed i trace := fun i => by
    rw [committed_snoc, (hsilent i).2, append_nil]
  refine ⟨h.reserved, fun {i s} hs => ?_, fun i hi => ?_⟩
  · rw [hbegan, hcomm]
    exact h.slots hs
  · rw [hbegan, hcomm]
    exact h.fresh i hi

/-- The state with another slot. -/
def OastWorld.put (w : OastWorld) (index : Nat) (slot : Slot) : OastWorld :=
  { w with slots := w.slots.set index slot }

/-- A call on one registration is silent about the others, and keeps its own. -/
theorem Sound.put (h : Sound sha256 trace w) (hslot : w.slots[index]? = some slot) {slot' : Slot}
    (hsilent : ∀ i, i ≠ index → Silent i entry)
    (hregistered : Registered (began index trace ++ beganIn index entry)
      (committed index trace ++ committedIn index entry) slot'.correlation slot'.permit)
    (hkept : Kept slot.correlation slot'.correlation) :
    Sound sha256 (trace ++ [entry]) (w.put index slot') ∧ Follows w (w.put index slot') := by
  obtain ⟨hbd, hat⟩ := List.getElem?_eq_some_iff.mp hslot
  have hids : (w.slots.set index slot').map Slot.ids = w.slots.map Slot.ids := by
    have hsame : Slot.ids slot' = Slot.ids slot := by
      rw [Slot.ids, Slot.ids, hkept.bindingId, hkept.correlationId]
    rw [List.map_set, hsame, ← hat, ← List.getElem_map Slot.ids]
    · exact List.set_getElem_self _
    · rwa [List.length_map]
  refine ⟨⟨?_, fun {i s} hs => ?_, fun i hi => ?_⟩, rfl, fun {i s} hs => ?_⟩
  · show Reserved sha256 w.authority ((w.slots.set index slot').map Slot.ids)
    rw [hids]
    exact h.reserved
  · rw [began_snoc, committed_snoc]
    by_cases hi : i = index
    · subst hi
      rw [OastWorld.put, List.getElem?_set_self hbd, Option.some.injEq] at hs
      exact hs ▸ hregistered
    · rw [OastWorld.put, List.getElem?_set_ne (fun heq => hi heq.symm)] at hs
      rw [(hsilent i hi).1, (hsilent i hi).2, List.append_nil, List.append_nil]
      exact h.slots hs
  · rw [OastWorld.put, List.length_set] at hi
    rw [began_snoc, committed_snoc, (hsilent i (by omega)).1, (hsilent i (by omega)).2]
    simpa using h.fresh i hi
  · by_cases hi : i = index
    · subst hi
      rw [hslot, Option.some.injEq] at hs
      exact ⟨slot', List.getElem?_set_self hbd, hs ▸ hkept⟩
    · exact ⟨s, by rw [OastWorld.put, List.getElem?_set_ne (fun heq => hi heq.symm), hs], Kept.refl _⟩

/-! ### Calls -/

variable {ok : OastReply → OastWorld → Prop} {err : OastError → OastWorld → Prop}
  {a : OastCorrelationAuthority} {c : OastCorrelation}

theorem wp_onFree {call : OastCorrelation → WorldCommand OastReply} (hnot : ok .notMade w)
    (hcall : ∀ c, w.slots[index]? = some ⟨c, none⟩ → wp (call c) ok err False w) :
    wp (onFree index call) ok err False w := by
  unfold onFree
  simp only [↓wp_rules]
  split
  · exact hcall _ ‹_›
  · exact hnot

theorem wp_onPermit {call : Polling → WorldCommand OastReply} (hnot : ok .notMade w)
    (hcall : ∀ c p, w.slots[index]? = some ⟨c, some p⟩ → wp (call ⟨c, p⟩) ok err False w) :
    wp (onPermit index call) ok err False w := by
  unfold onPermit
  simp only [↓wp_rules]
  split
  · exact hcall _ _ ‹_›
  · exact hnot

theorem wp_runFree {α : Type} {x : CorrelationCommand α} {permit : α → Option OastPollPermit}
    {answer : α → OastReply}
    (h : wp x (fun a c' => ok (answer a) (w.put index ⟨c', permit a⟩))
      (fun e c' => err e (w.put index ⟨c', none⟩)) False c) :
    wp (runFree index x permit answer c) ok err False w := by
  unfold runFree
  unfold wp at h
  cases hx : x c with
  | ok a c' =>
    rw [hx] at h
    exact h
  | error e c' =>
    rw [hx] at h
    exact h
  | panic =>
    rw [hx] at h
    exact h.elim

theorem wp_runPermit {x : PollCommand Unit} {p : Polling}
    (h : wp x (fun _ q => ok .staged (w.put index ⟨q.correlation, some q.permit⟩))
      (fun e q => err e (w.put index ⟨q.correlation, some q.permit⟩)) False p) :
    wp (runPermit index x p) ok err False w := by
  unfold runPermit
  unfold wp at h
  cases hx : x p with
  | ok a q =>
    rw [hx] at h
    exact h
  | error e q =>
    rw [hx] at h
    exact h
  | panic =>
    rw [hx] at h
    exact h.elim

/-- The permit is dropped when the command returns, whatever it returns. -/
theorem wp_runConsuming {α : Type} {x : PollCommand α} {answer : α → OastReply} {p : Polling}
    (h : wp x
      (fun a q => wp dropPermit (fun _ r => ok (answer a) (w.put index ⟨r.correlation, none⟩))
        (fun _ _ => False) False q)
      (fun e q => wp dropPermit (fun _ r => err e (w.put index ⟨r.correlation, none⟩))
        (fun _ _ => False) False q) False p) :
    wp (runConsuming index x answer p) ok err False w := by
  unfold runConsuming
  unfold wp at h
  cases hx : x p with
  | ok a q =>
    rw [hx] at h
    dsimp only at h ⊢
    cases hdrop : dropPermit q with
    | ok u r =>
      rw [hdrop] at h
      exact h
    | error e r =>
      rw [hdrop] at h
      exact h.elim
    | panic =>
      rw [hdrop] at h
      exact h.elim
  | error e q =>
    rw [hx] at h
    dsimp only at h ⊢
    cases hdrop : dropPermit q with
    | ok u r =>
      rw [hdrop] at h
      exact h
    | error e r =>
      rw [hdrop] at h
      exact h.elim
    | panic =>
      rw [hdrop] at h
      exact h.elim
  | panic =>
    rw [hx] at h
    exact h.elim

/-- A committed permit is dropped in silence. -/
theorem wp_dropPermit_committed {ok : Unit → Polling → Prop} {q : Polling}
    (hcomm : q.permit.committed = true) (h : ok () q) :
    wp dropPermit ok (fun _ _ => False) False q := by
  unfold dropPermit
  simp only [↓wp_rules, hcomm]
  exact ⟨nofun, fun _ => h⟩

theorem register_spec {ids : List (OastBindingId × OastCorrelationId)}
    (h : Reserved sha256 a ids) (verificationCase : VerificationCase) (token : OastCorrelationToken)
    (allowedProtocols : OastProtocolSet) (issuedAt : Nat) (lifetime : OastLifetime)
    (pollBudget : OastPollBudget) :
    wp (register sha256 verificationCase token allowedProtocols issuedAt lifetime pollBudget)
      (fun made a' => Registered [] [] made.1 none ∧
        Reserved sha256 a' (ids ++ [(made.1.bindingId, made.1.correlationId)]) ∧
        a'.limits = a.limits)
      (fun _ a' => a' = a) False a := by
  have hbdd := a.limits.bounded
  have hregistered := h.registered
  unfold register
  simp only [↓wp_rules, ↓Checked.wp_okOr]
  refine Checked.wp_of_forall (fun _ => ?_) (fun _ => trivial)
  refine ⟨fun _ => trivial, fun hroom => ⟨fun _ => trivial, fun _ => ⟨fun _ => trivial, fun _ =>
    ⟨fun expiresAt _ => ⟨fun _ => trivial, fun hnew => wp_addU16 ?_ ?_⟩, fun _ => trivial⟩⟩⟩⟩
  · simp only [hardMaxRegistrations, u16Max] at hbdd ⊢
    omega
  · rw [Std.ExtTreeSet.contains_iff_mem] at hnew
    refine ⟨?_, ⟨?_, ?_, ?_, ?_⟩, trivial⟩
    · refine ⟨rfl, rfl, rfl, pollBudget.bounded, hbdd.2.2.1, hbdd.2.2.2.1, rfl, ?_, ?_, ?_, ?_,
        nofun, nofun, nofun⟩ <;> simp [reports, acceptedKeys]
    · simp [hregistered]
    · rw [set_size_insert_new hnew, h.fingerprints]
      simp
    · show a.registered + 1 ≤ a.limits.maxRegistrations
      omega
    · obtain ⟨tokens, hnd, hlisted, hmade⟩ := h.tokens
      refine ⟨tokens ++ [token], ?_, ?_, ?_⟩
      · rw [nodup_append]
        refine ⟨hnd, nodup_singleton _, fun t ht u hu heq => ?_⟩
        rw [mem_singleton] at hu
        exact hnew (hu ▸ heq ▸ hlisted t ht)
      · intro t ht
        rw [mem_insert_iff]
        rcases mem_append.mp ht with hold | hlast
        · exact .inr (hlisted t hold)
        · exact .inl (by rw [mem_singleton.mp hlast])
      · exact rel_append hmade (.cons rfl .nil)

/-- A new registration has no history. -/
theorem Sound.push (h : Sound sha256 trace w) (hsilent : ∀ i, Silent i entry)
    (hrsv : Reserved sha256 a (w.slots.map Slot.ids ++ [(c.bindingId, c.correlationId)]))
    (hregistered : Registered [] [] c none) (hlims : a.limits = w.authority.limits) :
    Sound sha256 (trace ++ [entry]) ⟨a, w.slots ++ [Slot.mk c none]⟩ ∧
      Follows w ⟨a, w.slots ++ [Slot.mk c none]⟩ := by
  have hidle := h.idle hsilent
  refine ⟨⟨?_, fun {i s} hs => ?_, fun i hi => ?_⟩, hlims, fun {i s} hs => ?_⟩
  · show Reserved sha256 a ((w.slots ++ [Slot.mk c none]).map Slot.ids)
    rw [map_append]
    exact hrsv
  · by_cases hi : i < w.slots.length
    · rw [getElem?_append_left hi] at hs
      exact hidle.slots hs
    · rw [getElem?_append_right (by omega), getElem?_singleton] at hs
      split_ifs at hs with hlast
      cases hs
      obtain ⟨hbegan, hcomm⟩ := hidle.fresh i (by omega)
      rw [hbegan, hcomm]
      exact hregistered
  · rw [length_append] at hi
    exact hidle.fresh i (by omega)
  · have hi := (List.getElem?_eq_some_iff.mp hs).1
    exact ⟨s, by rw [getElem?_append_left hi, hs], Kept.refl _⟩

/-- **One call.** No call overflows a counter, and every call keeps the
invariant and what is kept of every registration. -/
theorem exec_sound (h : Sound sha256 trace w) (call : OastCall) :
    wp (call.exec sha256)
      (fun reply w' => Sound sha256 (trace ++ [(call, .ok reply)]) w' ∧ Follows w w')
      (fun e w' => Sound sha256 (trace ++ [(call, .error e)]) w' ∧ Follows w w') False w := by
  cases call with
  | register verificationCase token allowedProtocols issuedAt lifetime pollBudget =>
    unfold OastCall.exec
    rw [wp_bind, wp_zoom]
    refine wp_mono (register_spec h.reserved verificationCase token allowedProtocols issuedAt lifetime
      pollBudget) (fun made a hmade => ?_) (fun e a ha => ?_) id
    · exact h.push (fun _ => ⟨rfl, rfl⟩) hmade.2.1 hmade.1 hmade.2.2
    · subst ha
      exact ⟨h.idle fun _ => ⟨rfl, rfl⟩, Follows.refl w⟩
  | beginPoll index assessmentId verificationCase now =>
    refine wp_onFree ⟨h.idle fun _ => ⟨rfl, rfl⟩, Follows.refl w⟩ fun c hslot => wp_runFree ?_
    refine wp_mono (beginPoll_spec (h.slots hslot) assessmentId verificationCase now)
      (fun p c' hc => ?_) (fun e c' hc => ?_) id
    · refine h.put hslot (fun i hi => ⟨if_neg fun heq => hi heq.symm, rfl⟩) ?_ hc.2
      simpa [beganIn, committedIn] using hc.1
    · refine h.put hslot (fun i _ => ⟨rfl, rfl⟩) ?_ hc.2
      simpa [beganIn, committedIn] using hc.1
  | cancel index assessmentId verificationCase now =>
    refine wp_onFree ⟨h.idle fun _ => ⟨rfl, rfl⟩, Follows.refl w⟩ fun c hslot => wp_runFree ?_
    refine wp_mono (cancel_spec (h.slots hslot) assessmentId verificationCase now)
      (fun _ c' hc => ?_) (fun e c' hc => ?_) id
    · refine h.put hslot (fun i _ => ⟨rfl, rfl⟩) ?_ hc.2
      simpa [beganIn, committedIn] using hc.1
    · refine h.put hslot (fun i _ => ⟨rfl, rfl⟩) ?_ hc.2
      simpa [beganIn, committedIn] using hc.1
  | stageEvent index correlationId event observedAt =>
    refine wp_onPermit ⟨h.idle fun _ => ⟨rfl, rfl⟩, Follows.refl w⟩ fun c p hslot => wp_runPermit ?_
    refine wp_mono (stageEvent_spec (h.slots hslot) correlationId event observedAt)
      (fun _ q hq => ?_) (fun e q hq => ?_) id
    · refine h.put hslot (fun i _ => ⟨rfl, rfl⟩) ?_ hq.2
      simpa [beganIn, committedIn] using hq.1
    · refine h.put hslot (fun i _ => ⟨rfl, rfl⟩) ?_ hq.2
      simpa [beganIn, committedIn] using hq.1
  | finish index completedAt =>
    refine wp_onPermit ⟨h.idle fun _ => ⟨rfl, rfl⟩, Follows.refl w⟩ fun c p hslot =>
      wp_runConsuming ?_
    refine wp_mono (finish_spec (h.slots hslot) completedAt) (fun receipt q hq => ?_)
      (fun e q hq => ?_) id
    · obtain ⟨hregistered, hkept, hcomm⟩ := hq
      refine wp_dropPermit_committed hcomm ?_
      refine h.put hslot (fun i hi => ⟨rfl, if_neg fun heq => hi heq.symm⟩) ?_ hkept
      simpa [beganIn, committedIn] using hregistered
    · obtain ⟨hregistered, hkept, hopen, -⟩ := hq
      refine wp_imp (dropPermit_spec hregistered hopen) fun _ r hr => ?_
      refine h.put hslot (fun i _ => ⟨rfl, rfl⟩) ?_ (hkept.trans hr.2.1)
      simpa [beganIn, committedIn] using hr.1
  | dropPermit index =>
    refine wp_onPermit ⟨h.idle fun _ => ⟨rfl, rfl⟩, Follows.refl w⟩ fun c p hslot =>
      wp_runConsuming ?_
    have hregistered := h.slots hslot
    rw [wp_pure]
    refine wp_imp (dropPermit_spec hregistered (hregistered.live p rfl).uncommitted)
      (fun _ r hr => ?_)
    refine h.put hslot (fun i _ => ⟨rfl, rfl⟩) ?_ hr.2.1
    simpa [beganIn, committedIn] using hr.1

/-- What a poll that was not committed leaves on its registration. -/
def Untouched (index : Nat) (w w' : OastWorld) : Prop :=
  ∀ slot, w.slots[index]? = some slot →
    ∃ slot', w'.slots[index]? = some slot' ∧ Unchanged slot.correlation slot'.correlation

theorem untouched_put {c c' : OastCorrelation} {permit : Option OastPollPermit}
    (hslot : w.slots[index]? = some ⟨c, permit⟩) (h : Unchanged c c') :
    Untouched index w (w.put index ⟨c', none⟩) := by
  intro slot hs
  rw [hslot, Option.some.injEq] at hs
  have hbd := (List.getElem?_eq_some_iff.mp hslot).1
  exact ⟨⟨c', none⟩, List.getElem?_set_self hbd, hs ▸ h⟩

theorem Unchanged.trans {c c' c'' : OastCorrelation} (h : Unchanged c c') (h' : Unchanged c' c'') :
    Unchanged c c'' :=
  ⟨h'.seenEvents.trans h.seenEvents, h'.acceptedEvents.trans h.acceptedEvents,
    h'.duplicateEvents.trans h.duplicateEvents⟩

theorem exec_finish_fails (h : Sound sha256 trace w) (index completedAt : Nat) :
    wp ((OastCall.finish index completedAt).exec sha256) (fun _ _ => True)
      (fun _ w' => Untouched index w w') False w := by
  refine wp_onPermit trivial fun c p hslot => wp_runConsuming ?_
  refine wp_mono (finish_spec (h.slots hslot) completedAt) (fun receipt q hq => ?_)
    (fun e q hq => ?_) id
  · exact wp_dropPermit_committed hq.2.2 trivial
  · obtain ⟨hregistered, -, hopen, hunch⟩ := hq
    refine wp_imp (dropPermit_spec hregistered hopen) fun _ r hr => ?_
    exact untouched_put hslot (hunch.trans hr.2.2)

theorem exec_dropPermit (h : Sound sha256 trace w) (index : Nat) :
    wp ((OastCall.dropPermit index).exec sha256) (fun _ w' => Untouched index w w')
      (fun _ w' => Untouched index w w') False w := by
  refine wp_onPermit (fun slot hslot => ⟨slot, hslot, rfl, rfl, rfl⟩) fun c p hslot =>
    wp_runConsuming ?_
  have hregistered := h.slots hslot
  rw [wp_pure]
  refine wp_imp (dropPermit_spec hregistered (hregistered.live p rfl).uncommitted)
    (fun _ r hr => ?_)
  exact untouched_put hslot hr.2.2

/-! ### Runs -/

/-- A host that has made no call. -/
def OastWorld.new (epoch : OastAuthorityEpoch) (assessmentId : OastAssessmentId)
    (limits : OastAuthorityLimits) : OastWorld :=
  { authority := { epoch, assessmentId, limits } }

theorem sound_new (epoch : OastAuthorityEpoch) (assessmentId : OastAssessmentId)
    (limits : OastAuthorityLimits) : Sound sha256 [] (.new epoch assessmentId limits) :=
  ⟨⟨rfl, rfl, Nat.zero_le _, [], nodup_nil, nofun, .nil⟩, nofun, fun _ _ => ⟨rfl, rfl⟩⟩

/-- Every run reaches its end, and what one call keeps, the run keeps. -/
theorem run_sound (h : Sound sha256 trace w) (calls : List OastCall) :
    ∃ q, run (OastCall.exec sha256) w calls = some q ∧ Sound sha256 (trace ++ q.1) q.2 ∧
      Follows w q.2 := by
  have hstep : ∀ (call : OastCall) (w' : OastWorld), (∃ past, Sound sha256 past w') →
      wp (call.exec sha256) (fun _ t => ∃ past, Sound sha256 past t)
        (fun _ t => ∃ past, Sound sha256 past t) False w' := by
    rintro call w' ⟨past, hpast⟩
    exact wp_mono (exec_sound hpast call) (fun _ _ ht => ⟨_, ht.1⟩) (fun _ _ ht => ⟨_, ht.1⟩) id
  obtain ⟨q, hrun, -⟩ := run_total hstep calls ⟨trace, h⟩
  refine ⟨q, hrun, ?_⟩
  refine run_history (J := fun past t => Sound sha256 past t ∧ Follows w t) ?_ trace
    ⟨h, Follows.refl w⟩ hrun
  intro past s call r t hpast hrep
  obtain ⟨hok, herr, -⟩ := wp_iff_reply.mp (exec_sound hpast.1 call)
  cases r with
  | ok value =>
    obtain ⟨hsnd, hfoll⟩ := hok value t hrep
    exact ⟨hsnd, hpast.2.trans hfoll⟩
  | error e =>
    obtain ⟨hsnd, hfoll⟩ := herr e t hrep
    exact ⟨hsnd, hpast.2.trans hfoll⟩

/-- Two registrations with one id have one token. -/
theorem correlationId_token (hsha : Function.Injective sha256) {token token' : OastCorrelationToken}
    {binding binding' : OastBindingId}
    (h : correlationId sha256 token binding = correlationId sha256 token' binding') :
    token = token' := by
  have hbs := hsha h
  rw [append_assoc, append_assoc] at hbs
  have hframes := append_cancel_left hbs
  have hlength : ∀ t : OastCorrelationToken, t.bytes.length < 256 ^ 16 := fun t => by
    rw [t.width]
    norm_num
  have hsame := (frame_append_inj (hlength token) (hlength token') hframes).1
  exact Opaque32.bytes_injective hsame

theorem Reserved.nodup (hsha : Function.Injective sha256)
    {ids : List (OastBindingId × OastCorrelationId)} (h : Reserved sha256 a ids) :
    (ids.map Prod.snd).Nodup := by
  obtain ⟨tokens, hnd, -, hmade⟩ := h.tokens
  clear h
  induction hmade with
  | nil => exact nodup_nil
  | @cons token id tokens ids hid hrest ih =>
    rw [nodup_cons] at hnd
    rw [map_cons, nodup_cons]
    refine ⟨fun hin => ?_, ih hnd.2⟩
    obtain ⟨id', hid', hsame⟩ := mem_map.mp hin
    obtain ⟨token', htoken', hmade'⟩ := exists_mem_of_forall₂ hrest hid'
    rw [hmade', hid] at hsame
    exact hnd.1 (correlationId_token hsha hsame ▸ htoken')

/-- **Correlations are accounted for.** Every run of calls on an authority
reaches its end, so no counter overflows. After it: the reserved fingerprints
are the registrations, within the limit and under distinct ids; every
registration numbers its polls from one, spends its budget on committed,
abandoned and live polls, counts the events it has seen, accepts a key once and
reports it under one protocol, and commits no event observed before the poll
began or at its expiry; a terminal state stays through any further calls; a
poll that is not committed leaves the events; and the order of staging does not
matter. -/
theorem correlation_contract (hsha : Function.Injective sha256) (epoch : OastAuthorityEpoch)
    (assessmentId : OastAssessmentId) (limits : OastAuthorityLimits) (calls more : List OastCall) :
    ∃ q r, run (OastCall.exec sha256) (.new epoch assessmentId limits) calls = some q ∧
      run (OastCall.exec sha256) q.2 more = some r ∧
      q.2.authority.registered = q.2.authority.tokenFingerprints.size ∧
      q.2.authority.registered = q.2.slots.length ∧
      q.2.authority.registered ≤ limits.maxRegistrations ∧
      (q.2.slots.map fun slot => slot.correlation.correlationId).Nodup ∧
      ∀ index slot, q.2.slots[index]? = some slot →
        (began index q.1).map Prod.fst = List.range' 1 (began index q.1).length ∧
        slot.correlation.remainingPolls + (began index q.1).length = slot.correlation.pollLimit ∧
        (slot.permit = none → (began index q.1).length =
          (committed index q.1).length + slot.correlation.abandonedPolls) ∧
        slot.correlation.acceptedEvents = slot.correlation.seenEvents.size ∧
        slot.correlation.seenEvents.size ≤ slot.correlation.maxUniqueEvents ∧
        (acceptedKeys (reports (committed index q.1))).Nodup ∧
        (∀ receipt ∈ reports (committed index q.1), ∀ other ∈ reports (committed index q.1),
          other.eventKey = receipt.eventKey → other.protocol = receipt.protocol) ∧
        (∀ receipt ∈ committed index q.1, ∃ now, (receipt.pollOrdinal, now) ∈ began index q.1 ∧
          ∀ event ∈ receipt.eventReceipts,
            now ≤ event.observedAt ∧ event.observedAt < slot.correlation.expiresAt) ∧
        (slot.correlation.state ≠ .active → ∃ slot', r.2.slots[index]? = some slot' ∧
          slot'.correlation.state = slot.correlation.state) ∧
        (∀ completedAt e w', reply ((OastCall.finish index completedAt).exec sha256) q.2 =
          some (.error e, w') → Untouched index q.2 w') ∧
        (∀ result w', reply ((OastCall.dropPermit index).exec sha256) q.2 = some (result, w') →
          Untouched index q.2 w') ∧
        ∀ permit, slot.permit = some permit → ∀ (stagings stagings' : List Staging) completedAt
          receipt p, stagings.Perm stagings' →
          (do stageAll stagings; finish completedAt : PollCommand OastPollReceipt)
            ⟨slot.correlation, permit⟩ = .ok receipt p →
          ∃ p', (do stageAll stagings'; finish completedAt : PollCommand OastPollReceipt)
            ⟨slot.correlation, permit⟩ = .ok receipt p' ∧ p'.correlation = p.correlation := by
  have hnew : Sound sha256 [] (.new epoch assessmentId limits) := sound_new epoch assessmentId limits
  obtain ⟨q, hrun, hsnd, hfirst⟩ := run_sound hnew calls
  obtain ⟨r, hmore, -, hfoll⟩ := run_sound hsnd more
  rw [List.nil_append] at hsnd
  have hrsv := hsnd.reserved
  have hnd := hrsv.nodup hsha
  rw [List.map_map] at hnd
  refine ⟨q, r, hrun, hmore, ?_, ?_, ?_, hnd, fun index slot hslot => ?_⟩
  · rw [hrsv.registered, hrsv.fingerprints]
  · rw [hrsv.registered, List.length_map]
  · have hlims : q.2.authority.limits = limits := hfirst.limits
    exact hlims ▸ hrsv.bounded
  have h := hsnd.slots hslot
  refine ⟨h.ordinals, h.budget, fun hfree => ?_, h.accepted, h.bounded, h.once, ?_, h.timely, ?_, ?_,
    ?_, ?_⟩
  · have hspent := h.spent
    rw [hfree, Option.toList_none, List.length_nil] at hspent
    omega
  · intro receipt hrcpt other hoth hkey
    have hsame := h.known other hoth
    rw [hkey, h.known receipt hrcpt, Option.some.injEq] at hsame
    exact hsame.symm
  · intro hterm
    obtain ⟨slot', hslot', hkept⟩ := hfoll.slots hslot
    refine ⟨slot', hslot', ?_⟩
    rw [hkept.terminal hterm]
  · intro completedAt e w' hrep
    exact (wp_iff_reply.mp (exec_finish_fails hsnd index completedAt)).2.1 e w' hrep
  · intro result w' hrep
    obtain ⟨hok, herr, -⟩ := wp_iff_reply.mp (exec_dropPermit hsnd index)
    cases result with
    | ok value => exact hok value w' hrep
    | error e => exact herr e w' hrep
  · intro permit hpermit stagings stagings' completedAt receipt p hperm hfin
    exact finish_order_independent hperm (h.live permit hpermit).staged hfin

/-- Bytes that are all the same. -/
def sampleOpaque (byte : UInt8) (h : (replicate 32 byte).any (· ≠ 0) = true) : Opaque32 :=
  ⟨replicate 32 byte, length_replicate, h⟩

def sampleCase : VerificationCase where
  id := "case"
  subject := ⟨"host", .refl false⟩
  actionId := "action"
  hypothesisId := "hypothesis"
  id_notBlank := by decide
  actionId_notBlank := by decide
  hypothesisId_notBlank := by decide

def sampleAssessment : OastAssessmentId := ⟨"a", by decide, by decide, by decide⟩

def sampleLimits : OastAuthorityLimits := ⟨1, 1, 2, 1, 10, by decide, by decide⟩

def sampleEpoch : OastAuthorityEpoch := sampleOpaque 3 (by decide)

/-- One registration, and one poll of it in which a callback is seen twice. -/
def sampleCalls : List OastCall :=
  let token := sampleOpaque 1 (by decide)
  let event := OastEvent.dns (sampleOpaque 2 (by decide)) ⟨.udp, .a⟩
  let protocols : OastProtocolSet := ⟨true, false, rfl⟩
  let pollBudget : OastPollBudget := ⟨1, by decide, by decide⟩
  let issued := correlationId id token (bindingId id
    { epoch := sampleEpoch, limits := sampleLimits, assessmentId := sampleAssessment
      verificationCase := sampleCase, protocols, issuedAt := 5, expiresAt := 15, pollBudget })
  [.register sampleCase token protocols 5 ⟨10, by decide, by decide⟩ pollBudget,
    .beginPoll 0 sampleAssessment sampleCase 6, .stageEvent 0 issued event 7,
    .stageEvent 0 issued event 8, .finish 0 9]

theorem correlation_contract_sample :
    Function.Injective (id : Bytes → Bytes) ∧
      ∃ q, run (OastCall.exec id) (.new sampleEpoch sampleAssessment sampleLimits) sampleCalls =
        some q ∧
      (reports (committed 0 q.1)).map OastEventReceipt.disposition =
        [.accepted, .duplicateSuppressed] ∧
      q.2.authority.registered = q.2.authority.tokenFingerprints.size := by
  obtain ⟨q, r, hrun, -, hrsv, -⟩ := correlation_contract Function.injective_id sampleEpoch
    sampleAssessment sampleLimits sampleCalls []
  refine ⟨Function.injective_id, q, hrun, ?_, hrsv⟩
  have heval : (run (OastCall.exec id) (.new sampleEpoch sampleAssessment sampleLimits)
      sampleCalls).map (fun q => (reports (committed 0 q.1)).map OastEventReceipt.disposition) =
      some [.accepted, .duplicateSuppressed] := by decide +kernel
  rw [hrun] at heval
  simpa using heval

end Termivar.Correlation
