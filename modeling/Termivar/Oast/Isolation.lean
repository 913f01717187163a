/-
# Sessions do not disturb each other

Reclamation is a side effect of authenticated management: a sweep drops every
session past its retention deadline, whichever session the call is about. A
call without the right credential leaves the provider as it is, a public
callback only writes its own session back, and a session's deadline is fixed
when it is registered.
-/
import Termivar.Oast.Mailbox

namespace Termivar.Oast

open Command ProviderError Option

/-! ### What a call may do -/

section Effects

variable (sha256 : Bytes → Bytes)

/-- The session is there, and the bearer matches its digest. -/
def HoldsToken (s : ProviderState) (sessionId : SessionId) (bearer : Bytes) : Prop :=
  ∃ session, s.sessions[sessionId]? = some session ∧
    matchesSession sha256 session.tokenDigest bearer = true

/-- Calls that carry a bearer. -/
def ProviderOp.management : ProviderOp → Bool
  | .register .. | .allocate .. | .poll .. | .cleanup .. => true
  | .observeCallback .. | .markCallbackObservationIncomplete .. => false

/-- The bearer of a management call matches the digest of the administrator
or of the addressed session. -/
def Authentic (s : ProviderState) : ProviderOp → Prop
  | .register adminBearer _ _ _ _ => matchesAdmin sha256 s.adminDigest adminBearer = true
  | .allocate sessionId sessionBearer _ _ => HoldsToken sha256 s sessionId sessionBearer
  | .poll sessionId sessionBearer _ _ => HoldsToken sha256 s sessionId sessionBearer
  | .cleanup sessionId sessionBearer _ => HoldsToken sha256 s sessionId sessionBearer
  | .observeCallback .. | .markCallbackObservationIncomplete .. => False

/-- The session a call is addressed to. -/
def ProviderOp.target : ProviderOp → Option SessionId
  | .register .. => none
  | .allocate sessionId _ _ _ => some sessionId
  | .observeCallback sessionId _ _ _ => some sessionId
  | .markCallbackObservationIncomplete sessionId _ => some sessionId
  | .poll sessionId _ _ _ => some sessionId
  | .cleanup sessionId _ _ => some sessionId

/-- The time of a management call. -/
def ProviderOp.managedAt : ProviderOp → Nat
  | .register _ _ _ _ now => now
  | .allocate _ _ _ now => now
  | .poll _ _ _ now => now
  | .cleanup _ _ now => now
  | .observeCallback .. | .markCallbackObservationIncomplete .. => 0

/-- What a session keeps for its life: its credential, its expiry, its
retention deadline and its limits. -/
structure SameTerm (old new : SessionState) : Prop where
  tokenDigest : new.tokenDigest = old.tokenDigest
  expiresAtMillis : new.expiresAtMillis = old.expiresAtMillis
  retainUntilMillis : new.retainUntilMillis = old.retainUntilMillis
  maxCallbacks : new.maxCallbacks = old.maxCallbacks
  maxEvents : new.maxEvents = old.maxEvents
  maxPolls : new.maxPolls = old.maxPolls

/-- The session is written back under its term, or nothing is. -/
def Rewrites (sessionId : SessionId) (s t : ProviderState) : Prop :=
  t = s ∨ ∃ old new, s.sessions[sessionId]? = some old ∧ SameTerm old new ∧
    t = { s with sessions := s.sessions.insert sessionId new }

/-- What a call does to the provider. -/
def Effect (s : ProviderState) (op : ProviderOp) (r : Except ProviderError ProviderReply)
    (t : ProviderState) : Prop :=
  match op with
  | .observeCallback sessionId _ _ _ => Rewrites sessionId s t
  | .markCallbackObservationIncomplete sessionId _ => Rewrites sessionId s t
  | .allocate sessionId sessionBearer _ now =>
    (¬ HoldsToken sha256 s sessionId sessionBearer ∧ t = s) ∨
      (HoldsToken sha256 s sessionId sessionBearer ∧ Rewrites sessionId (s.reclaimed now) t)
  | .poll sessionId sessionBearer _ now =>
    (¬ HoldsToken sha256 s sessionId sessionBearer ∧ t = s) ∨
      (HoldsToken sha256 s sessionId sessionBearer ∧ Rewrites sessionId (s.reclaimed now) t)
  | .cleanup sessionId sessionBearer now =>
    (¬ HoldsToken sha256 s sessionId sessionBearer ∧ t = s) ∨
      (HoldsToken sha256 s sessionId sessionBearer ∧ (t = s.reclaimed now ∨
        t = { s.reclaimed now with sessions := (s.reclaimed now).sessions.erase sessionId }))
  | .register adminBearer request _ _ now =>
    (¬ matchesAdmin sha256 s.adminDigest adminBearer = true ∧ (∃ e, r = .error e) ∧ t = s) ∨
      (matchesAdmin sha256 s.adminDigest adminBearer = true ∧
        (((∃ e, r = .error e) ∧ (t = s ∨ t = s.reclaimed now)) ∨
          ∃ registration session, r = .ok (.registered registration) ∧
            (s.reclaimed now).sessions[registration.sessionId]? = none ∧
            session.expiresAtMillis = now + request.lifetimeMs ∧
            session.retainUntilMillis = now + request.lifetimeMs + resultRetentionMillis ∧
            t = { s.reclaimed now with
              sessions := (s.reclaimed now).sessions.insert registration.sessionId session }))

end Effects

/-! ### Every call -/

section Calls

variable {sha256 : Bytes → Bytes} {s : ProviderState}

/-- A call that begins with the session's credential: without it nothing
changes, with it the sweep comes first. -/
theorem wp_holdsToken {α : Type} {sessionId : SessionId} {candidate : Bytes} {now : Nat}
    {rest : SessionState → ProviderCommand α} {ok : α → ProviderState → Prop}
    {err : ProviderError → ProviderState → Prop}
    (hrefused : ∀ e, ¬ HoldsToken sha256 s sessionId candidate → err e s)
    (hsw : ∀ e, HoldsToken sha256 s sessionId candidate → err e (s.reclaimed now))
    (hrest : ∀ session, HoldsToken sha256 s sessionId candidate →
      (s.reclaimed now).sessions[sessionId]? = some session →
      wp (rest session) ok err False (s.reclaimed now)) :
    wp (authenticatedSession sha256 sessionId candidate now >>= rest) ok err False s := by
  simp only [authenticatedSession, ↓wp_rules, ↓Checked.wp_okOr, ↓wp_reclaimSessionsAt]
  refine ⟨fun session hget => ⟨fun hno => hrefused _ ?_, fun hyes => ?_⟩, fun hnone => hrefused _ ?_⟩
  · rintro ⟨found, hfnd, hmats⟩
    rw [hget, some.injEq] at hfnd
    subst hfnd
    simp [hmats] at hno
  · have hhold : HoldsToken sha256 s sessionId candidate := ⟨session, hget, by simpa using hyes⟩
    exact ⟨fun found hfnd => hrest found hhold hfnd, fun _ => hsw _ hhold⟩
  · rintro ⟨found, hfnd, -⟩
    rw [hnone] at hfnd
    cases hfnd

/-- What an authenticated call leaves of the provider. -/
def Managed (sha256 : Bytes → Bytes) (s : ProviderState) (sessionId : SessionId)
    (bearer : Bytes) (now : Nat) (t : ProviderState) : Prop :=
  (¬ HoldsToken sha256 s sessionId bearer ∧ t = s) ∨
    (HoldsToken sha256 s sessionId bearer ∧ Rewrites sessionId (s.reclaimed now) t)

theorem Rewrites.put {sessionId : SessionId} {old new : SessionState}
    (hget : s.sessions[sessionId]? = some old) (hterm : SameTerm old new) :
    Rewrites sessionId s { s with sessions := s.sessions.insert sessionId new } :=
  .inr ⟨old, new, hget, hterm, rfl⟩

theorem allocate_effect (sessionId : SessionId) (sessionBearer : Bytes)
    (idDraws : Nat → Option (RandomBytes 16)) (now : Nat) :
    wp (allocateBearerAt sha256 sessionId sessionBearer idDraws now)
      (fun _ => Managed sha256 s sessionId sessionBearer now)
      (fun _ => Managed sha256 s sessionId sessionBearer now) False s := by
  unfold allocateBearerAt
  refine wp_holdsToken (fun _ hno => .inl ⟨hno, rfl⟩) (fun _ hhold => .inr ⟨hhold, .inl rfl⟩)
    fun session hhold hget => ?_
  have hleft : Managed sha256 s sessionId sessionBearer now (s.reclaimed now) :=
    .inr ⟨hhold, .inl rfl⟩
  simp only [↓wp_rules, ↓wp_putSession]
  refine ⟨fun _ => hleft, fun _ => ⟨fun _ => hleft, fun _ => ?_⟩⟩
  refine Checked.wp_of_forall (fun id => ?_) (fun _ => hleft)
  refine Checked.wp_of_forall (fun target => ?_) (fun _ => hleft)
  have hput : Managed sha256 s sessionId sessionBearer now
      { s.reclaimed now with
        sessions := (s.reclaimed now).sessions.insert sessionId
          { session with callbacks := session.callbacks.insert id { eventIndex := none } } } :=
    .inr ⟨hhold, .put hget ⟨rfl, rfl, rfl, rfl, rfl, rfl⟩⟩
  exact ⟨fun _ => hput, fun _ => hput⟩

theorem poll_effect (sessionId : SessionId) (sessionBearer : Bytes) (after : EventCursor)
    (now : Nat) : wp (pollBearerAt sha256 sessionId sessionBearer after now)
      (fun _ => Managed sha256 s sessionId sessionBearer now)
      (fun _ => Managed sha256 s sessionId sessionBearer now) False s := by
  unfold pollBearerAt
  refine wp_holdsToken (fun _ hno => .inl ⟨hno, rfl⟩) (fun _ hhold => .inr ⟨hhold, .inl rfl⟩)
    fun session hhold hget => ?_
  have hleft : Managed sha256 s sessionId sessionBearer now (s.reclaimed now) :=
    .inr ⟨hhold, .inl rfl⟩
  simp only [↓wp_rules, ↓wp_putSession, ↓Checked.wp_okOr]
  refine ⟨fun _ => hleft, fun _ => ⟨fun polls _ => ?_, fun _ => hleft⟩⟩
  have hput : Managed sha256 s sessionId sessionBearer now
      { s.reclaimed now with
        sessions := (s.reclaimed now).sessions.insert sessionId { session with polls } } :=
    .inr ⟨hhold, .put hget ⟨rfl, rfl, rfl, rfl, rfl, rfl⟩⟩
  exact ⟨fun _ => hput, fun _ => hput⟩

theorem cleanup_effect (sessionId : SessionId) (sessionBearer : Bytes) (now : Nat)
    (r : Except ProviderError ProviderReply) :
    wp (cleanupBearerAt sha256 sessionId sessionBearer now)
      (fun _ => Effect sha256 s (.cleanup sessionId sessionBearer now) r)
      (fun _ => Effect sha256 s (.cleanup sessionId sessionBearer now) r) False s := by
  unfold cleanupBearerAt
  refine wp_holdsToken (fun _ hno => .inl ⟨hno, rfl⟩) (fun _ hhold => .inr ⟨hhold, .inl rfl⟩)
    fun session hhold hget => ?_
  simp only [↓wp_rules]
  exact ⟨fun _ => .inr ⟨hhold, .inr rfl⟩, fun _ => .inr ⟨hhold, .inl rfl⟩⟩

/-- A mark writes the session back. -/
theorem markIncomplete_effect {sessionId : SessionId} {session : SessionState}
    (hget : s.sessions[sessionId]? = some session) :
    Rewrites sessionId s { s with
      sessions := s.sessions.insert sessionId { session with eventRetentionIncomplete := true } } :=
  .put hget ⟨rfl, rfl, rfl, rfl, rfl, rfl⟩

theorem mark_effect (sessionId : SessionId) (callbackId : CallbackId) :
    wp (Oast.markCallbackObservationIncomplete sessionId callbackId) (fun _ => Rewrites sessionId s)
      (fun _ => Rewrites sessionId s) False s := by
  simp only [Oast.markCallbackObservationIncomplete, ↓wp_rules]
  cases hget : s.sessions[sessionId]? with
  | none => exact .inl rfl
  | some session =>
    simp only [↓wp_rules, markIncomplete, ↓wp_putSession]
    exact ⟨fun _ => markIncomplete_effect hget, fun _ => .inl rfl⟩

theorem retainNewEvent_effect {sessionId : SessionId} {session : SessionState}
    (hget : s.sessions[sessionId]? = some session) (callbackId : CallbackId)
    (eventId : Except ProviderError EventId) :
    wp (retainNewEvent sessionId session callbackId eventId) (fun _ => Rewrites sessionId s)
      (fun _ => Rewrites sessionId s) False s := by
  have hmark : ∀ failure : ProviderError, wp (markIncomplete sessionId session >>= fun _ =>
      (throw failure : ProviderCommand Unit)) (fun _ => Rewrites sessionId s)
      (fun _ => Rewrites sessionId s) False s := fun failure => markIncomplete_effect hget
  unfold retainNewEvent
  cases eventId with
  | error failure => exact hmark failure
  | ok eventId =>
    simp only
    cases checkedAdd u64Max session.nextCursor 1 with
    | none => exact hmark _
    | some nextCursor =>
      simp only
      cases EventCursor.new nextCursor with
      | error failure => exact hmark failure
      | ok cursor =>
        simp only
        cases session.callbacks[callbackId]? with
        | none => exact hmark _
        | some callback =>
          simp only [wp_putSession]
          exact .put hget ⟨rfl, rfl, rfl, rfl, rfl, rfl⟩

theorem observe_effect (sessionId : SessionId) (callbackId : CallbackId)
    (eventDraw : Option (RandomBytes 32)) (now : Nat) :
    wp (observeCallbackAt sessionId callbackId eventDraw now) (fun _ => Rewrites sessionId s)
      (fun _ => Rewrites sessionId s) False s := by
  simp only [observeCallbackAt, ↓wp_rules]
  cases hget : s.sessions[sessionId]? with
  | none => exact .inl rfl
  | some session =>
    have hmark := markIncomplete_effect hget
    simp only [↓wp_rules]
    refine ⟨fun _ => .inl rfl, fun _ => ?_⟩
    cases session.callbacks[callbackId]? with
    | none => exact .inl rfl
    | some callback =>
      simp only
      cases callback.eventIndex with
      | some index =>
        simp only [countDuplicate]
        cases session.events[index]? with
        | none =>
          simp only [markIncomplete, ↓wp_rules, ↓wp_putSession]
          exact hmark
        | some event =>
          simp only [markIncomplete, ↓wp_rules, ↓wp_putSession]
          exact ⟨fun _ => .put hget ⟨rfl, rfl, rfl, rfl, rfl, rfl⟩, fun _ => hmark⟩
      | none =>
        simp only [↓wp_rules, markIncomplete, ↓wp_putSession]
        exact ⟨fun _ => hmark, fun _ => retainNewEvent_effect hget callbackId _⟩

theorem register_effect (adminBearer : Bytes) (request : SessionRequest)
    (idDraws : Nat → Option (RandomBytes 16)) (tokenDraw : Option (RandomBytes 32)) (now : Nat) :
    wp (registerBearerAt sha256 adminBearer request idDraws tokenDraw now)
      (fun registration => Effect sha256 s (.register adminBearer request idDraws tokenDraw now)
        (.ok (.registered registration)))
      (fun e => Effect sha256 s (.register adminBearer request idDraws tokenDraw now) (.error e))
      False s := by
  unfold registerBearerAt
  simp only [↓wp_rules, ↓Checked.wp_okOr, ↓wp_reclaimSessionsAt, ↓wp_putSession]
  refine ⟨fun hno => .inl ⟨by simpa using hno, ⟨_, rfl⟩, rfl⟩, fun hyes => ?_⟩
  have hadmin : matchesAdmin sha256 s.adminDigest adminBearer = true := by simpa using hyes
  have hsame : ∀ e, Effect sha256 s (.register adminBearer request idDraws tokenDraw now) (.error e)
      s := fun e => .inr ⟨hadmin, .inl ⟨⟨e, rfl⟩, .inl rfl⟩⟩
  have hsw : ∀ e, Effect sha256 s (.register adminBearer request idDraws tokenDraw now) (.error e)
      (s.reclaimed now) := fun e => .inr ⟨hadmin, .inl ⟨⟨e, rfl⟩, .inr rfl⟩⟩
  refine Checked.wp_of_forall (fun _ => ?_) hsame
  refine ⟨fun expires hexpires => ⟨fun retain hretain => ⟨fun _ => hsw _, fun _ => ?_⟩,
    fun _ => hsame _⟩, fun _ => hsame _⟩
  obtain ⟨-, rfl⟩ := checkedAdd_eq_some.mp hexpires
  obtain ⟨-, rfl⟩ := checkedAdd_eq_some.mp hretain
  refine Checked.wp_mono (@uniqueId_spec .session _ idDraws idGenerationAttempts) (fun id hfree => ?_)
    (fun e _ => hsw e)
  refine Checked.wp_of_forall (fun token => ⟨fun htaken => ?_, fun _ => ?_⟩) hsw
  · rw [hfree] at htaken
    cases htaken
  · have hfree : (s.reclaimed now).sessions.contains id = false := hfree
    have hnew : (s.reclaimed now).sessions[id]? = none :=
      get_of_not_contains (by rw [hfree]; exact Bool.false_ne_true)
    exact .inr ⟨hadmin, .inr ⟨_, _, rfl, hnew, rfl, rfl, rfl⟩⟩

/-- **What every call does.** -/
theorem exec_effect (op : ProviderOp) :
    wp (op.exec sha256) (fun r => Effect sha256 s op (.ok r)) (fun e => Effect sha256 s op (.error e))
      False s := by
  cases op with
  | register adminBearer request idDraws tokenDraw now =>
    rw [ProviderOp.exec, wp_map]
    exact register_effect adminBearer request idDraws tokenDraw now
  | allocate sessionId sessionBearer idDraws now =>
    rw [ProviderOp.exec, wp_map]
    exact allocate_effect sessionId sessionBearer idDraws now
  | observeCallback sessionId callbackId eventDraw now =>
    rw [ProviderOp.exec, wp_map]
    exact observe_effect sessionId callbackId eventDraw now
  | markCallbackObservationIncomplete sessionId callbackId =>
    rw [ProviderOp.exec, wp_map]
    exact mark_effect sessionId callbackId
  | poll sessionId sessionBearer after now =>
    rw [ProviderOp.exec, wp_map]
    exact poll_effect sessionId sessionBearer after now
  | cleanup sessionId sessionBearer now =>
    rw [ProviderOp.exec, wp_map]
    exact wp_mono (cleanup_effect sessionId sessionBearer now (.ok .removed)) (fun _ _ h => h)
      (fun _ _ h => h) id

end Calls

/-! ### What becomes of a session -/

section Fates

variable {sha256 : Bytes → Bytes} {s t : ProviderState} {sessionId another : SessionId}
  {session : SessionState} {now : Nat}

/-- The sweep leaves a session, or its deadline was reached. -/
theorem kept_or_swept (now : Nat) (hget : s.sessions[sessionId]? = some session) :
    (s.reclaimed now).sessions[sessionId]? = some session ∨
      (session.retainUntilMillis ≤ now ∧ (s.reclaimed now).sessions[sessionId]? = none) := by
  by_cases hlive : now < session.retainUntilMillis
  · exact .inl ((get_reclaimed now sessionId session).mpr ⟨hget, hlive⟩)
  · refine .inr ⟨Nat.le_of_not_lt hlive, ?_⟩
    cases hsw : (s.reclaimed now).sessions[sessionId]? with
    | none => rfl
    | some found =>
      obtain ⟨hfnd, hkept⟩ := (get_reclaimed now sessionId found).mp hsw
      rw [hget, some.injEq] at hfnd
      exact absurd (hfnd ▸ hkept) hlive

theorem reclaimed_none (now : Nat) (hget : s.sessions[sessionId]? = none) :
    (s.reclaimed now).sessions[sessionId]? = none := by
  cases hsw : (s.reclaimed now).sessions[sessionId]? with
  | none => rfl
  | some found =>
    obtain ⟨hfnd, -⟩ := (get_reclaimed now sessionId found).mp hsw
    rw [hget] at hfnd
    cases hfnd

theorem SameTerm.refl (session : SessionState) : SameTerm session session :=
  ⟨rfl, rfl, rfl, rfl, rfl, rfl⟩

theorem Rewrites.other (h : Rewrites sessionId s t) (hne : another ≠ sessionId) :
    t.sessions[another]? = s.sessions[another]? := by
  rcases h with rfl | ⟨old, new, -, -, rfl⟩
  · rfl
  · exact get_insert_ne _ (Ne.symm hne)

theorem Rewrites.own (h : Rewrites sessionId s t) (hget : s.sessions[sessionId]? = some session) :
    ∃ new, t.sessions[sessionId]? = some new ∧ SameTerm session new := by
  rcases h with rfl | ⟨old, new, hold, hterm, rfl⟩
  · exact ⟨session, hget, .refl session⟩
  · rw [hget, some.injEq] at hold
    exact ⟨new, get_insert_self _ _ _, hold ▸ hterm⟩

theorem Rewrites.absent (h : Rewrites sessionId s t) (hget : s.sessions[another]? = none) :
    t.sessions[another]? = none := by
  rcases h with rfl | ⟨old, new, hold, -, rfl⟩
  · exact hget
  · have hne : sessionId ≠ another := by
      rintro rfl
      rw [hget] at hold
      cases hold
    exact (get_insert_ne _ hne).trans hget

theorem Rewrites.config (h : Rewrites sessionId s t) : t.limits = s.limits ∧
    t.publicOrigin = s.publicOrigin ∧ t.adminDigest = s.adminDigest := by
  rcases h with rfl | ⟨old, new, -, -, rfl⟩ <;> exact ⟨rfl, rfl, rfl⟩

end Fates

/-! ### Isolation -/

/-- The call registered the session. -/
def Registers (op : ProviderOp) (r : Except ProviderError ProviderReply) (sessionId : SessionId) :
    Prop :=
  op.target = none ∧ ∃ registration, r = .ok (.registered registration) ∧
    registration.sessionId = sessionId

/-- When and for how long every session was registered. -/
abbrev Terms : Type := SessionId → Nat × Nat

/-- The terms with one more call. -/
def noteTerm (_ : ProviderState) (op : ProviderOp) (r : Except ProviderError ProviderReply)
    (terms : Terms) : Terms :=
  match op, r with
  | .register _ request _ _ now, .ok (.registered registration) =>
    Function.update terms registration.sessionId (now, request.lifetimeMs)
  | _, _ => terms

/-- The retention deadline of every session is fixed by its registration. -/
def Termed (terms : Terms) (s : ProviderState) : Prop :=
  ∀ (sessionId : SessionId) (session : SessionState), s.sessions[sessionId]? = some session →
    session.retainUntilMillis = (terms sessionId).1 + (terms sessionId).2 + 120000

/-- What a call may do to the sessions. -/
structure Isolated (sha256 : Bytes → Bytes) (s : ProviderState) (op : ProviderOp)
    (r : Except ProviderError ProviderReply) (t : ProviderState) : Prop where
  config : t.limits = s.limits ∧ t.publicOrigin = s.publicOrigin ∧ t.adminDigest = s.adminDigest
  refused : op.management = true → ¬ Authentic sha256 s op → t = s
  observed : op.management = false → ∀ sessionId, op.target = some sessionId →
    (∀ other, other ≠ sessionId → t.sessions[other]? = s.sessions[other]?) ∧
    (s.sessions[sessionId]? = none → t.sessions[sessionId]? = none) ∧
    ∀ session, s.sessions[sessionId]? = some session →
      ∃ new, t.sessions[sessionId]? = some new ∧ SameTerm session new
  other : ∀ sessionId session, op.target ≠ some sessionId → s.sessions[sessionId]? = some session →
    t.sessions[sessionId]? = some session ∨
      (Authentic sha256 s op ∧ session.retainUntilMillis ≤ op.managedAt ∧
        (t.sessions[sessionId]? = none ∨ Registers op r sessionId))
  own : ∀ sessionId session, op.target = some sessionId → s.sessions[sessionId]? = some session →
    (∃ new, t.sessions[sessionId]? = some new ∧ SameTerm session new) ∨
      (Authentic sha256 s op ∧ t.sessions[sessionId]? = none ∧
        (session.retainUntilMillis ≤ op.managedAt ∨
          ∃ sessionBearer now, op = .cleanup sessionId sessionBearer now))
  created : ∀ sessionId : SessionId, s.sessions[sessionId]? = none →
    t.sessions[sessionId]? = none ∨ (Authentic sha256 s op ∧ Registers op r sessionId)

section Step

variable {sha256 : Bytes → Bytes} {s t : ProviderState}
  {r : Except ProviderError ProviderReply}

variable {op : ProviderOp}

/-- A refused call. -/
theorem Isolated.same : Isolated sha256 s op r s where
  config := ⟨rfl, rfl, rfl⟩
  refused := fun _ _ => rfl
  observed := fun _ _ _ => ⟨fun _ _ => rfl, id, fun session hget => ⟨session, hget, .refl session⟩⟩
  other := fun _ _ _ hget => .inl hget
  own := fun _ session _ hget => .inl ⟨session, hget, .refl session⟩
  created := fun _ hget => .inl hget

/-- A public call writes its own session back. -/
theorem Isolated.public {sessionId : SessionId} (hop : op.management = false)
    (htgt : op.target = some sessionId) (h : Rewrites sessionId s t) :
    Isolated sha256 s op r t where
  config := h.config
  refused := fun hman => by rw [hop] at hman; cases hman
  observed := fun _ id hid => by
    obtain rfl := some.inj (htgt.symm.trans hid)
    exact ⟨fun _ hne => h.other hne, h.absent, fun _ => h.own⟩
  other := fun id session hid hget => by
    rw [htgt, ne_eq, some.injEq] at hid
    exact .inl ((h.other (Ne.symm hid)).trans hget)
  own := fun id session hid hget => by
    obtain rfl := some.inj (htgt.symm.trans hid)
    exact .inl (h.own hget)
  created := fun _ hget => .inl (h.absent hget)

/-- An authenticated call on a session sweeps, and writes its own session back. -/
theorem Isolated.managed {sessionId : SessionId} {now : Nat}
    (hop : op.management = true) (htgt : op.target = some sessionId) (hnow : op.managedAt = now)
    (hauth : Authentic sha256 s op) (h : Rewrites sessionId (s.reclaimed now) t) :
    Isolated sha256 s op r t where
  config := h.config
  refused := fun _ hno => absurd hauth hno
  observed := fun hpublic => by rw [hop] at hpublic; cases hpublic
  other := fun id session hid hget => by
    rw [htgt, ne_eq, some.injEq] at hid
    rw [h.other (Ne.symm hid), hnow]
    exact (kept_or_swept now hget).imp_right fun hsw => ⟨hauth, hsw.1, .inl hsw.2⟩
  own := fun id session hid hget => by
    obtain rfl := some.inj (htgt.symm.trans hid)
    rw [hnow]
    exact (kept_or_swept now hget).imp h.own
      fun hsw => ⟨hauth, h.absent hsw.2, .inl hsw.1⟩
  created := fun id hget => .inl (h.absent (reclaimed_none now hget))

theorem Isolated.cleaned {sessionId : SessionId} {sessionBearer : Bytes} {now : Nat}
    (hauth : HoldsToken sha256 s sessionId sessionBearer)
    (h : t = s.reclaimed now ∨
      t = { s.reclaimed now with sessions := (s.reclaimed now).sessions.erase sessionId }) :
    Isolated sha256 s (.cleanup sessionId sessionBearer now) r t := by
  rcases h with rfl | rfl
  · exact .managed rfl rfl rfl hauth (.inl rfl)
  · have hoth : ∀ id, id ≠ sessionId → ((s.reclaimed now).sessions.erase sessionId)[id]? =
        (s.reclaimed now).sessions[id]? := fun id hne => by
      rw [get_erase, if_neg (Ne.symm hne)]
    have hgone : ((s.reclaimed now).sessions.erase sessionId)[sessionId]? = none := by
      rw [get_erase, if_pos rfl]
    refine { config := ⟨rfl, rfl, rfl⟩, refused := fun _ hno => absurd hauth hno,
             observed := fun hpublic => (by cases hpublic), other := ?_, own := ?_, created := ?_ }
    · intro id session hid hget
      rw [ProviderOp.target, ne_eq, some.injEq] at hid
      rw [hoth id (Ne.symm hid)]
      exact (kept_or_swept now hget).imp_right fun hsw => ⟨hauth, hsw.1, .inl hsw.2⟩
    · rintro id session hid -
      cases hid
      exact .inr ⟨hauth, hgone, .inr ⟨sessionBearer, now, rfl⟩⟩
    · intro id hget
      refine .inl ?_
      by_cases hid : id = sessionId
      · rw [hid]
        exact hgone
      · rw [hoth id hid]
        exact reclaimed_none now hget

theorem Isolated.swept {adminBearer : Bytes} {request : SessionRequest}
    {idDraws : Nat → Option (RandomBytes 16)} {tokenDraw : Option (RandomBytes 32)} {now : Nat}
    (hadmin : matchesAdmin sha256 s.adminDigest adminBearer = true) :
    Isolated sha256 s (.register adminBearer request idDraws tokenDraw now) r (s.reclaimed now) where
  config := ⟨rfl, rfl, rfl⟩
  refused := fun _ hno => absurd hadmin hno
  observed := fun hpublic => by cases hpublic
  other := fun id session _ hget => (kept_or_swept now hget).imp_right
    fun hsw => ⟨hadmin, hsw.1, .inl hsw.2⟩
  own := fun id session hid => by cases hid
  created := fun id hget => .inl (reclaimed_none now hget)

theorem Isolated.registered {adminBearer : Bytes} {request : SessionRequest}
    {idDraws : Nat → Option (RandomBytes 16)} {tokenDraw : Option (RandomBytes 32)} {now : Nat}
    {registration : SessionRegistration} {session : SessionState}
    (hadmin : matchesAdmin sha256 s.adminDigest adminBearer = true)
    (hfree : (s.reclaimed now).sessions[registration.sessionId]? = none) :
    Isolated sha256 s (.register adminBearer request idDraws tokenDraw now)
      (.ok (.registered registration))
      { s.reclaimed now with
        sessions := (s.reclaimed now).sessions.insert registration.sessionId session } := by
  have hreg : Registers (.register adminBearer request idDraws tokenDraw now)
      (.ok (.registered registration)) registration.sessionId := ⟨rfl, registration, rfl, rfl⟩
  refine { config := ⟨rfl, rfl, rfl⟩, refused := fun _ hno => absurd hadmin hno,
           observed := fun hpublic => (by cases hpublic), other := ?_,
           own := fun id session hid => (by cases hid), created := ?_ }
  · intro id old _ hget
    by_cases hid : registration.sessionId = id
    · subst hid
      rcases kept_or_swept now hget with hkept | hsw
      · rw [hfree] at hkept
        cases hkept
      · exact .inr ⟨hadmin, hsw.1, .inr hreg⟩
    · rw [get_insert_ne _ hid]
      exact (kept_or_swept now hget).imp_right fun hsw => ⟨hadmin, hsw.1, .inl hsw.2⟩
  · intro id hget
    by_cases hid : registration.sessionId = id
    · subst hid
      exact .inr ⟨hadmin, hreg⟩
    · rw [get_insert_ne _ hid]
      exact .inl (reclaimed_none now hget)

/-- **One call.** Whatever a call does to the provider keeps the sessions
isolated. -/
theorem isolated_of_effect (h : Effect sha256 s op r t) :
    Isolated sha256 s op r t := by
  cases op with
  | register adminBearer request idDraws tokenDraw now =>
    rcases h with ⟨-, -, rfl⟩ | ⟨hadmin, ⟨-, rfl | rfl⟩ | ⟨registration, session, rfl, hfree, -, -, rfl⟩⟩
    · exact .same
    · exact .same
    · exact .swept hadmin
    · exact .registered hadmin hfree
  | allocate sessionId sessionBearer idDraws now =>
    rcases h with ⟨-, rfl⟩ | ⟨hhold, hrewr⟩
    · exact .same
    · exact .managed rfl rfl rfl hhold hrewr
  | observeCallback sessionId callbackId eventDraw now => exact .public rfl rfl h
  | markCallbackObservationIncomplete sessionId callbackId => exact .public rfl rfl h
  | poll sessionId sessionBearer after now =>
    rcases h with ⟨-, rfl⟩ | ⟨hhold, hrewr⟩
    · exact .same
    · exact .managed rfl rfl rfl hhold hrewr
  | cleanup sessionId sessionBearer now =>
    rcases h with ⟨-, rfl⟩ | ⟨hhold, hcleaned⟩
    · exact .same
    · exact .cleaned hhold hcleaned

/-! ### Deadlines -/

variable {terms : Terms}

/-- No call but a registration gives a session a deadline. -/
theorem Termed.kept (h : Termed terms s) (hisol : Isolated sha256 s op r t)
    (hr : ∀ sessionId, ¬ Registers op r sessionId) : Termed terms t := by
  intro sessionId session hget
  cases hold : s.sessions[sessionId]? with
  | none =>
    rcases hisol.created sessionId hold with hnone | ⟨-, hreg⟩
    · rw [hget] at hnone
      cases hnone
    · exact absurd hreg (hr sessionId)
  | some old =>
    have hterm := h sessionId old hold
    by_cases htgt : op.target = some sessionId
    · rcases hisol.own sessionId old htgt hold with ⟨new, hnew, hsame⟩ | ⟨-, hnone, -⟩
      · rw [hget, some.injEq] at hnew
        rw [hnew, hsame.retainUntilMillis, hterm]
      · rw [hget] at hnone
        cases hnone
    · rcases hisol.other sessionId old htgt hold with hkept | ⟨-, -, hnone | hreg⟩
      · rw [hget, some.injEq] at hkept
        rw [hkept, hterm]
      · rw [hget] at hnone
        cases hnone
      · exact absurd hreg (hr sessionId)

theorem not_registers_of_error {e : ProviderError} (sessionId : SessionId) :
    ¬ Registers op (.error e) sessionId := by
  rintro ⟨-, registration, hr, -⟩
  cases hr

theorem not_registers_of_target {target : SessionId}
    (h : op.target = some target) (sessionId : SessionId) : ¬ Registers op r sessionId := by
  rintro ⟨hnone, -⟩
  rw [h] at hnone
  cases hnone

/-- A registration gives its session the deadline of its term. -/
theorem termed_of_effect (h : Termed terms s) (heffect : Effect sha256 s op r t) :
    Termed (noteTerm s op r terms) t := by
  have hisol := isolated_of_effect heffect
  cases op with
  | register adminBearer request idDraws tokenDraw now =>
    rcases heffect with ⟨-, ⟨e, rfl⟩, -⟩ | ⟨hadmin, ⟨⟨e, rfl⟩, -⟩ | ⟨registration, session, rfl, hfree, -,
      hretain, rfl⟩⟩
    · exact h.kept hisol not_registers_of_error
    · exact h.kept hisol not_registers_of_error
    · intro id found hget
      by_cases hid : registration.sessionId = id
      · subst hid
        rw [get_insert_self, some.injEq] at hget
        rw [← hget, hretain, noteTerm, Function.update_self]
        rfl
      · rw [get_insert_ne _ hid] at hget
        rw [noteTerm, Function.update_of_ne (Ne.symm hid)]
        exact h id found ((get_reclaimed now id found).mp hget).1
  | allocate => exact h.kept hisol (not_registers_of_target rfl)
  | observeCallback => exact h.kept hisol (not_registers_of_target rfl)
  | markCallbackObservationIncomplete => exact h.kept hisol (not_registers_of_target rfl)
  | poll => exact h.kept hisol (not_registers_of_target rfl)
  | cleanup => exact h.kept hisol (not_registers_of_target rfl)

end Step

/-! ### Runs -/

section Runs

variable (sha256 : Bytes → Bytes) (limits : ProviderLimits) (origin : PublicOrigin)
  (admin : Bytes)

/-- A run of calls on a new provider, with the terms of its sessions. -/
def termsRun (ops : List ProviderOp) : Option (Terms × ProviderState) :=
  runNoting (ProviderOp.exec sha256) noteTerm (fun _ => (0, 0))
    (ProviderState.new sha256 limits origin admin) ops

/-- **Sessions are isolated.** In every state that a run of calls reaches, the
retention deadline of a session is the time of its registration, its lifetime
and 120000 milliseconds. Every next call returns. Without the credential of the
administrator or of the addressed session, a management call leaves the state
as it is; a public callback removes, creates or extends no session and changes
only its own; and any call changes a session it is not addressed to only by
removing it at or after its deadline. No session loses its deadline, and none
is removed before it but by its own authenticated cleanup. -/
theorem sessions_isolated (ops : List ProviderOp) : ∃ terms s,
    termsRun sha256 limits origin admin ops = some (terms, s) ∧ Termed terms s ∧
    ∀ op : ProviderOp, ∃ r t, reply (op.exec sha256) s = some (r, t) ∧ Isolated sha256 s op r t := by
  have hrun : ∃ q, termsRun sha256 limits origin admin ops = some q ∧ Termed q.1 q.2 := by
    refine runNoting_total (J := Termed) (fun op terms s h => ?_) ops fun sessionId session hget => ?_
    · exact wp_mono (exec_effect op) (fun _ _ => termed_of_effect h) (fun _ _ => termed_of_effect h) id
    · simp [ProviderState.new] at hget
  obtain ⟨⟨terms, s⟩, hrun, htermed⟩ := hrun
  refine ⟨terms, s, hrun, htermed, fun op => ?_⟩
  obtain ⟨hok, herr, hpanic⟩ := wp_iff_reply.mp (exec_effect op)
  rcases hrep : reply (op.exec sha256) s with _ | ⟨r, t⟩
  · exact (hpanic hrep).elim
  · refine ⟨r, t, rfl, isolated_of_effect ?_⟩
    cases r with
    | ok b => exact hok b t hrep
    | error e => exact herr e t hrep

end Runs

end Termivar.Oast
