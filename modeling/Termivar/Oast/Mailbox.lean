/-
# The mailbox of a session

What the provider keeps of a session over any run: its events carry the
cursors 1, 2, 3, ... and each belongs to one allocated callback, the bounds
hold, and the pages of a chain of polls are the events up to its cursor. The
history of a session since its registration is kept beside the state: the
callbacks hit before its expiry, whether a hit was lost, its polls.
-/
import Termivar.Oast.Provider

namespace Termivar.Oast

open Command ProviderError List Function

/-! ### Histories -/

/-- What happened to a session since its registration. -/
structure Life where
  observed : List CallbackId := []
  dropped : Bool := false
  polls : List (EventCursor × PollResponse) := []

/-- The session and the callback a hit meets before the session's expiry. -/
def liveCallback (s : ProviderState) (sessionId : SessionId) (callbackId : CallbackId) (now : Nat) :
    Option (SessionState × CallbackState) :=
  match s.sessions[sessionId]? with
  | none => none
  | some session =>
    if now ≥ session.expiresAtMillis then none
    else session.callbacks[callbackId]?.map fun callback => (session, callback)

/-- The hit left no trace: no room for its event, no identity for it, or its
duplicates are no longer counted. -/
def hitLost (session : SessionState) (callback : CallbackState) :
    Except ProviderError ProviderReply → Bool
  | .error _ => true
  | .ok (.observed .capacityExhausted) => true
  | .ok (.observed .duplicateSuppressed) =>
    (callback.eventIndex.bind fun index => session.events[index]?).any fun event =>
      event.duplicateCount ≥ maxDuplicateHits
  | .ok _ => false

/-- The history with one more call. -/
def note (s : ProviderState) (op : ProviderOp) (reply : Except ProviderError ProviderReply)
    (lives : SessionId → Life) : SessionId → Life :=
  match op, reply with
  | .register .., .ok (.registered registration) => update lives registration.sessionId {}
  | .observeCallback sessionId callbackId _ now, reply =>
    match liveCallback s sessionId callbackId now with
    | none => lives
    | some (session, callback) => update lives sessionId
      { lives sessionId with
        observed := (lives sessionId).observed ++ [callbackId]
        dropped := (lives sessionId).dropped || hitLost session callback reply }
  | .markCallbackObservationIncomplete sessionId callbackId, _ =>
    if s.sessions[sessionId]?.any fun session => session.callbacks.contains callbackId then
      update lives sessionId { lives sessionId with dropped := true }
    else lives
  | .poll sessionId _ after _, .ok (.polled page) => update lives sessionId
    { lives sessionId with polls := (lives sessionId).polls ++ [(after, page)] }
  | _, _ => lives

/-- Each poll asks for what comes after the page before it. -/
def Follows : Nat → List (EventCursor × PollResponse) → Prop
  | _, [] => True
  | cursor, (after, page) :: rest => after.value = cursor ∧ Follows page.nextCursor.value rest

instance : ∀ (cursor : Nat) (chain : List (EventCursor × PollResponse)),
    Decidable (Follows cursor chain)
  | _, [] => isTrue trivial
  | cursor, (after, page) :: rest =>
    have := instDecidableFollows page.nextCursor.value rest
    inferInstanceAs (Decidable (after.value = cursor ∧ Follows page.nextCursor.value rest))

/-- Where a chain of polls ends. -/
def chainEnd : Nat → List (EventCursor × PollResponse) → Nat
  | cursor, [] => cursor
  | _, (_, page) :: rest => chainEnd page.nextCursor.value rest

/-- The callbacks whose events the pages of a chain hold. -/
def chainCallbacks (chain : List (EventCursor × PollResponse)) : List CallbackId :=
  chain.flatMap fun poll => poll.2.events.map HttpEventRecord.callbackId

theorem follows_snoc : ∀ {cursor : Nat} {chain : List (EventCursor × PollResponse)}
    {poll : EventCursor × PollResponse}, Follows cursor (chain ++ [poll]) ↔
      Follows cursor chain ∧ poll.1.value = chainEnd cursor chain
  | cursor, [], poll => by simp [Follows, chainEnd]
  | cursor, (after, page) :: rest, poll => by
    simp only [cons_append, Follows, chainEnd, @follows_snoc _ rest]
    tauto

theorem chainEnd_snoc : ∀ (cursor : Nat) (chain : List (EventCursor × PollResponse))
    (poll : EventCursor × PollResponse), chainEnd cursor (chain ++ [poll]) = poll.2.nextCursor.value
  | _, [], _ => rfl
  | _, (_, page) :: rest, poll => chainEnd_snoc page.nextCursor.value rest poll

/-! ### The invariant -/

/-- The events carry the cursors 1, 2, 3, ... in order; callbacks and events
name each other; the bounds of the session hold. -/
structure SessionOK (limits : ProviderLimits) (session : SessionState) : Prop where
  cursors : ∀ (i : Nat) (event : StoredEvent), session.events[i]? = some event →
    event.cursor.value = i + 1
  nextCursor : session.nextCursor = session.events.length
  owned : ∀ (callbackId : CallbackId) (callback : CallbackState) (i : Nat),
    session.callbacks[callbackId]? = some callback → callback.eventIndex = some i →
    ∃ event, session.events[i]? = some event ∧ event.callbackId = callbackId
  owner : ∀ (i : Nat) (event : StoredEvent), session.events[i]? = some event →
    session.callbacks[event.callbackId]? = some ⟨some i⟩
  duplicates : ∀ event ∈ session.events, event.duplicateCount ≤ maxDuplicateHits
  callbackBound : session.callbacks.size ≤ session.maxCallbacks
  eventBound : session.events.length ≤ session.maxEvents
  pollBound : session.polls ≤ session.maxPolls
  requested : session.maxCallbacks ≤ limits.maxCallbacksPerSession ∧
    session.maxEvents ≤ limits.maxEventsPerSession ∧ session.maxPolls ≤ limits.maxPollsPerSession

/-- The session keeps what its history says: an event for every callback hit,
unless it is marked incomplete, and the pages of every chain of polls. -/
structure LifeOK (life : Life) (session : SessionState) : Prop where
  recorded : ∀ event ∈ session.events, event.callbackId ∈ life.observed
  observed : session.eventRetentionIncomplete = false → ∀ callbackId ∈ life.observed,
    ∃ i, session.callbacks[callbackId]? = some ⟨some i⟩
  dropped : life.dropped = true → session.eventRetentionIncomplete = true
  pages : ∀ chain, List.Sublist chain life.polls → Follows 0 chain →
    chainCallbacks chain = (session.events.map StoredEvent.callbackId).take (chainEnd 0 chain) ∧
      chainEnd 0 chain ≤ session.events.length

/-- The invariant of the provider and its histories. -/
structure Sound (lives : SessionId → Life) (s : ProviderState) : Prop where
  capacity : s.sessions.size ≤ s.limits.maxActiveSessions
  session : ∀ (sessionId : SessionId) (session : SessionState),
    s.sessions[sessionId]? = some session →
    SessionOK s.limits session ∧ LifeOK (lives sessionId) session

section Sound

variable {lives : SessionId → Life} {s : ProviderState}

/-- The provider after the sessions past their retention are gone. -/
def ProviderState.reclaimed (s : ProviderState) (now : Nat) : ProviderState :=
  { s with sessions := s.sessions.filter fun _ session => now < session.retainUntilMillis }

theorem get_reclaimed (now : Nat) (sessionId : SessionId) (session : SessionState) :
    (s.reclaimed now).sessions[sessionId]? = some session ↔
      s.sessions[sessionId]? = some session ∧ now < session.retainUntilMillis := by
  unfold ProviderState.reclaimed
  simp [Std.ExtTreeMap.getElem?_filter, Option.filter_eq_some_iff]

theorem Sound.reclaimed (h : Sound lives s) (now : Nat) : Sound lives (s.reclaimed now) := by
  constructor
  · have hsize : (s.reclaimed now).sessions.size ≤ s.sessions.size :=
      Std.ExtTreeMap.size_filter_le_size
    exact hsize.trans h.capacity
  · intro sessionId session hget
    exact h.session sessionId session ((get_reclaimed now sessionId session).mp hget).1

variable {sessionId : SessionId}

/-- A session is written, and there is room for it. -/
theorem Sound.write (h : Sound lives s) {session : SessionState} {life : Life}
    (hroom : (s.sessions.insert sessionId session).size ≤ s.limits.maxActiveSessions)
    (hok : SessionOK s.limits session ∧ LifeOK life session) :
    Sound (update lives sessionId life)
      { s with sessions := s.sessions.insert sessionId session } := by
  refine ⟨hroom, fun other found hget => ?_⟩
  by_cases hid : sessionId = other
  · subst hid
    rw [get_insert_self] at hget
    cases hget
    rw [update_self]
    exact hok
  · rw [get_insert_ne _ hid] at hget
    rw [update_of_ne (Ne.symm hid)]
    exact h.session other found hget

/-- A session that is there is written back. -/
theorem Sound.put (h : Sound lives s) {old session : SessionState} {life : Life}
    (hold : s.sessions[sessionId]? = some old)
    (hok : SessionOK s.limits session ∧ LifeOK life session) :
    Sound (update lives sessionId life)
      { s with sessions := s.sessions.insert sessionId session } := by
  refine h.write ?_ hok
  rw [size_insert_old session hold]
  exact h.capacity

/-- A session is written back that keeps its history. -/
theorem Sound.put_same (h : Sound lives s) {old session : SessionState}
    (hold : s.sessions[sessionId]? = some old)
    (hok : SessionOK s.limits session ∧ LifeOK (lives sessionId) session) :
    Sound lives { s with sessions := s.sessions.insert sessionId session } := by
  have hput := h.put hold hok
  rwa [update_eq_self] at hput

end Sound

/-! ### What a call does to a session -/

section Sessions

variable {limits : ProviderLimits} {session : SessionState} {life : Life}

variable {callbackId : CallbackId}

theorem SessionOK.allocated (h : SessionOK limits session)
    (hnew : session.callbacks[callbackId]? = none)
    (hroom : session.callbacks.size < session.maxCallbacks) :
    SessionOK limits
      { session with callbacks := session.callbacks.insert callbackId { eventIndex := none } } := by
  refine
    { h with
      owned := fun other callback i hget hi => ?_
      owner := fun i event hev => ?_
      callbackBound := ?_ }
  · by_cases hid : callbackId = other
    · subst hid
      rw [get_insert_self] at hget
      cases hget
      cases hi
    · rw [get_insert_ne _ hid] at hget
      exact h.owned other callback i hget hi
  · have howner := h.owner i event hev
    have hne : callbackId ≠ event.callbackId := by
      intro heq
      rw [← heq, hnew] at howner
      cases howner
    exact (get_insert_ne _ hne).trans howner
  · show (session.callbacks.insert callbackId _).size ≤ session.maxCallbacks
    rw [size_insert_new _ hnew]
    omega

theorem LifeOK.allocated (h : LifeOK life session) (hnew : session.callbacks[callbackId]? = none) :
    LifeOK life
      { session with callbacks := session.callbacks.insert callbackId { eventIndex := none } } := by
  refine { h with observed := fun hcomp other hmem => ?_ }
  obtain ⟨i, hi⟩ := h.observed hcomp other hmem
  have hne : callbackId ≠ other := by
    intro heq
    rw [← heq, hnew] at hi
    cases hi
  exact ⟨i, (get_insert_ne _ hne).trans hi⟩

/-- A lost hit. -/
theorem LifeOK.lost (h : LifeOK life session) (observed : List CallbackId) (dropped : Bool) :
    LifeOK { life with observed := life.observed ++ observed, dropped }
      { session with eventRetentionIncomplete := true } where
  recorded event hmem := mem_append_left _ (h.recorded event hmem)
  observed hcomp := by cases hcomp
  dropped _ := rfl
  pages := h.pages

theorem SessionOK.incomplete (h : SessionOK limits session) :
    SessionOK limits { session with eventRetentionIncomplete := true } := { h with }

/-- One more hit of a callback that has an event. -/
theorem SessionOK.duplicate (h : SessionOK limits session) {index : Nat} {event : StoredEvent}
    (hev : session.events[index]? = some event) (hroom : event.duplicateCount < maxDuplicateHits) :
    SessionOK limits { session with
      events := session.events.set index { event with duplicateCount := event.duplicateCount + 1 } } := by
  have hset : ∀ (i : Nat) (found : StoredEvent),
      (session.events.set index { event with duplicateCount := event.duplicateCount + 1 })[i]? =
        some found → ∃ before, session.events[i]? = some before ∧ found.cursor = before.cursor ∧
          found.callbackId = before.callbackId ∧ found.duplicateCount ≤ maxDuplicateHits := by
    intro i found hget
    rw [getElem?_set] at hget
    by_cases hi : index = i
    · subst hi
      have hlt : index < session.events.length := (List.getElem?_eq_some_iff.mp hev).1
      rw [if_pos rfl, if_pos hlt] at hget
      cases hget
      exact ⟨event, hev, rfl, rfl, hroom⟩
    · rw [if_neg hi] at hget
      exact ⟨found, hget, rfl, rfl, h.duplicates found (mem_of_getElem? hget)⟩
  refine
    { h with
      cursors := fun i found hget => ?_
      nextCursor := by simp [h.nextCursor]
      owned := fun callbackId callback i hget hi => ?_
      owner := fun i found hget => ?_
      duplicates := fun found hmem => ?_
      eventBound := by simpa using h.eventBound }
  · obtain ⟨before, hbef, hcursor, -, -⟩ := hset i found hget
    rw [hcursor]
    exact h.cursors i before hbef
  · obtain ⟨before, hbef, howner⟩ := h.owned callbackId callback i hget hi
    by_cases hidx : index = i
    · subst hidx
      rw [hev] at hbef
      cases hbef
      have hlt : index < session.events.length := (List.getElem?_eq_some_iff.mp hev).1
      exact ⟨{ event with duplicateCount := event.duplicateCount + 1 },
        by rw [getElem?_set, if_pos rfl, if_pos hlt], howner⟩
    · exact ⟨before, by rw [getElem?_set, if_neg hidx]; exact hbef, howner⟩
  · obtain ⟨before, hbef, -, hcb, -⟩ := hset i found hget
    rw [hcb]
    exact h.owner i before hbef
  · obtain ⟨i, hget⟩ := mem_iff_getElem?.mp hmem
    obtain ⟨-, -, -, -, hbd⟩ := hset i found hget
    exact hbd

theorem LifeOK.duplicate (h : LifeOK life session) {index : Nat}
    {event : StoredEvent} (hev : session.events[index]? = some event) (count : Nat)
    (hcb : session.callbacks[callbackId]? = some ⟨some index⟩) :
    LifeOK { life with observed := life.observed ++ [callbackId] }
      { session with events := session.events.set index { event with duplicateCount := count } } := by
  have hmap : (session.events.set index { event with duplicateCount := count }).map
      StoredEvent.callbackId = session.events.map StoredEvent.callbackId :=
    map_set_same hev rfl
  refine
    { recorded := fun found hmem => ?_
      observed := fun hcomp other hmem => ?_
      dropped := h.dropped
      pages := fun chain hsub hfoll => ?_ }
  · have hid : found.callbackId ∈ session.events.map StoredEvent.callbackId := by
      rw [← hmap]
      exact mem_map_of_mem hmem
    obtain ⟨before, hbef, heq⟩ := mem_map.mp hid
    rw [← heq]
    exact mem_append_left _ (h.recorded before hbef)
  · rcases mem_append.mp hmem with hmem | hmem
    · exact h.observed hcomp other hmem
    · rw [mem_singleton.mp hmem]
      exact ⟨index, hcb⟩
  · obtain ⟨hpages, hend⟩ := h.pages chain hsub hfoll
    exact ⟨by rw [hpages, hmap], by simpa using hend⟩

/-- The first hit of a callback is an event. -/
theorem SessionOK.event (h : SessionOK limits session) {callbackId : CallbackId} {event : StoredEvent}
    (hcb : session.callbacks[callbackId]? = some ⟨none⟩) (hid : event.callbackId = callbackId)
    (hcursor : event.cursor.value = session.nextCursor + 1) (hcnt : event.duplicateCount = 0)
    (hroom : session.events.length < session.maxEvents) :
    SessionOK limits { session with
      callbacks := session.callbacks.insert callbackId { eventIndex := some session.events.length }
      events := session.events ++ [event]
      nextCursor := session.nextCursor + 1 } := by
  have hget : ∀ (i : Nat) (found : StoredEvent), (session.events ++ [event])[i]? = some found →
      session.events[i]? = some found ∨ (i = session.events.length ∧ found = event) := by
    intro i found hfnd
    rcases Nat.lt_trichotomy i session.events.length with hlt | heq | hgt
    · rw [getElem?_append_left hlt] at hfnd
      exact Or.inl hfnd
    · subst heq
      rw [getElem?_concat_length] at hfnd
      exact Or.inr ⟨rfl, (Option.some.inj hfnd).symm⟩
    · have hnone : (session.events ++ [event])[i]? = none := by
        rw [getElem?_eq_none_iff, length_append, length_singleton]
        omega
      rw [hnone] at hfnd
      cases hfnd
  refine
    { h with
      cursors := fun i found hfnd => ?_
      nextCursor := by simp [h.nextCursor]
      owned := fun other callback i hoth hi => ?_
      owner := fun i found hfnd => ?_
      duplicates := fun found hmem => ?_
      callbackBound := ?_
      eventBound := ?_ }
  · rcases hget i found hfnd with hold | ⟨hi, hfnd⟩
    · exact h.cursors i found hold
    · rw [hfnd, hcursor, h.nextCursor, hi]
  · by_cases heq : callbackId = other
    · subst heq
      rw [get_insert_self] at hoth
      cases hoth
      cases hi
      exact ⟨event, getElem?_concat_length, hid⟩
    · rw [get_insert_ne _ heq] at hoth
      obtain ⟨found, hfnd, howner⟩ := h.owned other callback i hoth hi
      have hlt : i < session.events.length := (List.getElem?_eq_some_iff.mp hfnd).1
      exact ⟨found, by rw [getElem?_append_left hlt]; exact hfnd, howner⟩
  · rcases hget i found hfnd with hold | ⟨hi, hfnd⟩
    · have howner := h.owner i found hold
      have hne : callbackId ≠ found.callbackId := by
        intro heq
        rw [← heq, hcb] at howner
        cases howner
      exact (get_insert_ne _ hne).trans howner
    · rw [hfnd, hid, hi]
      exact get_insert_self _ _ _
  · rcases mem_append.mp hmem with hmem | hmem
    · exact h.duplicates found hmem
    · rw [mem_singleton.mp hmem, hcnt]
      exact Nat.zero_le _
  · show (session.callbacks.insert callbackId _).size ≤ session.maxCallbacks
    rw [size_insert_old _ hcb]
    exact h.callbackBound
  · simpa using hroom

theorem LifeOK.event (h : LifeOK life session) {callbackId : CallbackId} {event : StoredEvent}
    (hid : event.callbackId = callbackId) (nextCursor : Nat) :
    LifeOK { life with observed := life.observed ++ [callbackId] } { session with
      callbacks := session.callbacks.insert callbackId { eventIndex := some session.events.length }
      events := session.events ++ [event]
      nextCursor } := by
  refine
    { recorded := fun found hmem => ?_
      observed := fun hcomp other hmem => ?_
      dropped := h.dropped
      pages := fun chain hsub hfoll => ?_ }
  · rcases mem_append.mp hmem with hmem | hmem
    · exact mem_append_left _ (h.recorded found hmem)
    · rw [mem_singleton.mp hmem, hid]
      simp
  · by_cases heq : callbackId = other
    · subst heq
      exact ⟨session.events.length, get_insert_self _ _ _⟩
    · have hold : other ∈ life.observed := by
        rcases mem_append.mp hmem with hmem | hmem
        · exact hmem
        · exact absurd (mem_singleton.mp hmem).symm heq
      obtain ⟨i, hi⟩ := h.observed hcomp other hold
      exact ⟨i, (get_insert_ne _ heq).trans hi⟩
  · obtain ⟨hpages, hend⟩ := h.pages chain hsub hfoll
    constructor
    · rw [hpages, map_append, take_append_of_le_length]
      simpa using hend
    · simp only [length_append, length_singleton]
      omega

/-! ### Pages -/

/-- With the cursors in order, the events after a cursor are the events from
its place on. -/
theorem SessionOK.pending (h : SessionOK limits session) (after : Nat) :
    (session.events.filter fun event => event.cursor.value > after) = session.events.drop after := by
  have hcut : ∀ (events : List StoredEvent) (start : Nat),
      (∀ (i : Nat) (event : StoredEvent), events[i]? = some event →
        event.cursor.value = start + i + 1) →
      (events.filter fun event => event.cursor.value > after) = events.drop (after - start) := by
    intro events
    induction events with
    | nil =>
      intro start _
      simp
    | cons first rest ih =>
      intro start hcurs
      have hfirst : first.cursor.value = start + 1 := hcurs 0 first rfl
      have hrest := ih (start + 1) fun i event hget => by
        have := hcurs (i + 1) event (by simpa using hget)
        omega
      by_cases hle : after ≤ start
      · have hzero : after - start = 0 := by omega
        have hzero' : after - (start + 1) = 0 := by omega
        rw [filter_cons_of_pos (by simp [hfirst]; omega), hrest, hzero, hzero']
        simp
      · have hsucc : after - start = (after - (start + 1)) + 1 := by omega
        rw [filter_cons_of_neg (by simp [hfirst]; omega), hrest, hsucc, drop_succ_cons]
  have := hcut session.events 0 fun i event hget => by simpa using h.cursors i event hget
  simpa using this

/-- The callbacks of a page, and where it ends. -/
theorem SessionOK.page (h : SessionOK limits session) {after : EventCursor}
    (haft : after.value ≤ session.nextCursor) (sessionId : SessionId) (now : Nat) :
    (pollPage limits sessionId session after now).events.map HttpEventRecord.callbackId =
        ((session.events.map StoredEvent.callbackId).drop after.value).take
          limits.maxPollEventsPerResponse ∧
      (pollPage limits sessionId session after now).nextCursor.value =
        min (after.value + limits.maxPollEventsPerResponse) session.events.length := by
  have hpage : 0 < limits.maxPollEventsPerResponse := Nat.pos_of_ne_zero limits.pageChecked.1.1
  rw [h.nextCursor] at haft
  constructor
  · simp only [pollPage, h.pending, map_map, map_take, map_drop]
    rfl
  · simp only [pollPage, h.pending]
    by_cases hend : after.value = session.events.length
    · have hnil : session.events.drop after.value = [] := by rw [hend]; simp
      rw [hnil]
      simp [hend]
    · -- the last event of the page stands at its end
      have hlast : ((session.events.drop after.value).take limits.maxPollEventsPerResponse).getLast? =
          session.events[min (after.value + limits.maxPollEventsPerResponse)
            session.events.length - 1]? := by
        rw [getLast?_eq_getElem?, getElem?_take, getElem?_drop, length_take, length_drop]
        rw [if_pos (by omega)]
        congr 1
        omega
      rw [getLast?_map, hlast]
      obtain ⟨event, hev⟩ : ∃ event, session.events[min (after.value +
          limits.maxPollEventsPerResponse) session.events.length - 1]? = some event :=
        ⟨_, getElem?_eq_getElem (by omega)⟩
      have hcursor := h.cursors _ _ hev
      rw [hev]
      show event.cursor.value = _
      omega

/-- A poll adds its page to the chains that lead to it. -/
theorem LifeOK.polled (hsess : SessionOK limits session) (h : LifeOK life session)
    {after : EventCursor} (haft : after.value ≤ session.nextCursor) (sessionId : SessionId)
    (now polls : Nat) :
    LifeOK { life with
      polls := life.polls ++ [(after, pollPage limits sessionId session after now)] }
      { session with polls } := by
  refine { h with pages := fun chain hsub hfoll => ?_ }
  obtain ⟨hcbs, hnext⟩ := hsess.page haft sessionId now
  rcases sublist_append_iff.mp hsub with ⟨front, back, rfl, hfr, hback⟩
  rcases sublist_singleton.mp hback with rfl | rfl
  · rw [append_nil] at hfoll ⊢
    exact h.pages front hfr hfoll
  · obtain ⟨hfoll, hsta⟩ := follows_snoc.mp hfoll
    have hsta : after.value = chainEnd 0 front := hsta
    obtain ⟨hpages, hend⟩ := h.pages front hfr hfoll
    rw [chainEnd_snoc]
    constructor
    · unfold chainCallbacks at hpages ⊢
      rw [flatMap_append, hpages, flatMap_singleton, hcbs, hnext, ← hsta,
        ← take_add, take_eq_take_iff, length_map]
      omega
    · rw [hnext]
      exact Nat.min_le_right _ _

end Sessions

/-! ### Calls -/

section Calls

variable {sha256 : Bytes → Bytes} {lives : SessionId → Life} {s : ProviderState}

variable {sessionId : SessionId} {now : Nat} {callbackId : CallbackId}
  {err : ProviderError → ProviderState → Prop}

@[simp] theorem wp_reclaimSessionsAt {ok : Unit → ProviderState → Prop}
    {pan : Prop} (now : Nat) :
    wp (reclaimSessionsAt now) ok err pan s ↔ ok () (s.reclaimed now) := Iff.rfl

@[simp] theorem wp_putSession {ok : Unit → ProviderState → Prop}
    {pan : Prop} (sessionId : SessionId)
    (session : SessionState) :
    wp (putSession sessionId session) ok err pan s ↔
      ok () { s with sessions := s.sessions.insert sessionId session } := Iff.rfl

theorem authenticatedSession_spec (sessionId : SessionId) (candidate : Bytes) (now : Nat) :
    wp (authenticatedSession sha256 sessionId candidate now)
      (fun session t => t = s.reclaimed now ∧ t.sessions[sessionId]? = some session)
      (fun _ t => t = s ∨ t = s.reclaimed now) False s := by
  unfold authenticatedSession reclaimSessionsAt
  simp only [wp_rules, Checked.wp_okOr]
  refine ⟨fun session _ => ⟨fun _ => Or.inl trivial, fun _ => ⟨fun found hfnd => ?_, fun _ => ?_⟩⟩,
    fun _ => Or.inl trivial⟩
  · exact ⟨rfl, hfnd⟩
  · exact Or.inr rfl

/-- A call that begins with the session's credential: it leaves the provider
as it was, or without the sessions past their retention, or goes on. -/
theorem wp_authenticated {α : Type} {candidate : Bytes}
    {rest : SessionState → ProviderCommand α} {ok : α → ProviderState → Prop}
    (hleft : ∀ e t, t = s ∨ t = s.reclaimed now → err e t)
    (hrest : ∀ session, (s.reclaimed now).sessions[sessionId]? = some session →
      wp (rest session) ok err False (s.reclaimed now)) :
    wp (authenticatedSession sha256 sessionId candidate now >>= rest) ok err False s := by
  rw [wp_bind]
  refine wp_mono (authenticatedSession_spec sessionId candidate now) (fun session t ht => ?_) hleft id
  obtain ⟨rfl, hget⟩ := ht
  exact hrest session hget

theorem Sound.left (h : Sound lives s) {t : ProviderState}
    (ht : t = s ∨ t = s.reclaimed now) : Sound lives t := by
  rcases ht with rfl | rfl
  · exact h
  · exact h.reclaimed now

theorem uniqueId_spec {kind : OpaqueKind} (taken : OpaqueId kind → Bool)
    (draws : Nat → Option (RandomBytes kind.rawBytes)) : ∀ attempts,
      Checked.wp (uniqueId taken draws attempts) (fun id => taken id = false) (fun _ => True)
  | 0 => trivial
  | attempts + 1 => by
    simp only [uniqueId, Checked.wp_bind, Checked.wp_okOr, implies_true, and_true]
    intro bytes _
    refine Checked.wp_of_forall (fun id => ?_) (fun _ => trivial)
    rw [Checked.wp_ite]
    refine ⟨fun _ => uniqueId_spec taken draws attempts, fun hfree => ?_⟩
    simpa using hfree

theorem validateSessionRequest_spec (request : SessionRequest) (limits : ProviderLimits) :
    Checked.wp (validateSessionRequest request limits)
      (fun _ => request.maxCallbacks ≤ limits.maxCallbacksPerSession ∧
        request.maxEvents ≤ limits.maxEventsPerSession ∧
        request.maxPolls ≤ limits.maxPollsPerSession) (fun _ => True) := by
  unfold validateSessionRequest
  rw [Checked.wp_ite]
  refine ⟨fun _ => trivial, fun hno => ?_⟩
  rw [Checked.wp_ok]
  omega

/-- A new session is empty, and so is its history. -/
theorem sessionOK_new {limits : ProviderLimits} {session : SessionState}
    (hcursor : session.nextCursor = 0) (hcbs : session.callbacks = ∅)
    (hevs : session.events = []) (hpolls : session.polls = 0)
    (hreq : session.maxCallbacks ≤ limits.maxCallbacksPerSession ∧
      session.maxEvents ≤ limits.maxEventsPerSession ∧
      session.maxPolls ≤ limits.maxPollsPerSession) :
    SessionOK limits session ∧ LifeOK {} session := by
  have hnone : ∀ i : Nat, session.events[i]? = none := by
    intro i
    rw [hevs]
    rfl
  refine ⟨⟨fun i event hget => ?_, by rw [hcursor, hevs]; rfl, fun id callback i hget => ?_,
    fun i event hget => ?_, by simp [hevs], by simp [hcbs], by simp [hevs],
    by simp [hpolls], hreq⟩, ⟨by simp [hevs], by simp, nofun, fun chain hsub _ => ?_⟩⟩
  · rw [hnone] at hget
    cases hget
  · rw [hcbs] at hget
    simp at hget
  · rw [hnone] at hget
    cases hget
  · have hnil := sublist_nil.mp hsub
    subst hnil
    simp [chainCallbacks, chainEnd]

theorem register_sound (h : Sound lives s) (adminBearer : Bytes) (request : SessionRequest)
    (idDraws : Nat → Option (RandomBytes 16)) (tokenDraw : Option (RandomBytes 32)) (now : Nat) :
    wp (registerBearerAt sha256 adminBearer request idDraws tokenDraw now)
      (fun registration t => Sound (update lives registration.sessionId {}) t)
      (fun _ t => Sound lives t) False s := by
  have hcl := h.reclaimed now
  unfold registerBearerAt
  -- from the first statement on: what follows a `throw` is never visited
  simp only [↓wp_rules, ↓Checked.wp_okOr, ↓wp_reclaimSessionsAt, ↓wp_putSession]
  refine ⟨fun _ => h, fun _ => Checked.wp_mono (validateSessionRequest_spec request s.limits)
    (fun _ hrequest => ?_) (fun _ _ => h)⟩
  refine ⟨fun expires _ => ⟨fun retain _ => ⟨fun _ => hcl, fun hroom => ?_⟩, fun _ => h⟩, fun _ => h⟩
  refine Checked.wp_mono (@uniqueId_spec .session _ idDraws idGenerationAttempts) (fun id hfree => ?_)
    (fun _ _ => hcl)
  refine Checked.wp_of_forall (fun token => ⟨fun htaken => ?_, fun _ => ?_⟩) (fun _ => hcl)
  · rw [hfree] at htaken
    cases htaken
  · have hfree : (s.reclaimed now).sessions.contains id = false := hfree
    have hnew : (s.reclaimed now).sessions[id]? = none :=
      get_of_not_contains (by rw [hfree]; exact Bool.false_ne_true)
    refine hcl.write ?_ (sessionOK_new rfl rfl rfl rfl hrequest)
    rw [size_insert_new _ hnew]
    exact Nat.lt_of_not_le hroom

theorem allocate_sound (h : Sound lives s) (sessionId : SessionId) (sessionBearer : Bytes)
    (idDraws : Nat → Option (RandomBytes 16)) (now : Nat) :
    wp (allocateBearerAt sha256 sessionId sessionBearer idDraws now)
      (fun _ t => Sound lives t) (fun _ t => Sound lives t) False s := by
  unfold allocateBearerAt putSession
  refine wp_authenticated (fun _ _ => h.left) fun session hget => ?_
  have hcl := h.reclaimed now
  obtain ⟨hsess, hlife⟩ := hcl.session sessionId session hget
  simp only [wp_rules]
  refine ⟨fun _ => hcl, fun _ => ⟨fun _ => hcl, fun hroom => ?_⟩⟩
  refine Checked.wp_mono (@uniqueId_spec .callback _ idDraws idGenerationAttempts)
    (fun id hfree => ?_) (fun _ _ => hcl)
  refine Checked.wp_of_forall (fun target => ⟨fun htaken => ?_, fun _ => ?_⟩) (fun _ => hcl)
  · rw [hfree] at htaken
    cases htaken
  · have hnew : session.callbacks[id]? = none :=
      get_of_not_contains (by rw [hfree]; exact Bool.false_ne_true)
    exact hcl.put_same hget ⟨hsess.allocated hnew (Nat.lt_of_not_le hroom), hlife.allocated hnew⟩

theorem poll_sound (h : Sound lives s) (sessionId : SessionId) (sessionBearer : Bytes)
    (after : EventCursor) (now : Nat) :
    wp (pollBearerAt sha256 sessionId sessionBearer after now)
      (fun page t => Sound (update lives sessionId
        { lives sessionId with polls := (lives sessionId).polls ++ [(after, page)] }) t)
      (fun _ t => Sound lives t) False s := by
  unfold pollBearerAt putSession
  refine wp_authenticated (fun _ _ => h.left) fun session hget => ?_
  have hcl := h.reclaimed now
  obtain ⟨hsess, hlife⟩ := hcl.session sessionId session hget
  simp only [wp_rules, Checked.wp_okOr]
  refine ⟨fun _ => hcl, fun hbud => ⟨fun polls hpolls => ?_, fun _ => hcl⟩⟩
  obtain ⟨-, rfl⟩ := checkedAdd_eq_some.mp hpolls
  have hspent : SessionOK s.limits { session with polls := session.polls + 1 } :=
    { hsess with pollBound := Nat.lt_of_not_le hbud }
  refine ⟨fun _ => hcl.put_same hget ⟨hspent, { hlife with }⟩, fun haft => ?_⟩
  exact hcl.put hget ⟨hspent, .polled hsess hlife (Nat.le_of_not_lt haft) _ _ _⟩

theorem cleanup_sound (h : Sound lives s) (sessionId : SessionId) (sessionBearer : Bytes)
    (now : Nat) : wp (cleanupBearerAt sha256 sessionId sessionBearer now)
      (fun _ t => Sound lives t) (fun _ t => Sound lives t) False s := by
  unfold cleanupBearerAt
  refine wp_authenticated (fun _ _ => h.left) fun session hget => ?_
  have hcl := h.reclaimed now
  simp only [wp_rules]
  refine ⟨fun _ => ⟨?_, fun other found hfnd => ?_⟩, fun _ => hcl⟩
  · exact Std.ExtTreeMap.size_erase_le.trans hcl.capacity
  · rw [get_erase] at hfnd
    split_ifs at hfnd
    exact hcl.session other found hfnd

theorem mark_sound (h : Sound lives s) (sessionId : SessionId) (callbackId : CallbackId) :
    wp (Oast.markCallbackObservationIncomplete sessionId callbackId)
      (fun _ t => Sound (note s (.markCallbackObservationIncomplete sessionId callbackId)
        (.ok .marked) lives) t) (fun _ _ => False) False s := by
  unfold Oast.markCallbackObservationIncomplete markIncomplete putSession
  simp only [wp_rules, note]
  cases hget : s.sessions[sessionId]? with
  | none => simpa using h
  | some session =>
    obtain ⟨hsess, hlife⟩ := h.session sessionId session hget
    simp only [Option.any_some, wp_rules]
    refine ⟨fun hcb => ?_, fun hcb => ?_⟩
    · rw [if_pos hcb]
      have hlost := hlife.lost [] true
      rw [append_nil] at hlost
      exact h.put hget ⟨hsess.incomplete, hlost⟩
    · rw [if_neg hcb]
      exact h

/-- A hit of a live callback, as its history notes it. -/
theorem note_hit {session : SessionState} {callback : CallbackState}
    (hget : s.sessions[sessionId]? = some session) (hlive : ¬now ≥ session.expiresAtMillis)
    (hcb : session.callbacks[callbackId]? = some callback) (eventDraw : Option (RandomBytes 32))
    (reply : Except ProviderError ProviderReply) :
    note s (.observeCallback sessionId callbackId eventDraw now) reply lives =
      update lives sessionId
        { lives sessionId with
          observed := (lives sessionId).observed ++ [callbackId]
          dropped := (lives sessionId).dropped || hitLost session callback reply } := by
  simp only [note, liveCallback, hget, if_neg hlive, hcb, Option.map_some]

/-- A hit that found no live callback is not noted. -/
theorem note_miss (hmiss : liveCallback s sessionId callbackId now = none)
    (eventDraw : Option (RandomBytes 32))
    (reply : Except ProviderError ProviderReply) :
    note s (.observeCallback sessionId callbackId eventDraw now) reply lives = lives := by
  simp only [note, hmiss]

theorem retainNewEvent_spec (h : Sound lives s) {session : SessionState}
    (hget : s.sessions[sessionId]? = some session)
    (hcb : session.callbacks[callbackId]? = some ⟨none⟩)
    (hroom : session.events.length < session.maxEvents) (eventId : Except ProviderError EventId) :
    wp (retainNewEvent sessionId session callbackId eventId)
      (fun _ t => Sound (update lives sessionId
        { lives sessionId with observed := (lives sessionId).observed ++ [callbackId] }) t)
      (fun _ t => Sound (update lives sessionId
        { lives sessionId with
          observed := (lives sessionId).observed ++ [callbackId]
          dropped := true }) t) False s := by
  obtain ⟨hsess, hlife⟩ := h.session sessionId session hget
  have hlost := h.put hget ⟨hsess.incomplete, hlife.lost [callbackId] true⟩
  unfold retainNewEvent markIncomplete putSession
  cases eventId with
  | error failure => simpa only [wp_bind, wp_modify, wp_throw] using hlost
  | ok eventId =>
    cases hnext : checkedAdd u64Max session.nextCursor 1 with
    | none => simpa only [wp_bind, wp_modify, wp_throw] using hlost
    | some next =>
      obtain ⟨-, rfl⟩ := checkedAdd_eq_some.mp hnext
      cases hcursor : EventCursor.new (session.nextCursor + 1) with
      | error failure => simpa only [hcursor, wp_bind, wp_modify, wp_throw] using hlost
      | ok cursor =>
        have hvalue : cursor.value = session.nextCursor + 1 := by
          unfold EventCursor.new at hcursor
          split at hcursor
          · cases hcursor
            rfl
          · cases hcursor
        simp only [hcursor, hcb, wp_modify]
        refine h.put hget ⟨hsess.event hcb ?_ hvalue rfl hroom, hlife.event ?_ _⟩ <;> rfl

theorem countDuplicate_spec (h : Sound lives s) {session : SessionState}
    (hget : s.sessions[sessionId]? = some session) {index : Nat}
    (hcb : session.callbacks[callbackId]? = some ⟨some index⟩) :
    wp (countDuplicate sessionId session index) (fun disposition t => Sound (update lives sessionId
        { lives sessionId with
          observed := (lives sessionId).observed ++ [callbackId]
          dropped := (lives sessionId).dropped ||
            hitLost session ⟨some index⟩ (.ok (.observed disposition)) }) t)
      (fun _ _ => False) False s := by
  obtain ⟨hsess, hlife⟩ := h.session sessionId session hget
  obtain ⟨event, hev, -⟩ := hsess.owned callbackId _ index hcb rfl
  unfold countDuplicate markIncomplete putSession
  simp only [hev, wp_rules]
  refine ⟨fun hroom => ?_, fun hfull => ?_⟩
  · have hkept : hitLost session ⟨some index⟩ (.ok (.observed .duplicateSuppressed)) = false := by
      simp [hitLost, hev, hroom]
    rw [hkept, Bool.or_false]
    exact h.put hget ⟨hsess.duplicate hev hroom, hlife.duplicate hev _ hcb⟩
  · exact h.put hget ⟨hsess.incomplete, hlife.lost [callbackId] _⟩

theorem observe_sound (h : Sound lives s) (sessionId : SessionId) (callbackId : CallbackId)
    (eventDraw : Option (RandomBytes 32)) (now : Nat) :
    wp (observeCallbackAt sessionId callbackId eventDraw now)
      (fun disposition t => Sound (note s (.observeCallback sessionId callbackId eventDraw now)
        (.ok (.observed disposition)) lives) t)
      (fun e t => Sound (note s (.observeCallback sessionId callbackId eventDraw now)
        (.error e) lives) t) False s := by
  unfold observeCallbackAt
  simp only [wp_rules]
  cases hget : s.sessions[sessionId]? with
  | none =>
    rw [wp_pure, note_miss (by simp [liveCallback, hget])]
    exact h
  | some session =>
    obtain ⟨hsess, hlife⟩ := h.session sessionId session hget
    rw [wp_ite]
    refine ⟨fun hexpired => ?_, fun hlive => ?_⟩
    · rw [wp_pure, note_miss (by simp [liveCallback, hget, hexpired])]
      exact h
    · cases hcb : session.callbacks[callbackId]? with
      | none =>
        rw [wp_pure, note_miss (by simp [liveCallback, hget, hcb])]
        exact h
      | some callback =>
        simp only [note_hit hget hlive hcb]
        obtain ⟨eventIndex⟩ := callback
        cases eventIndex with
        | some index =>
          exact wp_mono (countDuplicate_spec h hget hcb) (fun _ _ ht => ht)
            (fun _ _ hno => hno.elim) id
        | none =>
          simp only [wp_rules]
          refine ⟨fun _ => ?_, fun hroom => ?_⟩
          · exact h.put hget ⟨hsess.incomplete, hlife.lost [callbackId] _⟩
          · refine wp_mono (retainNewEvent_spec h hget hcb (Nat.lt_of_not_le hroom) _)
              (fun _ t ht => ?_) (fun _ t ht => ?_) id
            · simpa [hitLost] using ht
            · simpa [hitLost] using ht

/-- Every call keeps the invariant, and its history is noted. -/
theorem exec_sound (h : Sound lives s) (op : ProviderOp) :
    wp (op.exec sha256) (fun reply t => Sound (note s op (.ok reply) lives) t)
      (fun e t => Sound (note s op (.error e) lives) t) False s := by
  cases op with
  | register adminBearer request idDraws tokenDraw now =>
    rw [ProviderOp.exec, wp_map]
    exact register_sound h adminBearer request idDraws tokenDraw now
  | allocate sessionId sessionBearer idDraws now =>
    rw [ProviderOp.exec, wp_map]
    exact allocate_sound h sessionId sessionBearer idDraws now
  | observeCallback sessionId callbackId eventDraw now =>
    rw [ProviderOp.exec, wp_map]
    exact observe_sound h sessionId callbackId eventDraw now
  | markCallbackObservationIncomplete sessionId callbackId =>
    rw [ProviderOp.exec, wp_map]
    exact wp_mono (mark_sound h sessionId callbackId) (fun _ _ ht => ht) (fun _ _ hno => hno.elim) id
  | poll sessionId sessionBearer after now =>
    rw [ProviderOp.exec, wp_map]
    exact poll_sound h sessionId sessionBearer after now
  | cleanup sessionId sessionBearer now =>
    rw [ProviderOp.exec, wp_map]
    exact cleanup_sound h sessionId sessionBearer now

end Calls

/-! ### Runs -/

section Runs

variable (sha256 : Bytes → Bytes) (limits : ProviderLimits) (origin : PublicOrigin)
  (admin : Bytes)

/-- A run of calls on a new provider, with the histories of its sessions. -/
def mailboxRun (ops : List ProviderOp) : Option ((SessionId → Life) × ProviderState) :=
  runNoting (ProviderOp.exec sha256) note (fun _ => {})
    (ProviderState.new sha256 limits origin admin) ops

theorem sound_of_run (ops : List ProviderOp) :
    ∃ q, mailboxRun sha256 limits origin admin ops = some q ∧ Sound q.1 q.2 := by
  refine runNoting_total (J := Sound) (fun op lives s h => exec_sound h op) ops
    ⟨?_, fun sessionId session h => ?_⟩
  · exact Nat.zero_le _
  · simp [ProviderState.new] at h

/-- What a poll that follows a sound history returns. -/
theorem poll_reply {lives : SessionId → Life} {s : ProviderState} (h : Sound lives s)
    {sessionId : SessionId} {sessionBearer : Bytes} {after : EventCursor} {now : Nat}
    {page : PollResponse} {t : ProviderState}
    (hpoll : reply (pollBearerAt sha256 sessionId sessionBearer after now) s = some (.ok page, t)) :
    ∃ session, SessionOK s.limits session ∧ LifeOK (lives sessionId) session ∧
      after.value ≤ session.nextCursor ∧ page = pollPage s.limits sessionId session after now := by
  have hspec : wp (pollBearerAt sha256 sessionId sessionBearer after now)
      (fun page _ => ∃ session, SessionOK s.limits session ∧ LifeOK (lives sessionId) session ∧
        after.value ≤ session.nextCursor ∧ page = pollPage s.limits sessionId session after now)
      (fun _ _ => True) False s := by
    unfold pollBearerAt
    refine wp_authenticated (fun _ _ _ => trivial) fun session hget => ?_
    obtain ⟨hsess, hlife⟩ := (h.reclaimed now).session sessionId session hget
    simp only [↓wp_rules, ↓Checked.wp_okOr, ↓wp_putSession]
    refine ⟨fun _ => trivial, fun _ => ⟨fun polls _ => ⟨fun _ => trivial, fun haft => ?_⟩,
      fun _ => trivial⟩⟩
    exact ⟨session, hsess, hlife, Nat.le_of_not_lt haft, rfl⟩
  exact (wp_iff_reply.mp hspec).1 page t hpoll

/-- The callbacks of a complete page's chain are those that were hit. -/
theorem complete_chain {limits : ProviderLimits} {life : Life} {session : SessionState}
    (hsess : SessionOK limits session) (hlife : LifeOK life session) {after : EventCursor}
    (haft : after.value ≤ session.nextCursor) (sessionId : SessionId) (now : Nat)
    (hcomp : (pollPage limits sessionId session after now).complete = true)
    {chain : List (EventCursor × PollResponse)} (hsub : chain.Sublist life.polls)
    (hfoll : Follows 0 (chain ++ [(after, pollPage limits sessionId session after now)])) :
    chainCallbacks (chain ++ [(after, pollPage limits sessionId session after now)]) =
        session.events.map StoredEvent.callbackId ∧
      session.eventRetentionIncomplete = false := by
  have hflags : session.events.length - after.value ≤ limits.maxPollEventsPerResponse ∧
      session.eventRetentionIncomplete = false := by
    simpa [pollPage, hsess.pending] using hcomp
  have hpolled := LifeOK.polled hsess hlife haft sessionId now session.polls
  obtain ⟨hpages, -⟩ := hpolled.pages _ (hsub.append (List.Sublist.refl _)) hfoll
  obtain ⟨-, hnext⟩ := hsess.page haft sessionId now
  refine ⟨?_, hflags.2⟩
  rw [hpages, chainEnd_snoc, hnext]
  refine take_of_length_le ?_
  rw [length_map]
  show session.events.length ≤ _
  omega

theorem SessionOK.callbacks_nodup {limits : ProviderLimits} {session : SessionState}
    (h : SessionOK limits session) : (session.events.map StoredEvent.callbackId).Nodup := by
  rw [nodup_iff_getElem?_ne_getElem?]
  intro i j hij hlt heq
  rw [length_map] at hlt
  have hi : session.events[i]? = some session.events[i] := getElem?_eq_getElem (by omega)
  have hj : session.events[j]? = some session.events[j] := getElem?_eq_getElem hlt
  rw [getElem?_map, getElem?_map, hi, hj] at heq
  have hid : session.events[i].callbackId = session.events[j].callbackId := Option.some.inj heq
  have howner := h.owner i _ hi
  rw [hid, h.owner j _ hj] at howner
  simp only [Option.some.injEq, CallbackState.mk.injEq] at howner
  omega

/-- **The mailbox delivers.** Over every run of calls of any sessions the
events of a session carry the cursors 1, 2, 3, ... up to its next cursor,
callbacks and events belong to each other one to one and the bounds hold. A
chain of polls from cursor 0 that ends in a complete page holds one event for
every callback that was hit before the session's expiry, and no other; after
a lost hit no page is complete. -/
theorem mailbox_delivers (ops : List ProviderOp) :
    ∃ q, mailboxRun sha256 limits origin admin ops = some q ∧
      q.2.sessions.size ≤ q.2.limits.maxActiveSessions ∧
      (∀ (sessionId : SessionId) (session : SessionState),
        q.2.sessions[sessionId]? = some session → SessionOK q.2.limits session) ∧
      ∀ (sessionId : SessionId) (sessionBearer : Bytes) (after : EventCursor) (now : Nat)
        (page : PollResponse) (t : ProviderState),
        reply (pollBearerAt sha256 sessionId sessionBearer after now) q.2 = some (.ok page, t) →
        ((q.1 sessionId).dropped = true → page.complete = false) ∧
        ∀ chain : List (EventCursor × PollResponse), chain.Sublist (q.1 sessionId).polls →
          Follows 0 (chain ++ [(after, page)]) → page.complete = true →
          (chainCallbacks (chain ++ [(after, page)])).Nodup ∧
          ∀ callbackId, callbackId ∈ chainCallbacks (chain ++ [(after, page)]) ↔
            callbackId ∈ (q.1 sessionId).observed := by
  obtain ⟨q, hrun, hsnd⟩ := sound_of_run sha256 limits origin admin ops
  refine ⟨q, hrun, hsnd.capacity, fun id session hget => (hsnd.session id session hget).1, ?_⟩
  intro sessionId sessionBearer after now page t hpoll
  obtain ⟨session, hsess, hlife, haft, rfl⟩ := poll_reply sha256 hsnd hpoll
  refine ⟨fun hdrop => ?_, fun chain hsub hfoll hcomp => ?_⟩
  · have hinc := hlife.dropped hdrop
    simp [pollPage, hinc]
  · obtain ⟨hcbs, hkept⟩ :=
      complete_chain hsess hlife haft sessionId now hcomp hsub hfoll
    rw [hcbs]
    refine ⟨hsess.callbacks_nodup, fun callbackId => ⟨fun hmem => ?_, fun hmem => ?_⟩⟩
    · obtain ⟨event, hev, rfl⟩ := List.mem_map.mp hmem
      exact hlife.recorded event hev
    · obtain ⟨i, hi⟩ := hlife.observed hkept callbackId hmem
      obtain ⟨event, hev, rfl⟩ := hsess.owned callbackId _ i hi rfl
      exact List.mem_map_of_mem (List.mem_of_getElem? hev)

end Runs

/-- Pages of one event. -/
def smallLimits : ProviderLimits where
  maxActiveSessions := 2
  maxCallbacksPerSession := 2
  maxEventsPerSession := 2
  maxPollsPerSession := 4
  maxPollEventsPerResponse := 1
  maxSessionLifetimeMillis := 1000
  maxConcurrentRequests := 1
  sessionsChecked := by decide
  callbacksChecked := by decide
  eventsChecked := by decide
  pollsChecked := by decide
  pageChecked := by decide
  lifetimeChecked := by decide
  requestsChecked := by decide

def repeated (n : Nat) (byte : UInt8) : RandomBytes n := ⟨.replicate n byte, length_replicate⟩

def smallAdmin : Bytes := replicate 32 0x41
def smallToken : Bytes := asciiBytes (Base64.encode (repeated 32 1).bytes)
def smallSession : SessionId := ⟨String.ofList (Base64.encode (repeated 16 1).bytes), by decide +kernel⟩
def firstCallback : CallbackId :=
  ⟨String.ofList (Base64.encode (repeated 16 2).bytes), by decide +kernel⟩
def secondCallback : CallbackId :=
  ⟨String.ofList (Base64.encode (repeated 16 3).bytes), by decide +kernel⟩

/-- Two callbacks, each hit once, and a first page. -/
def smallRun : List ProviderOp :=
  [ .register smallAdmin ⟨1000, 2, 2, 4⟩ (fun _ => some (repeated 16 1)) (some (repeated 32 1)) 0,
    .allocate smallSession smallToken (fun _ => some (repeated 16 2)) 1,
    .allocate smallSession smallToken (fun _ => some (repeated 16 3)) 1,
    .observeCallback smallSession firstCallback (some (repeated 32 3)) 2,
    .observeCallback smallSession secondCallback (some (repeated 32 4)) 2,
    .poll smallSession smallToken .start 3 ]

/-- The second page is complete, and the two pages hold both callbacks. -/
theorem mailbox_delivers_both : ∃ q page t,
    mailboxRun id smallLimits ⟨"http://h/"⟩ smallAdmin smallRun = some q ∧
    reply (pollBearerAt id smallSession smallToken ⟨1, by decide⟩ 3) q.2 = some (.ok page, t) ∧
    (q.1 smallSession).observed = [firstCallback, secondCallback] ∧
    ∀ callbackId, callbackId ∈ chainCallbacks ((q.1 smallSession).polls ++ [(⟨1, by decide⟩, page)]) ↔
      callbackId ∈ (q.1 smallSession).observed := by
  have hvalue : ((mailboxRun id smallLimits ⟨"http://h/"⟩ smallAdmin smallRun).bind fun q =>
      (reply (pollBearerAt id smallSession smallToken ⟨1, by decide⟩ 3) q.2).map fun r =>
        ((q.1 smallSession).observed, r.1.toOption.map fun page => (page.complete,
          decide (Follows 0 ((q.1 smallSession).polls ++ [(⟨1, by decide⟩, page)]))))) =
      some ([firstCallback, secondCallback], some (true, true)) := by
    decide +kernel
  obtain ⟨q, hrun, -, -, hpolls⟩ :=
    mailbox_delivers id smallLimits ⟨"http://h/"⟩ smallAdmin smallRun
  rw [hrun, Option.bind_some, Option.map_eq_some_iff] at hvalue
  obtain ⟨⟨r, t⟩, hrep, hvalue⟩ := hvalue
  simp only [Prod.mk.injEq, Option.map_eq_some_iff] at hvalue
  obtain ⟨hobs, page, hpage, hcomp, hfoll⟩ := hvalue
  cases r with
  | error e => cases hpage
  | ok found =>
    cases hpage
    refine ⟨q, page, t, hrun, hrep, hobs, ?_⟩
    have hchain := (hpolls _ _ _ _ page t hrep).2 (q.1 smallSession).polls (List.Sublist.refl _)
      (of_decide_eq_true hfoll) hcomp
    exact hchain.2

end Termivar.Oast
