/-
# The bounded cache

`termivar-scanner/src/cache.rs`: a hash map of entries with a time to live,
each with the sequence number of its last access. The entry with the lowest
number is the one evicted from a full cache. Numbers are allocated from a
counter; when it has reached its largest value, the entries are numbered anew,
in order, and the counter goes on after them.

The clock is read once in a call; each call that iterates over the map sees its
own order.
-/
import Termivar.HashMap
import Termivar.Machine
import Termivar.Ranking

namespace Termivar.Cache

def u128Max : Nat := 2 ^ 128 - 1

/-- `usize` of the 64-bit targets. -/
def usizeMax : Nat := 2 ^ 64 - 1

def nanosPerSec : Nat := 1000000000

/-- Instants and durations are nanoseconds. -/
structure CacheEntry (V : Type) where
  value : V
  (createdAt lastAccessSequence ttl : Nat)

def CacheEntry.isExpiredAt {V : Type} (entry : CacheEntry V) (now : Nat) : Bool :=
  now - entry.createdAt ≥ entry.ttl

variable {K V : Type} [DecidableEq K]

structure CacheState (K V : Type) where
  entries : HashMap K (CacheEntry V)
  nextAccessSequence : Nat

/-- The key `min_by_key` and `sort_by_key` go by. -/
def accessSequence (entry : K × CacheEntry V) : Nat := entry.2.lastAccessSequence

def withAccessSequence (entry : K × CacheEntry V) (sequence : Nat) : K × CacheEntry V :=
  (entry.1, { entry.2 with lastAccessSequence := sequence })

omit [DecidableEq K] in
theorem renumbered_keys (entries : List (K × CacheEntry V)) :
    ((renumbered accessSequence withAccessSequence entries).map Prod.fst).Perm
      (entries.map Prod.fst) :=
  renumbered_perm fun _ _ => rfl

/-- The write of the new numbers, through `values_mut`. -/
def renumberedEntries (order : Iteration K (CacheEntry V)) (entries : HashMap K (CacheEntry V)) :
    HashMap K (CacheEntry V) :=
  ⟨renumbered accessSequence withAccessSequence (order.arrange entries.entries),
    ((renumbered_keys _).trans ((order.perm entries.entries).map Prod.fst)).nodup_iff.mpr
      entries.nodup⟩

def CacheState.default : CacheState K V := ⟨HashMap.empty, 0⟩

/-- The sequence number allocated, and the state after it. -/
def CacheState.allocateAccessSequence (order : Iteration K (CacheEntry V))
    (state : CacheState K V) : Nat × CacheState K V :=
  let state :=
    if state.nextAccessSequence = u128Max then
      { entries := renumberedEntries order state.entries,
        nextAccessSequence := state.entries.len }
    else state
  (state.nextAccessSequence, { state with nextAccessSequence := state.nextAccessSequence + 1 })

structure LruCache (K V : Type) where
  cache : CacheState K V
  (maxSize hits misses : Nat)

namespace LruCache

def new (maxSize : Nat) : LruCache K V := ⟨CacheState.default, maxSize, 0, 0⟩

def increment (counter : Nat) : Nat := saturatingAdd u64Max counter 1

/-- Room for a new key: the entry with the lowest number is removed. -/
def evict (order : Iteration K (CacheEntry V)) (maxSize : Nat) (state : CacheState K V) (key : K) :
    CacheState K V :=
  if !state.entries.containsKey key && decide (maxSize ≤ state.entries.len) then
    match lowest accessSequence (order.arrange state.entries.entries) with
    | some (evictionKey, _) => { state with entries := state.entries.remove evictionKey }
    | none => state
  else state

/-- The two iterations an insertion can make: over the entries to evict one, and
over those left to number them anew. -/
structure Orders (K V : Type) where
  (eviction numbering : Iteration K (CacheEntry V))

def insert (orders : Orders K V) (now : Nat) (cache : LruCache K V) (key : K) (value : V)
    (ttlSecs : Nat) : LruCache K V :=
  if cache.maxSize = 0 then cache
  else
    let state := evict orders.eviction cache.maxSize cache.cache key
    let (sequence, state) := state.allocateAccessSequence orders.numbering
    let entry : CacheEntry V :=
      { value, createdAt := now, lastAccessSequence := sequence, ttl := ttlSecs * nanosPerSec }
    { cache with cache := { state with entries := state.entries.insert key entry } }

def get (orders : Orders K V) (now : Nat) (cache : LruCache K V) (key : K) :
    Option V × LruCache K V :=
  let state := cache.cache
  if (state.entries.get key).any fun entry => entry.isExpiredAt now then
    (none, { cache with
      cache := { state with entries := state.entries.remove key },
      misses := increment cache.misses })
  else
    match (state.entries.get key).map CacheEntry.value with
    | some value =>
      let (sequence, state) := state.allocateAccessSequence orders.numbering
      let entries := state.entries.modify key fun entry =>
        { entry with lastAccessSequence := sequence }
      (some value, { cache with
        cache := { state with entries },
        hits := increment cache.hits })
    | none => (none, { cache with misses := increment cache.misses })

variable {orders : Orders K V} {now : Nat} {cache : LruCache K V} {key : K}

theorem get_missing (h : cache.cache.entries.get key = none) :
    cache.get orders now key = (none, { cache with misses := increment cache.misses }) := by
  simp [get, h]

theorem get_expired {entry : CacheEntry V} (h : cache.cache.entries.get key = some entry)
    (hexpired : entry.isExpiredAt now = true) :
    cache.get orders now key = (none, { cache with
      cache := { cache.cache with entries := cache.cache.entries.remove key },
      misses := increment cache.misses }) := by
  simp [get, h, hexpired]

theorem get_found {entry : CacheEntry V} (h : cache.cache.entries.get key = some entry)
    (hexpired : entry.isExpiredAt now = false) {sequence : Nat} {state : CacheState K V}
    (hall : cache.cache.allocateAccessSequence orders.numbering = (sequence, state)) :
    cache.get orders now key = (some entry.value, { cache with
      cache := { state with
        entries := state.entries.modify key fun entry =>
          { entry with lastAccessSequence := sequence } },
      hits := increment cache.hits }) := by
  simp [get, h, hexpired, hall]

def remove (cache : LruCache K V) (key : K) : Bool × LruCache K V :=
  ((cache.cache.entries.get key).isSome,
    { cache with cache := { cache.cache with entries := cache.cache.entries.remove key } })

def clear (cache : LruCache K V) : LruCache K V :=
  { cache with cache := { cache.cache with entries := HashMap.empty } }

end LruCache

/-! ### Calls -/

inductive Call (K V : Type) where
  | insert (key : K) (value : V) (ttlSecs : Nat)
  | get (key : K)
  | remove (key : K)
  | clear

inductive Reply (V : Type) where
  | done
  | value (found : Option V)
  | removed (present : Bool)

/-- A call, with the reading of the clock and the iteration orders it meets. -/
structure Turn (K V : Type) where
  call : Call K V
  now : Nat
  orders : LruCache.Orders K V

namespace LruCache

def exec (cache : LruCache K V) (turn : Turn K V) : Reply V × LruCache K V :=
  match turn.call with
  | .insert key value ttlSecs => (.done, cache.insert turn.orders turn.now key value ttlSecs)
  | .get key =>
    let (found, cache) := cache.get turn.orders turn.now key
    (.value found, cache)
  | .remove key =>
    let (present, cache) := cache.remove key
    (.removed present, cache)
  | .clear => (.done, cache.clear)

/-- The replies of the calls, and the cache after them. -/
def run (cache : LruCache K V) : List (Turn K V) → List (Reply V) × LruCache K V
  | [] => ([], cache)
  | turn :: turns =>
    let (reply, next) := cache.exec turn
    let (replies, last) := next.run turns
    (reply :: replies, last)

end LruCache

end Termivar.Cache
