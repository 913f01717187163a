/-
# The cache is a list in the order of the last accesses

What the cache is for: a list of items, the one last inserted or got first. An
insertion puts an item in front, and drops the last item where a new key finds
the list full; a lookup moves the item it finds to the front, or removes it if
it has expired.

The cache keeps no such list, only numbers. Its entries by their numbers are the
list (`Lists`), each step keeps this, the numbering anew included
(`Lists.allocate`), so the replies of a run are those of the list
(`lruCache_refines_recency`).
-/
import Termivar.Cache.Model

namespace Termivar.Cache

open List LruCache

variable {K V : Type} [DecidableEq K]

/-! ### The list -/

structure Item (K V : Type) where
  key : K
  value : V
  (insertedAt ttl : Nat)

def Item.expired (item : Item K V) (now : Nat) : Prop := item.ttl ≤ now - item.insertedAt

instance (item : Item K V) (now : Nat) : Decidable (item.expired now) :=
  inferInstanceAs (Decidable (_ ≤ _))

namespace Recency

def without (key : K) (items : List (Item K V)) : List (Item K V) :=
  items.filter fun item => item.key ≠ key

def find (key : K) (items : List (Item K V)) : Option (Item K V) :=
  items.find? fun item => item.key = key

/-- The last item is the only one with its key. -/
theorem without_last {items : List (Item K V)} {item : Item K V} {key : K}
    (hnd : ((items ++ [item]).map Item.key).Nodup) (hkey : item.key = key) :
    without key (items ++ [item]) = items := by
  subst hkey
  rw [map_append, nodup_append] at hnd
  rw [without, filter_append, filter_cons_of_neg (by simp), filter_nil, append_nil]
  refine filter_eq_self.mpr fun other hoth => decide_eq_true ?_
  exact hnd.2.2 _ (mem_map_of_mem hoth) _ (mem_singleton.mpr rfl)

theorem length_without_le (key : K) (items : List (Item K V)) :
    (without key items).length ≤ items.length :=
  length_filter_le _ _

theorem length_without_lt {key : K} {items : List (Item K V)} (h : find key items ≠ none) :
    (without key items).length < items.length := by
  obtain ⟨item, hfind⟩ := Option.ne_none_iff_exists'.mp h
  refine length_filter_lt_length_iff_exists.mpr ⟨item, mem_of_find?_eq_some hfind, ?_⟩
  simpa using find?_some hfind

/-- The least recent item makes room for a new key. -/
def makeRoom (maxSize : Nat) (key : K) (items : List (Item K V)) : List (Item K V) :=
  if find key items = none ∧ maxSize ≤ items.length then items.dropLast else items

theorem length_makeRoom_le (maxSize : Nat) (key : K) (items : List (Item K V)) :
    (makeRoom maxSize key items).length ≤ items.length := by
  unfold makeRoom
  split_ifs
  · exact length_dropLast ▸ Nat.sub_le _ _
  · exact le_rfl

/-- There is room for the key. -/
theorem length_without_makeRoom {maxSize : Nat} {items : List (Item K V)} (key : K)
    (hsized : items.length ≤ maxSize) (hsize : maxSize ≠ 0) :
    (without key (makeRoom maxSize key items)).length < maxSize := by
  unfold makeRoom
  split_ifs with hroom
  · have hkept := length_without_le key items.dropLast
    rw [length_dropLast] at hkept
    omega
  · by_cases hfind : find key items = none
    · have hkept := length_without_le key items
      have hspare : items.length < maxSize := Nat.lt_of_not_le fun hfull => hroom ⟨hfind, hfull⟩
      omega
    · have hkept := length_without_lt hfind
      omega

def insert (maxSize : Nat) (item : Item K V) (items : List (Item K V)) : List (Item K V) :=
  if maxSize = 0 then items else item :: without item.key (makeRoom maxSize item.key items)

def get (now : Nat) (key : K) (items : List (Item K V)) : Option V × List (Item K V) :=
  match find key items with
  | none => (none, items)
  | some item =>
    if item.expired now then (none, without key items)
    else (some item.value, item :: without key items)

def exec (maxSize : Nat) (items : List (Item K V)) (turn : Turn K V) :
    Reply V × List (Item K V) :=
  match turn.call with
  | .insert key value ttlSecs =>
    (.done, insert maxSize ⟨key, value, turn.now, ttlSecs * nanosPerSec⟩ items)
  | .get key => (.value (get turn.now key items).1, (get turn.now key items).2)
  | .remove key => (.removed (find key items).isSome, without key items)
  | .clear => (.done, [])

def run (maxSize : Nat) (items : List (Item K V)) : List (Turn K V) →
    List (Reply V) × List (Item K V)
  | [] => ([], items)
  | turn :: turns =>
    ((exec maxSize items turn).1 :: (run maxSize (exec maxSize items turn).2 turns).1,
      (run maxSize (exec maxSize items turn).2 turns).2)

end Recency

/-! ### The entries by their numbers -/

def toItem (entry : K × CacheEntry V) : Item K V :=
  ⟨entry.1, entry.2.value, entry.2.createdAt, entry.2.ttl⟩

/-- The items are the entries, the highest number first. -/
structure Lists (state : CacheState K V) (items : List (Item K V)) : Prop where
  ranked : ∃ ranking, Ranked accessSequence state.entries.entries ranking ∧
    ranking.map toItem = items
  allocated : ∀ entry ∈ state.entries.entries, accessSequence entry < state.nextAccessSequence
  counted : state.nextAccessSequence ≤ u128Max

variable {state : CacheState K V} {items : List (Item K V)}

omit [DecidableEq K] in
theorem lists_empty {counter : Nat} (h : counter ≤ u128Max) :
    Lists (⟨⟨[], nodup_nil⟩, counter⟩ : CacheState K V) [] :=
  ⟨⟨[], ranked_nil, rfl⟩, by simp, h⟩

namespace Lists

variable (h : Lists state items)

include h

omit [DecidableEq K] in
theorem perm : (state.entries.entries.map toItem).Perm items := by
  obtain ⟨ranking, hranked, rfl⟩ := h.ranked
  exact hranked.perm.map toItem

omit [DecidableEq K] in
theorem length_eq : state.entries.len = items.length := by
  rw [← h.perm.length_eq, length_map]
  rfl

omit [DecidableEq K] in
theorem nodup : (items.map Item.key).Nodup := by
  rw [← (h.perm.map Item.key).nodup_iff, map_map]
  exact state.entries.nodup

theorem find_of_mem {item : Item K V} (hmem : item ∈ items) :
    Recency.find item.key items = some item := by
  cases hfind : Recency.find item.key items with
  | none => exact absurd (decide_eq_true rfl) (find?_eq_none.mp hfind _ hmem)
  | some found =>
    have hkey : found.key = item.key := by simpa using find?_some hfind
    rw [inj_on_of_nodup_map h.nodup (mem_of_find?_eq_some hfind) hmem hkey]

/-- What the map holds of a key is what the list does. -/
theorem find_eq (key : K) :
    Recency.find key items = (state.entries.get key).map fun entry => toItem (key, entry) := by
  cases hget : state.entries.get key with
  | none =>
    refine find?_eq_none.mpr fun item hitem => ?_
    obtain ⟨entry, hent, rfl⟩ := mem_map.mp (h.perm.mem_iff.mpr hitem)
    exact fun hkey => HashMap.get_eq_none.mp hget entry hent (of_decide_eq_true hkey)
  | some entry =>
    have hmem : toItem (key, entry) ∈ items :=
      h.perm.mem_iff.mp (mem_map_of_mem (HashMap.get_eq_some.mp hget))
    exact h.find_of_mem hmem

omit [DecidableEq K] in
/-- The number of an entry is its own. -/
theorem distinct : (state.entries.entries.map accessSequence).Nodup := by
  obtain ⟨ranking, hranked, -⟩ := h.ranked
  exact hranked.nodup

theorem remove (key : K) :
    Lists { state with entries := state.entries.remove key } (Recency.without key items) := by
  obtain ⟨ranking, hranked, rfl⟩ := h.ranked
  refine ⟨⟨_, hranked.filter fun entry => entry.1 ≠ key, ?_⟩,
    fun entry hent => h.allocated entry (mem_of_mem_filter hent), h.counted⟩
  rw [Recency.without, filter_map]
  rfl

/-- **The entry of the lowest number is the least recent item.** -/
theorem evict (order : Iteration K (CacheEntry V)) (maxSize : Nat) (key : K) :
    Lists (evict order maxSize state key) (Recency.makeRoom maxSize key items) := by
  have hfull : (!state.entries.containsKey key && decide (maxSize ≤ state.entries.len)) = true ↔
      Recency.find key items = none ∧ maxSize ≤ items.length := by
    rw [h.find_eq, h.length_eq]
    simp [HashMap.containsKey]
  unfold LruCache.evict Recency.makeRoom
  by_cases hroom : Recency.find key items = none ∧ maxSize ≤ items.length
  · rw [if_pos (hfull.mpr hroom), if_pos hroom]
    obtain ⟨ranking, hranked, rfl⟩ := h.ranked
    rw [(hranked.of_perm (order.perm _)).lowest_eq]
    rcases eq_nil_or_concat' ranking with rfl | ⟨front, last, rfl⟩
    · exact h
    · have hdrop : (map toItem (front ++ [last])).dropLast =
          Recency.without last.1 (map toItem (front ++ [last])) := by
        have hnd := h.nodup
        rw [map_append, map_singleton] at hnd ⊢
        exact (dropLast_concat).trans (Recency.without_last hnd rfl).symm
      rw [getLast?_concat, hdrop]
      exact h.remove last.1
  · rw [if_neg fun hcond => hroom (hfull.mp hcond), if_neg hroom]
    exact h

omit [DecidableEq K] in
/-- **Entries numbered anew keep their order.** The number allocated is above
those of all entries. -/
theorem allocate (order : Iteration K (CacheEntry V)) (hfits : items.length < u128Max) :
    ∃ sequence state', state.allocateAccessSequence order = (sequence, state') ∧
      Lists state' items ∧ (∀ entry ∈ state'.entries.entries, accessSequence entry < sequence) ∧
      sequence < state'.nextAccessSequence := by
  refine ⟨_, _, rfl, ?_⟩
  by_cases hlast : state.nextAccessSequence = u128Max
  · obtain ⟨ranking, hranked, rfl⟩ := h.ranked
    obtain ⟨ranking', hranked', hit, hbel⟩ :=
      (hranked.of_perm (order.perm _)).renumbered
        (fun _ _ => rfl : ∀ entry place, accessSequence (withAccessSequence entry place) = place)
        (fun _ _ => rfl : ∀ entry place, toItem (withAccessSequence entry place) = toItem entry)
    rw [(order.perm _).length_eq] at hbel
    have hlen : state.entries.entries.length < u128Max := by
      have hlength := h.length_eq
      unfold HashMap.len at hlength
      omega
    simp only [if_pos hlast]
    exact ⟨⟨⟨ranking', hranked', hit⟩, fun entry hent => Nat.lt_succ_of_lt (hbel entry hent),
      hlen⟩, hbel, Nat.lt_succ_self _⟩
  · simp only [if_neg hlast]
    exact ⟨⟨h.ranked, fun entry hent => Nat.lt_succ_of_lt (h.allocated entry hent),
      Nat.lt_of_le_of_ne h.counted hlast⟩, h.allocated, Nat.lt_succ_self _⟩

/-- An entry with a number above all others is in front. -/
theorem put {key : K} (entry : CacheEntry V)
    {entries : HashMap K (CacheEntry V)}
    (hperm : entries.entries.Perm ((key, entry) :: (state.entries.remove key).entries))
    (habove : ∀ other ∈ state.entries.entries, accessSequence other < entry.lastAccessSequence)
    (hbel : entry.lastAccessSequence < state.nextAccessSequence) :
    Lists { state with entries } (toItem (key, entry) :: Recency.without key items) := by
  have hrem := h.remove key
  obtain ⟨ranking, hranked, hit⟩ := hrem.ranked
  have hoths : ∀ other ∈ (state.entries.remove key).entries,
      accessSequence other < accessSequence (key, entry) :=
    fun other hoth => habove other (mem_of_mem_filter hoth)
  refine ⟨⟨_, (hranked.cons hoths).of_perm hperm, by rw [map_cons, hit]⟩, ?_, h.counted⟩
  intro other hoth
  rcases mem_cons.mp (hperm.mem_iff.mp hoth) with rfl | hrest
  · exact hbel
  · exact hrem.allocated other hrest

omit h

end Lists

/-! ### Runs -/

/-- A cache and the list it stands for. -/
structure Represents (cache : LruCache K V) (items : List (Item K V)) : Prop where
  lists : Lists cache.cache items
  sized : items.length ≤ cache.maxSize
  capacity : cache.maxSize ≤ usizeMax

variable {cache : LruCache K V}

omit [DecidableEq K] in
theorem Represents.length_lt (h : Represents cache items) : items.length < u128Max :=
  (h.sized.trans h.capacity).trans_lt (by decide)

theorem insert_represents (h : Represents cache items) (orders : LruCache.Orders K V) (now : Nat)
    (key : K) (value : V) (ttlSecs : Nat) :
    Represents (cache.insert orders now key value ttlSecs)
      (Recency.insert cache.maxSize ⟨key, value, now, ttlSecs * nanosPerSec⟩ items) := by
  unfold LruCache.insert Recency.insert
  by_cases hsize : cache.maxSize = 0
  · rw [if_pos hsize, if_pos hsize]
    exact h
  · rw [if_neg hsize, if_neg hsize]
    have hroom := h.lists.evict orders.eviction cache.maxSize key
    have hfits := (Recency.length_makeRoom_le cache.maxSize key items).trans_lt h.length_lt
    obtain ⟨sequence, state, hall, hlists, habove, hbel⟩ :=
      hroom.allocate orders.numbering hfits
    simp only [hall]
    exact ⟨hlists.put ⟨value, now, sequence, ttlSecs * nanosPerSec⟩ (.refl _) habove hbel,
      Recency.length_without_makeRoom key h.sized hsize, h.capacity⟩

theorem get_represents (h : Represents cache items) (orders : LruCache.Orders K V) (now : Nat)
    (key : K) :
    (cache.get orders now key).1 = (Recency.get now key items).1 ∧
      Represents (cache.get orders now key).2 (Recency.get now key items).2 := by
  have hfind := h.lists.find_eq key
  unfold Recency.get
  cases hget : cache.cache.entries.get key with
  | none =>
    rw [hget, Option.map_none] at hfind
    rw [get_missing hget, hfind]
    exact ⟨rfl, h.lists, h.sized, h.capacity⟩
  | some entry =>
    rw [hget, Option.map_some] at hfind
    simp only [hfind]
    by_cases hexpired : (toItem (key, entry)).expired now
    · rw [if_pos hexpired, get_expired hget (decide_eq_true hexpired)]
      exact ⟨rfl, h.lists.remove key, (Recency.length_without_le key items).trans h.sized, h.capacity⟩
    · obtain ⟨sequence, state, hall, hlists, habove, hbel⟩ :=
        h.lists.allocate orders.numbering h.length_lt
      rw [if_neg hexpired, get_found hget (decide_eq_false hexpired) hall]
      obtain ⟨entry', hget', hitem⟩ := Option.map_eq_some_iff.mp ((hlists.find_eq key).symm.trans hfind)
      have hlisted := hlists.put _
        (HashMap.modify_perm hget' fun entry => { entry with lastAccessSequence := sequence })
        habove hbel
      have hsized := Recency.length_without_lt (by rw [hfind]; exact Option.some_ne_none _)
      exact ⟨rfl, hitem ▸ hlisted, hsized.trans_le h.sized, h.capacity⟩

theorem exec_represents (h : Represents cache items) (turn : Turn K V) :
    (cache.exec turn).1 = (Recency.exec cache.maxSize items turn).1 ∧
      Represents (cache.exec turn).2 (Recency.exec cache.maxSize items turn).2 := by
  obtain ⟨call, now, orders⟩ := turn
  cases call with
  | insert key value ttlSecs => exact ⟨rfl, insert_represents h orders now key value ttlSecs⟩
  | get key =>
    have hget := get_represents h orders now key
    exact ⟨congrArg Reply.value hget.1, hget.2⟩
  | remove key =>
    have hpres : (cache.cache.entries.get key).isSome = (Recency.find key items).isSome := by
      rw [h.lists.find_eq, Option.isSome_map]
    exact ⟨congrArg Reply.removed hpres, h.lists.remove key,
      (Recency.length_without_le key items).trans h.sized, h.capacity⟩
  | clear => exact ⟨rfl, lists_empty h.lists.counted, Nat.zero_le _, h.capacity⟩

theorem exec_maxSize (cache : LruCache K V) (turn : Turn K V) :
    (cache.exec turn).2.maxSize = cache.maxSize := by
  obtain ⟨call, now, orders⟩ := turn
  cases call with
  | insert key value ttlSecs =>
    simp only [LruCache.exec, LruCache.insert]
    split_ifs <;> rfl
  | get key =>
    simp only [LruCache.exec, LruCache.get]
    split_ifs
    · rfl
    · cases (cache.cache.entries.get key).map CacheEntry.value <;> rfl
  | remove key => rfl
  | clear => rfl

theorem run_maxSize : ∀ (turns : List (Turn K V)) (cache : LruCache K V),
    (cache.run turns).2.maxSize = cache.maxSize
  | [], _ => rfl
  | turn :: turns, cache => (run_maxSize turns (cache.exec turn).2).trans (exec_maxSize cache turn)

theorem run_represents : ∀ (turns : List (Turn K V)) {cache : LruCache K V}
    {items : List (Item K V)}, Represents cache items →
    (cache.run turns).1 = (Recency.run cache.maxSize items turns).1 ∧
      Represents (cache.run turns).2 (Recency.run cache.maxSize items turns).2
  | [], _, _, h => ⟨rfl, h⟩
  | turn :: turns, cache, items, h => by
    obtain ⟨hrep, hnext⟩ := exec_represents h turn
    obtain ⟨hrepl, hlast⟩ := run_represents turns hnext
    rw [exec_maxSize] at hrepl hlast
    exact ⟨congrArg₂ cons hrep hrepl, hlast⟩

/-! ### Statistics -/

/-- The lookups a reply answers with a value. -/
def Reply.hits : Reply V → Nat
  | .value (some _) => 1
  | _ => 0

/-- The lookups a reply answers with none. -/
def Reply.misses : Reply V → Nat
  | .value none => 1
  | _ => 0

def Call.gets : Call K V → Nat
  | .get _ => 1
  | _ => 0

/-- The counters have seen so many hits and misses. -/
structure Counted (cache : LruCache K V) (hits misses : Nat) : Prop where
  hits_eq : cache.hits = min hits u64Max
  misses_eq : cache.misses = min misses u64Max

theorem increment_min (count : Nat) : increment (min count u64Max) = min (count + 1) u64Max := by
  unfold increment saturatingAdd
  omega

theorem exec_counted {hits misses : Nat} (h : Counted cache hits misses) (turn : Turn K V) :
    Counted (cache.exec turn).2 (hits + (cache.exec turn).1.hits)
        (misses + (cache.exec turn).1.misses) ∧
      (cache.exec turn).1.hits + (cache.exec turn).1.misses = turn.call.gets := by
  obtain ⟨call, now, orders⟩ := turn
  cases call with
  | insert key value ttlSecs =>
    refine ⟨⟨?_, ?_⟩, rfl⟩
    · simp only [LruCache.exec, LruCache.insert]
      split_ifs <;> exact h.hits_eq
    · simp only [LruCache.exec, LruCache.insert]
      split_ifs <;> exact h.misses_eq
  | get key =>
    cases hget : cache.cache.entries.get key with
    | none =>
      simp only [LruCache.exec, LruCache.get_missing hget]
      exact ⟨⟨h.hits_eq, (congrArg _ h.misses_eq).trans (increment_min misses)⟩, rfl⟩
    | some entry =>
      by_cases hexpired : entry.isExpiredAt now = true
      · simp only [LruCache.exec, LruCache.get_expired hget hexpired]
        exact ⟨⟨h.hits_eq, (congrArg _ h.misses_eq).trans (increment_min misses)⟩, rfl⟩
      · simp only [LruCache.exec, LruCache.get_found hget (Bool.not_eq_true _ ▸ hexpired) rfl]
        exact ⟨⟨(congrArg _ h.hits_eq).trans (increment_min hits), h.misses_eq⟩, rfl⟩
  | remove key => exact ⟨⟨h.hits_eq, h.misses_eq⟩, rfl⟩
  | clear => exact ⟨⟨h.hits_eq, h.misses_eq⟩, rfl⟩

theorem run_counted : ∀ (turns : List (Turn K V)) {cache : LruCache K V} {hits misses : Nat},
    Counted cache hits misses →
    Counted (cache.run turns).2 (hits + ((cache.run turns).1.map Reply.hits).sum)
        (misses + ((cache.run turns).1.map Reply.misses).sum) ∧
      ((cache.run turns).1.map Reply.hits).sum + ((cache.run turns).1.map Reply.misses).sum =
        (turns.map fun turn => turn.call.gets).sum
  | [], _, _, _, h => ⟨h, rfl⟩
  | turn :: turns, cache, hits, misses, h => by
    obtain ⟨hnext, hgets⟩ := exec_counted h turn
    obtain ⟨hlast, htot⟩ := run_counted turns hnext
    simp only [run, map_cons, sum_cons]
    rw [Nat.add_assoc, Nat.add_assoc] at hlast
    exact ⟨hlast, by omega⟩

/-- What a lookup finds is an item that has not expired. -/
theorem Represents.get_eq_some (h : Represents cache items) (orders : LruCache.Orders K V)
    (now : Nat) (key : K) (value : V) :
    (cache.get orders now key).1 = some value ↔
      ∃ item ∈ items, item.key = key ∧ item.value = value ∧ ¬item.expired now := by
  rw [(get_represents h orders now key).1, Recency.get]
  constructor
  · intro hfnd
    cases hfind : Recency.find key items with
    | none => simp [hfind] at hfnd
    | some item =>
      simp only [hfind] at hfnd
      split_ifs at hfnd with hexpired
      have hkey : item.key = key := by simpa using find?_some hfind
      exact ⟨item, mem_of_find?_eq_some hfind, hkey, Option.some.inj hfnd, hexpired⟩
  · rintro ⟨item, hmem, rfl, rfl, hfsh⟩
    rw [h.lists.find_of_mem hmem]
    simp only [if_neg hfsh]

/-- An empty cache whose counter stands anywhere. -/
def LruCache.countingFrom (maxSize counter : Nat) : LruCache K V :=
  ⟨⟨HashMap.empty, counter⟩, maxSize, 0, 0⟩

example (maxSize : Nat) : new maxSize = (countingFrom maxSize 0 : LruCache K V) :=
  rfl

/-- **The cache is a list in the order of the last accesses.** Whatever the
calls, the clock and the iteration orders, and wherever the counter starts, the
replies are those of the list; the cache holds at most as many entries as it
may, with numbers of their own; what a lookup finds is an item of the list that
has not expired; and the counters have counted the lookups, up to their largest
value. -/
theorem lruCache_refines_recency (maxSize counter : Nat) (hcapacity : maxSize ≤ usizeMax)
    (hcounter : counter ≤ u128Max) (turns : List (Turn K V)) :
    ∃ replies items cache,
      (LruCache.countingFrom maxSize counter).run turns = (replies, cache) ∧
      Recency.run maxSize [] turns = (replies, items) ∧
      Lists cache.cache items ∧
      cache.cache.entries.len ≤ maxSize ∧
      (cache.cache.entries.entries.map accessSequence).Nodup ∧
      (∀ orders now key value, (cache.get orders now key).1 = some value ↔
        ∃ item ∈ items, item.key = key ∧ item.value = value ∧ ¬item.expired now) ∧
      ((turns.map fun turn => turn.call.gets).sum ≤ u64Max ∨
          cache.hits < u64Max ∧ cache.misses < u64Max →
        cache.hits + cache.misses = (turns.map fun turn => turn.call.gets).sum) := by
  have hsta : Represents (LruCache.countingFrom maxSize counter : LruCache K V) [] :=
    ⟨lists_empty hcounter, Nat.zero_le _, hcapacity⟩
  obtain ⟨hrepl, hlast⟩ := run_represents turns hsta
  obtain ⟨hcntd, htot⟩ := run_counted turns
    (⟨rfl, rfl⟩ : Counted (LruCache.countingFrom maxSize counter : LruCache K V) 0 0)
  have hsize := hlast.sized
  rw [run_maxSize] at hsize
  refine ⟨_, _, _, rfl, Prod.ext hrepl.symm rfl, hlast.lists, hlast.lists.length_eq ▸ hsize,
    hlast.lists.distinct, hlast.get_eq_some, fun huns => ?_⟩
  have hhitsEq := hcntd.hits_eq
  have hmiss := hcntd.misses_eq
  omega

/-- Two items, one looked up; then a third, and the counter has reached its end. -/
def sampleTurns : List (Turn Nat Nat) :=
  let inOrder : Iteration Nat (CacheEntry Nat) := ⟨id, fun _ => .refl _⟩
  [.insert 1 10 100, .insert 2 20 100, .get 1, .insert 3 30 100, .get 2, .get 1].map fun call =>
    { call, now := 5, orders := ⟨inOrder, inOrder⟩ }

theorem lruCache_refines_recency_sample :
    ∃ cache, (LruCache.countingFrom 2 (u128Max - 2)).run sampleTurns =
        ([.done, .done, .value (some 10), .done, .value none, .value (some 10)], cache) ∧
      cache.cache.entries.len ≤ 2 ∧ cache.hits + cache.misses = 3 := by
  obtain ⟨replies, items, cache, hrun, hit, -, hsize, -, -, hgets⟩ :=
    lruCache_refines_recency 2 (u128Max - 2) (by decide) (by decide) sampleTurns
  obtain rfl : _ = replies := (Prod.ext_iff.mp hit).1
  exact ⟨cache, hrun, hsize, hgets (.inl (by decide))⟩

end Termivar.Cache
