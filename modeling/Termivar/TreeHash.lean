/-
# Trees hashed from their leaves up

A document is a tree with labels at its leaves; an array has an order or not,
the members of an object have names. A node is hashed together with the digests
of what it holds, where the digests of an array without an order are sorted.
Two documents have the same digest exactly if they are alike, provided that
nothing hashed for them collides (`digest_eq_iff`). A document written as one
stream can be read back (`stream_append_inj`).
-/
import Termivar.Framing

namespace Termivar.TreeHash

open List

/-- A document with labels at its leaves. -/
inductive Doc (L : Type) where
  | leaf (label : L)
  | array (unordered : Bool) (items : List (Doc L))
  | object (members : List (String × Doc L))

variable {L M : Type}

namespace Doc

mutual

/-- The same document with other labels. -/
def map (f : L → M) : Doc L → Doc M
  | .leaf label => .leaf (f label)
  | .array unordered items => .array unordered (mapItems f items)
  | .object members => .object (mapMembers f members)

def mapItems (f : L → M) : List (Doc L) → List (Doc M)
  | [] => []
  | item :: items => map f item :: mapItems f items

def mapMembers (f : L → M) : List (String × Doc L) → List (String × Doc M)
  | [] => []
  | (name, item) :: members => (name, map f item) :: mapMembers f members

end

mutual

/-- Documents that differ in the order of unordered arrays alone. -/
def Alike : Doc L → Doc L → Prop
  | .leaf label, .leaf label' => label = label'
  | .array unordered items, .array unordered' items' => unordered = unordered' ∧
      if unordered then ∃ arranged : List (Doc L), arranged.Perm items' ∧ AlikeItems items arranged
      else AlikeItems items items'
  | .object members, .object members' => AlikeMembers members members'
  | _, _ => False

def AlikeItems : List (Doc L) → List (Doc L) → Prop
  | [], [] => True
  | item :: items, item' :: items' => Alike item item' ∧ AlikeItems items items'
  | _, _ => False

def AlikeMembers : List (String × Doc L) → List (String × Doc L) → Prop
  | [], [] => True
  | (name, item) :: members, (name', item') :: members' =>
    name = name' ∧ Alike item item' ∧ AlikeMembers members members'
  | _, _ => False

end

mutual

/-- Every array has an order. -/
def Ordered : Doc L → Prop
  | .leaf _ => True
  | .array unordered items => unordered = false ∧ OrderedItems items
  | .object members => OrderedMembers members

def OrderedItems : List (Doc L) → Prop
  | [] => True
  | item :: items => Ordered item ∧ OrderedItems items

def OrderedMembers : List (String × Doc L) → Prop
  | [] => True
  | (_, item) :: members => Ordered item ∧ OrderedMembers members

end

mutual

/-- Names are short enough for their lengths to be written. -/
def ShortNames : Doc L → Prop
  | .leaf _ => True
  | .array _ items => ShortNamesItems items
  | .object members => ShortNamesMembers members

def ShortNamesItems : List (Doc L) → Prop
  | [] => True
  | item :: items => ShortNames item ∧ ShortNamesItems items

def ShortNamesMembers : List (String × Doc L) → Prop
  | [] => True
  | (name, item) :: members =>
    (utf8Bytes name).length < 256 ^ 8 ∧ ShortNames item ∧ ShortNamesMembers members

end

theorem mapItems_eq_map (f : L → M) : ∀ items : List (Doc L), mapItems f items = items.map (map f)
  | [] => rfl
  | item :: items => by rw [mapItems, mapItems_eq_map f items, map_cons]

theorem mapMembers_eq_map (f : L → M) : ∀ members : List (String × Doc L),
    mapMembers f members = members.map fun member => (member.1, map f member.2)
  | [] => rfl
  | (_, _) :: members => by rw [mapMembers, mapMembers_eq_map f members, map_cons]

theorem alikeItems_iff : ∀ {items others : List (Doc L)},
    AlikeItems items others ↔ List.Forall₂ Alike items others
  | [], [] => by simp [AlikeItems]
  | [], _ :: _ => by simp [AlikeItems]
  | _ :: _, [] => by simp [AlikeItems]
  | item :: items, other :: others => by
    rw [AlikeItems, forall₂_cons, alikeItems_iff]

theorem shortNamesItems_iff : ∀ {items : List (Doc L)},
    ShortNamesItems items ↔ ∀ item ∈ items, ShortNames item
  | [] => by simp [ShortNamesItems]
  | item :: items => by rw [ShortNamesItems, forall_mem_cons, shortNamesItems_iff]

mutual

/-- Where every array has an order, alike documents are the same. -/
theorem alike_iff_eq : ∀ {tree other : Doc L}, tree.Ordered → (tree.Alike other ↔ tree = other)
  | .leaf label, .leaf label', _ => by simp [Alike]
  | .array unordered items, .array unordered' items', h => by
    obtain ⟨rfl, hit⟩ := h
    have hsame : AlikeItems items items' ↔ items = items' := alikeItems_iff_eq hit
    cases unordered' <;> simp [Alike, hsame]
  | .object members, .object members', h => by
    have hsame : AlikeMembers members members' ↔ members = members' := alikeMembers_iff_eq h
    simp only [Alike, hsame, object.injEq]
  | .leaf _, .array _ _, _ => by simp [Alike]
  | .leaf _, .object _, _ => by simp [Alike]
  | .array _ _, .leaf _, _ => by simp [Alike]
  | .array _ _, .object _, _ => by simp [Alike]
  | .object _, .leaf _, _ => by simp [Alike]
  | .object _, .array _ _, _ => by simp [Alike]

theorem alikeItems_iff_eq : ∀ {items others : List (Doc L)}, OrderedItems items →
    (AlikeItems items others ↔ items = others)
  | [], [], _ => by simp [AlikeItems]
  | [], _ :: _, _ => by simp [AlikeItems]
  | _ :: _, [], _ => by simp [AlikeItems]
  | item :: items, other :: others, h => by
    rw [AlikeItems, alike_iff_eq h.1, alikeItems_iff_eq h.2, cons.injEq]

theorem alikeMembers_iff_eq : ∀ {members others : List (String × Doc L)}, OrderedMembers members →
    (AlikeMembers members others ↔ members = others)
  | [], [], _ => by simp [AlikeMembers]
  | [], _ :: _, _ => by simp [AlikeMembers]
  | _ :: _, [], _ => by simp [AlikeMembers]
  | (name, item) :: members, (name', item') :: others, h => by
    rw [AlikeMembers, alike_iff_eq h.1, alikeMembers_iff_eq h.2, cons.injEq, Prod.mk.injEq,
      and_assoc]

end

end Doc

open Doc

/-! ### Digests -/

/-- The order of byte strings. -/
def bytesLe (left right : Bytes) : Prop := left.map UInt8.toNat ≤ right.map UInt8.toNat

instance : DecidableRel bytesLe := fun left right =>
  inferInstanceAs (Decidable (left.map UInt8.toNat ≤ right.map UInt8.toNat))

instance : Std.Total bytesLe := ⟨fun left _ => le_total (left.map UInt8.toNat) _⟩

instance : IsTrans Bytes bytesLe := ⟨fun _ _ _ h h' => le_trans (α := List Nat) h h'⟩

theorem bytesLe_antisymm {left right : Bytes} (h : bytesLe left right)
    (h' : bytesLe right left) : left = right :=
  map_injective_iff.mpr (fun _ _ => UInt8.toNat_inj.mp) (le_antisymm (α := List Nat) h h')

/-- The digests of an array, sorted unless it has an order. -/
def arrange (unordered : Bool) (digests : List Bytes) : List Bytes :=
  if unordered then digests.insertionSort bytesLe else digests

/-- How nodes are written. -/
structure HashScheme (L : Type) where
  leaf : L → Bytes
  array : Bool → Bytes
  object : Bytes
  leaf_injective : Function.Injective leaf
  array_apart : ∀ rest rest', array true ++ rest ≠ array false ++ rest'
  leaf_array : ∀ label unordered rest, leaf label ≠ array unordered ++ rest
  leaf_object : ∀ label rest, leaf label ≠ object ++ rest
  array_object : ∀ unordered rest rest', array unordered ++ rest ≠ object ++ rest'

section Digest

variable (scheme : HashScheme L) (hash : Bytes → Bytes)

mutual

def digest : Doc L → Bytes
  | .leaf label => hash (scheme.leaf label)
  | .array unordered items => hash (scheme.array unordered ++ beBytes 8 items.length ++
      (arrange unordered (digests items)).flatten)
  | .object members => hash (scheme.object ++ beBytes 8 members.length ++ memberBytes members)

def digests : List (Doc L) → List Bytes
  | [] => []
  | item :: items => digest item :: digests items

/-- What an object writes for its members. -/
def memberBytes : List (String × Doc L) → Bytes
  | [] => []
  | (name, item) :: members => frame 8 (utf8Bytes name) ++ digest item ++ memberBytes members

end

/-- What a node is the digest of. -/
def nodeBytes : Doc L → Bytes
  | .leaf label => scheme.leaf label
  | .array unordered items => scheme.array unordered ++ beBytes 8 items.length ++
      (arrange unordered (digests scheme hash items)).flatten
  | .object members => scheme.object ++ beBytes 8 members.length ++ memberBytes scheme hash members

theorem digest_eq (doc : Doc L) : digest scheme hash doc = hash (nodeBytes scheme hash doc) := by
  cases doc <;> simp only [digest, nodeBytes]

theorem digests_eq_map : ∀ items : List (Doc L),
    digests scheme hash items = items.map (digest scheme hash)
  | [] => by simp [digests]
  | item :: items => by rw [digests, digests_eq_map items, map_cons]

theorem memberBytes_eq_flatMap : ∀ members : List (String × Doc L),
    memberBytes scheme hash members = members.flatMap fun member =>
      frame 8 (utf8Bytes member.1) ++ digest scheme hash member.2
  | [] => by simp [memberBytes]
  | (_, _) :: members => by rw [memberBytes, memberBytes_eq_flatMap members, flatMap_cons]

mutual

/-- All that is hashed for a document. -/
def hashed : Doc L → List Bytes
  | .leaf label => [scheme.leaf label]
  | .array unordered items => nodeBytes scheme hash (.array unordered items) :: hashedItems items
  | .object members => nodeBytes scheme hash (.object members) :: hashedMembers members

def hashedItems : List (Doc L) → List Bytes
  | [] => []
  | item :: items => hashed item ++ hashedItems items

def hashedMembers : List (String × Doc L) → List Bytes
  | [] => []
  | (_, item) :: members => hashed item ++ hashedMembers members

end

theorem nodeBytes_mem_hashed (doc : Doc L) : nodeBytes scheme hash doc ∈ hashed scheme hash doc := by
  cases doc <;> simp [hashed, nodeBytes]

theorem hashedItems_subset_iff {inputs : Set Bytes} : ∀ {items : List (Doc L)},
    (∀ input ∈ hashedItems scheme hash items, input ∈ inputs) ↔
      ∀ item ∈ items, ∀ input ∈ hashed scheme hash item, input ∈ inputs
  | [] => by simp [hashedItems]
  | item :: items => by
    simp only [hashedItems, forall_mem_append, forall_mem_cons, hashedItems_subset_iff]

end Digest

/-- Lists of byte strings of one length are told apart by their bytes. -/
theorem flatten_inj {width : Nat} (hpos : 0 < width) : ∀ {xs ys : List Bytes},
    (∀ x ∈ xs, x.length = width) → (∀ y ∈ ys, y.length = width) → xs.flatten = ys.flatten → xs = ys
  | [], [], _, _, _ => rfl
  | [], y :: ys, _, hy, h => by
    have hlength := congrArg length h
    simp [hy y mem_cons_self] at hlength
    omega
  | x :: xs, [], hx, _, h => by
    have hlength := congrArg length h
    simp [hx x mem_cons_self] at hlength
    omega
  | x :: xs, y :: ys, hx, hy, h => by
    obtain ⟨hwidth, hxs⟩ := forall_mem_cons.mp hx
    obtain ⟨hwidth', hys⟩ := forall_mem_cons.mp hy
    rw [flatten_cons, flatten_cons] at h
    obtain ⟨hhead, htail⟩ := append_inj h (by rw [hwidth, hwidth'])
    rw [hhead, flatten_inj hpos hxs hys htail]

theorem arrange_eq_iff {unordered : Bool} {xs ys : List Bytes} :
    arrange unordered xs = arrange unordered ys ↔ if unordered then xs.Perm ys else xs = ys := by
  cases unordered with
  | false => simp [arrange]
  | true =>
    simp only [arrange, if_true]
    constructor
    · intro h
      exact (perm_insertionSort bytesLe xs).symm.trans (h ▸ perm_insertionSort bytesLe ys)
    · intro h
      refine List.Perm.eq_of_pairwise (fun _ _ _ _ => bytesLe_antisymm)
        (pairwise_insertionSort bytesLe xs) (pairwise_insertionSort bytesLe ys) ?_
      exact (perm_insertionSort bytesLe xs).trans (h.trans (perm_insertionSort bytesLe ys).symm)

theorem length_arrange (unordered : Bool) (xs : List Bytes) :
    (arrange unordered xs).length = xs.length := by
  cases unordered with
  | false => rfl
  | true => exact (perm_insertionSort bytesLe xs).length_eq

theorem mem_arrange {unordered : Bool} {xs : List Bytes} {x : Bytes} :
    x ∈ arrange unordered xs ↔ x ∈ xs := by
  cases unordered <;> simp [arrange, mem_insertionSort]

/-- A rearrangement of the images is one of the list. -/
theorem exists_perm_map {α β : Type} {f : α → β} {ys : List β} {xs : List α}
    (h : ys.Perm (xs.map f)) : ∃ arranged : List α, arranged.Perm xs ∧ ys = arranged.map f := by
  have hpaired : List.Forall₂ (fun y x => y = f x) (xs.map f) xs := by
    rw [forall₂_map_left_iff, forall₂_same]
    exact fun _ _ => rfl
  obtain ⟨arranged, hpaired, hperm⟩ := perm_comp_forall₂ h hpaired
  refine ⟨arranged, hperm, ?_⟩
  clear h hperm
  induction hpaired with
  | nil => rfl
  | cons hy _ ih => rw [map_cons, ← ih, hy]

section Collisions

variable {scheme : HashScheme L} {hash : Bytes → Bytes} {width : Nat}
  {inputs : Set Bytes}

theorem length_digests (hwidth : ∀ bytes, (hash bytes).length = width) (items : List (Doc L)) :
    ∀ x ∈ digests scheme hash items, x.length = width := by
  rw [digests_eq_map]
  intro x hx
  obtain ⟨item, -, rfl⟩ := mem_map.mp hx
  rw [digest_eq, hwidth]

mutual

/-- Without collisions, documents with the same digest are alike. -/
theorem alike_of_digest_eq (hwidth : ∀ bytes, (hash bytes).length = width) (hpos : 0 < width)
    (hinj : Set.InjOn hash inputs) : ∀ {doc other : Doc L},
    (∀ input ∈ hashed scheme hash doc, input ∈ inputs) →
    (∀ input ∈ hashed scheme hash other, input ∈ inputs) →
    doc.ShortNames → other.ShortNames →
    digest scheme hash doc = digest scheme hash other → doc.Alike other
  | .leaf label, other, hdoc, hoth, _, _, h => by
    rw [digest_eq, digest_eq] at h
    have hbs := hinj (hdoc _ (nodeBytes_mem_hashed scheme hash _))
      (hoth _ (nodeBytes_mem_hashed scheme hash _)) h
    cases other with
    | leaf label' => exact scheme.leaf_injective hbs
    | array unordered items =>
      simp only [nodeBytes, append_assoc] at hbs
      exact absurd hbs (scheme.leaf_array _ _ _)
    | object members =>
      simp only [nodeBytes, append_assoc] at hbs
      exact absurd hbs (scheme.leaf_object _ _)
  | .array unordered items, other, hdoc, hoth, hsh, hsh', h => by
    rw [digest_eq, digest_eq] at h
    have hbs := hinj (hdoc _ (nodeBytes_mem_hashed scheme hash _))
      (hoth _ (nodeBytes_mem_hashed scheme hash _)) h
    cases other with
    | leaf label =>
      simp only [nodeBytes, append_assoc] at hbs
      exact absurd hbs.symm (scheme.leaf_array _ _ _)
    | object members =>
      simp only [nodeBytes, append_assoc] at hbs
      exact absurd hbs (scheme.array_object _ _ _)
    | array unordered' items' =>
      simp only [nodeBytes, append_assoc] at hbs
      have hflag : unordered = unordered' := by
        cases unordered <;> cases unordered'
        · rfl
        · exact absurd hbs.symm (scheme.array_apart _ _)
        · exact absurd hbs (scheme.array_apart _ _)
        · rfl
      subst hflag
      obtain ⟨-, hrest⟩ := append_inj (append_cancel_left hbs) (by simp)
      have hdig : arrange unordered (digests scheme hash items) =
          arrange unordered (digests scheme hash items') :=
        flatten_inj hpos (fun x hx => length_digests hwidth items x (mem_arrange.mp hx))
          (fun x hx => length_digests hwidth items' x (mem_arrange.mp hx)) hrest
      rw [arrange_eq_iff] at hdig
      have hit : ∀ input ∈ hashedItems scheme hash items, input ∈ inputs :=
        fun input hinp => hdoc input (by simp [hashed, hinp])
      have hit' : ∀ input ∈ hashedItems scheme hash items', input ∈ inputs :=
        fun input hinp => hoth input (by simp [hashed, hinp])
      refine ⟨rfl, ?_⟩
      cases unordered with
      | false =>
        exact alikeItems_of_digests_eq hwidth hpos hinj hit hit' hsh hsh' hdig
      | true =>
        -- a rearrangement of the digests is one of the items
        rw [if_pos rfl, digests_eq_map scheme hash items'] at hdig
        obtain ⟨arranged, hperm, hmap⟩ := exists_perm_map hdig
        rw [← digests_eq_map] at hmap
        refine ⟨arranged, hperm, ?_⟩
        refine alikeItems_of_digests_eq hwidth hpos hinj hit ?_ hsh ?_ hmap
        · rw [hashedItems_subset_iff] at hit' ⊢
          exact fun item hitem => hit' item (hperm.mem_iff.mp hitem)
        · rw [shortNamesItems_iff]
          exact fun item hitem => shortNamesItems_iff.mp hsh' item (hperm.mem_iff.mp hitem)
  | .object members, other, hdoc, hoth, hsh, hsh', h => by
    rw [digest_eq, digest_eq] at h
    have hbs := hinj (hdoc _ (nodeBytes_mem_hashed scheme hash _))
      (hoth _ (nodeBytes_mem_hashed scheme hash _)) h
    cases other with
    | leaf label =>
      simp only [nodeBytes, append_assoc] at hbs
      exact absurd hbs.symm (scheme.leaf_object _ _)
    | array unordered items =>
      simp only [nodeBytes, append_assoc] at hbs
      exact absurd hbs.symm (scheme.array_object _ _ _)
    | object members' =>
      simp only [nodeBytes, append_assoc] at hbs
      obtain ⟨-, hrest⟩ := append_inj (append_cancel_left hbs) (by simp)
      exact alikeMembers_of_memberBytes_eq hwidth hpos hinj
        (fun input hinp => hdoc input (by simp [hashed, hinp]))
        (fun input hinp => hoth input (by simp [hashed, hinp])) hsh hsh' hrest

theorem alikeItems_of_digests_eq (hwidth : ∀ bytes, (hash bytes).length = width) (hpos : 0 < width)
    (hinj : Set.InjOn hash inputs) : ∀ {items others : List (Doc L)},
    (∀ input ∈ hashedItems scheme hash items, input ∈ inputs) →
    (∀ input ∈ hashedItems scheme hash others, input ∈ inputs) →
    ShortNamesItems items → ShortNamesItems others →
    digests scheme hash items = digests scheme hash others → AlikeItems items others
  | [], [], _, _, _, _, _ => trivial
  | [], _ :: _, _, _, _, _, h => by simp [digests] at h
  | _ :: _, [], _, _, _, _, h => by simp [digests] at h
  | item :: items, other :: others, hit, hoths, hsh, hsh', h => by
    simp only [digests, cons.injEq] at h
    simp only [hashedItems, forall_mem_append] at hit hoths
    exact ⟨alike_of_digest_eq hwidth hpos hinj hit.1 hoths.1 hsh.1 hsh'.1 h.1,
      alikeItems_of_digests_eq hwidth hpos hinj hit.2 hoths.2 hsh.2 hsh'.2 h.2⟩

theorem alikeMembers_of_memberBytes_eq (hwidth : ∀ bytes, (hash bytes).length = width)
    (hpos : 0 < width) (hinj : Set.InjOn hash inputs) : ∀ {members others : List (String × Doc L)},
    (∀ input ∈ hashedMembers scheme hash members, input ∈ inputs) →
    (∀ input ∈ hashedMembers scheme hash others, input ∈ inputs) →
    ShortNamesMembers members → ShortNamesMembers others →
    memberBytes scheme hash members = memberBytes scheme hash others → AlikeMembers members others
  | [], [], _, _, _, _, _ => trivial
  | [], (name, item) :: _, _, _, _, _, h => by
    have hlength := congrArg length h
    simp [memberBytes, frame] at hlength
    omega
  | (name, item) :: _, [], _, _, _, _, h => by
    have hlength := congrArg length h
    simp [memberBytes, frame] at hlength
  | (name, item) :: members, (name', item') :: others, hmems, hoths, hsh, hsh', h => by
    simp only [memberBytes, append_assoc] at h
    simp only [hashedMembers, forall_mem_append] at hmems hoths
    obtain ⟨hname, hrest⟩ := frame_append_inj hsh.1 hsh'.1 h
    obtain ⟨hitem, hmore⟩ := append_inj hrest (by
      rw [digest_eq, digest_eq, hwidth, hwidth])
    exact ⟨utf8Bytes_injective hname,
      alike_of_digest_eq hwidth hpos hinj hmems.1 hoths.1 hsh.2.1 hsh'.2.1 hitem,
      alikeMembers_of_memberBytes_eq hwidth hpos hinj hmems.2 hoths.2 hsh.2.2 hsh'.2.2 hmore⟩

end

mutual

/-- Alike documents have the same digest. -/
theorem digest_eq_of_alike : ∀ {doc other : Doc L}, doc.Alike other →
    digest scheme hash doc = digest scheme hash other
  | .leaf label, .leaf label', h => by
    obtain rfl : label = label' := h
    rfl
  | .array unordered items, .array unordered' items', h => by
    obtain ⟨rfl, h⟩ := h
    have hlength : items.length = items'.length ∧ arrange unordered (digests scheme hash items) =
        arrange unordered (digests scheme hash items') := by
      rw [arrange_eq_iff]
      cases unordered with
      | false =>
        have hsame := digests_eq_of_alike h
        refine ⟨?_, hsame⟩
        simpa [digests_eq_map] using congrArg length hsame
      | true =>
        obtain ⟨arranged, hperm, halike⟩ := h
        have hsame := digests_eq_of_alike halike
        rw [digests_eq_map _ _ arranged] at hsame
        refine ⟨?_, ?_⟩
        · rw [← hperm.length_eq]
          simpa [digests_eq_map] using congrArg length hsame
        · rw [if_pos rfl, hsame, digests_eq_map]
          exact hperm.map _
    simp only [digest, hlength.1, hlength.2]
  | .object members, .object members', h => by
    obtain ⟨hlength, hbs⟩ := memberBytes_eq_of_alike h
    simp only [digest, hlength, hbs]
  | .leaf _, .array _ _, h => h.elim
  | .leaf _, .object _, h => h.elim
  | .array _ _, .leaf _, h => h.elim
  | .array _ _, .object _, h => h.elim
  | .object _, .leaf _, h => h.elim
  | .object _, .array _ _, h => h.elim

theorem digests_eq_of_alike : ∀ {items others : List (Doc L)}, AlikeItems items others →
    digests scheme hash items = digests scheme hash others
  | [], [], _ => rfl
  | [], _ :: _, h => h.elim
  | _ :: _, [], h => h.elim
  | _ :: _, _ :: _, ⟨h, hrest⟩ => by
    rw [digests, digests, digest_eq_of_alike h, digests_eq_of_alike hrest]

theorem memberBytes_eq_of_alike : ∀ {members others : List (String × Doc L)},
    AlikeMembers members others → members.length = others.length ∧
      memberBytes scheme hash members = memberBytes scheme hash others
  | [], [], _ => ⟨rfl, rfl⟩
  | [], _ :: _, h => h.elim
  | _ :: _, [], h => h.elim
  | (_, _) :: _, (_, _) :: _, ⟨hname, h, hrest⟩ => by
    obtain ⟨hlength, hbs⟩ := memberBytes_eq_of_alike hrest
    simp only [length_cons, memberBytes, hname, digest_eq_of_alike h, hlength, hbs, and_self]

end

/-- **Without collisions, the digests of two documents tell whether they are
alike.** -/
theorem digest_eq_iff (hwidth : ∀ bytes, (hash bytes).length = width) (hpos : 0 < width)
    (hinj : Set.InjOn hash inputs) {doc other : Doc L}
    (hdoc : ∀ input ∈ hashed scheme hash doc, input ∈ inputs)
    (hoth : ∀ input ∈ hashed scheme hash other, input ∈ inputs)
    (hsh : doc.ShortNames) (hsh' : other.ShortNames) :
    digest scheme hash doc = digest scheme hash other ↔ doc.Alike other :=
  ⟨alike_of_digest_eq hwidth hpos hinj hdoc hoth hsh hsh', digest_eq_of_alike⟩

/-- The digest of a document that may be missing. -/
def rootDigest (scheme : HashScheme L) (hash : Bytes → Bytes) (missing : Bytes)
    (doc : Option (Doc L)) : Bytes :=
  (doc.map (digest scheme hash)).getD (hash missing)

/-- All that is hashed for a document that may be missing. -/
def rootHashed (scheme : HashScheme L) (hash : Bytes → Bytes) (missing : Bytes)
    (doc : Option (Doc L)) : List Bytes :=
  (doc.map (hashed scheme hash)).getD [missing]

/-- Without collisions, the digests of documents that may be missing tell
whether both are, or both are there and alike. -/
theorem rootDigest_eq_iff {missing : Bytes} (hwidth : ∀ bytes, (hash bytes).length = width)
    (hpos : 0 < width) (hinj : Set.InjOn hash inputs)
    (hmiss : ∀ doc : Doc L, nodeBytes scheme hash doc ≠ missing) {doc other : Option (Doc L)}
    (hdoc : ∀ input ∈ rootHashed scheme hash missing doc, input ∈ inputs)
    (hoth : ∀ input ∈ rootHashed scheme hash missing other, input ∈ inputs)
    (hsh : ∀ d ∈ doc, d.ShortNames) (hsh' : ∀ d ∈ other, d.ShortNames) :
    rootDigest scheme hash missing doc = rootDigest scheme hash missing other ↔
      Option.Rel Doc.Alike doc other := by
  have habsent : ∀ present : Doc L, (∀ input ∈ hashed scheme hash present, input ∈ inputs) →
      missing ∈ inputs → digest scheme hash present ≠ hash missing := by
    intro present hpres hmem h
    rw [digest_eq] at h
    exact hmiss present (hinj (hpres _ (nodeBytes_mem_hashed scheme hash present)) hmem h)
  cases doc with
  | none =>
    cases other with
    | none => exact ⟨fun _ => .none, fun _ => rfl⟩
    | some other =>
      refine ⟨fun h => ?_, fun h => nomatch h⟩
      exact absurd h.symm (habsent other hoth (hdoc missing (by simp [rootHashed])))
  | some doc =>
    cases other with
    | none =>
      refine ⟨fun h => ?_, fun h => nomatch h⟩
      exact absurd h (habsent doc hdoc (hoth missing (by simp [rootHashed])))
    | some other =>
      refine (digest_eq_iff hwidth hpos hinj hdoc hoth (hsh doc rfl) (hsh' other rfl)).trans ?_
      exact ⟨.some, fun h => by cases h; assumption⟩

end Collisions

/-! ### Other labels -/

section Relabelled

variable {N : Type} {f : L → M} {g : L → N}

mutual

/-- Documents that are alike by labels that determine others are alike by these. -/
theorem alike_map_of_alike_map (hfg : ∀ a b, f a = f b → g a = g b) : ∀ {doc other : Doc L},
    (doc.map f).Alike (other.map f) → (doc.map g).Alike (other.map g)
  | .leaf label, .leaf label', h => hfg label label' h
  | .array unordered items, .array unordered' items', h => by
    obtain ⟨rfl, h⟩ := h
    refine ⟨rfl, ?_⟩
    cases unordered with
    | false => exact alikeItems_map_of_alikeItems_map hfg h
    | true =>
      obtain ⟨arranged, hperm, halike⟩ := h
      rw [mapItems_eq_map] at hperm
      obtain ⟨originals, horig, rfl⟩ := exists_perm_map hperm
      rw [← mapItems_eq_map] at halike
      refine ⟨mapItems g originals, ?_, alikeItems_map_of_alikeItems_map hfg halike⟩
      rw [mapItems_eq_map, mapItems_eq_map]
      exact horig.map _
  | .object members, .object members', h => alikeMembers_map_of_alikeMembers_map hfg h
  | .leaf _, .array _ _, h => h.elim
  | .leaf _, .object _, h => h.elim
  | .array _ _, .leaf _, h => h.elim
  | .array _ _, .object _, h => h.elim
  | .object _, .leaf _, h => h.elim
  | .object _, .array _ _, h => h.elim

theorem alikeItems_map_of_alikeItems_map (hfg : ∀ a b, f a = f b → g a = g b) :
    ∀ {items others : List (Doc L)}, AlikeItems (mapItems f items) (mapItems f others) →
    AlikeItems (mapItems g items) (mapItems g others)
  | [], [], _ => trivial
  | [], _ :: _, h => h.elim
  | _ :: _, [], h => h.elim
  | _ :: _, _ :: _, ⟨h, hrest⟩ =>
    ⟨alike_map_of_alike_map hfg h, alikeItems_map_of_alikeItems_map hfg hrest⟩

theorem alikeMembers_map_of_alikeMembers_map (hfg : ∀ a b, f a = f b → g a = g b) :
    ∀ {members others : List (String × Doc L)},
    AlikeMembers (mapMembers f members) (mapMembers f others) →
    AlikeMembers (mapMembers g members) (mapMembers g others)
  | [], [], _ => trivial
  | [], (_, _) :: _, h => h.elim
  | (_, _) :: _, [], h => h.elim
  | (_, _) :: _, (_, _) :: _, ⟨hname, h, hrest⟩ =>
    ⟨hname, alike_map_of_alike_map hfg h, alikeMembers_map_of_alikeMembers_map hfg hrest⟩

end

end Relabelled

/-! ### Streams -/

/-- How a document is written as one stream, its nodes one after the other. -/
structure StreamScheme (L : Type) where
  leaf : L → Bytes
  /-- The labels whose lengths can be written. -/
  short : L → Prop
  (openArray closeArray openObject closeObject : UInt8)
  leaf_pos : ∀ label, 0 < (leaf label).length
  short_of_length : ∀ label, (leaf label).length < 256 ^ 8 → short label
  leaf_append_inj : ∀ {label label' rest rest'}, short label → short label' →
    leaf label ++ rest = leaf label' ++ rest' → label = label' ∧ rest = rest'
  leaf_array : ∀ label rest rest', leaf label ++ rest ≠ openArray :: rest'
  leaf_object : ∀ label rest rest', leaf label ++ rest ≠ openObject :: rest'
  array_object : openArray ≠ openObject

section Stream

variable (scheme : StreamScheme L)

mutual

def stream : Doc L → Bytes
  | .leaf label => scheme.leaf label
  | .array _ items =>
    scheme.openArray :: beBytes 8 items.length ++ streamItems items ++ [scheme.closeArray]
  | .object members =>
    scheme.openObject :: beBytes 8 members.length ++ streamMembers members ++ [scheme.closeObject]

def streamItems : List (Doc L) → Bytes
  | [] => []
  | item :: items => stream item ++ streamItems items

def streamMembers : List (String × Doc L) → Bytes
  | [] => []
  | (name, item) :: members => frame 8 (utf8Bytes name) ++ stream item ++ streamMembers members

end

mutual

/-- All lengths of the document can be written. -/
def Short : Doc L → Prop
  | .leaf label => scheme.short label
  | .array _ items => items.length < 256 ^ 8 ∧ ShortItems items
  | .object members => members.length < 256 ^ 8 ∧ ShortMembers members

def ShortItems : List (Doc L) → Prop
  | [] => True
  | item :: items => Short item ∧ ShortItems items

def ShortMembers : List (String × Doc L) → Prop
  | [] => True
  | (name, item) :: members =>
    (utf8Bytes name).length < 256 ^ 8 ∧ Short item ∧ ShortMembers members

end

variable {scheme}

theorem stream_pos (doc : Doc L) : 0 < (stream scheme doc).length := by
  cases doc with
  | leaf label => exact scheme.leaf_pos label
  | array unordered items => simp [stream]
  | object members => simp [stream]

theorem length_le_streamItems : ∀ items : List (Doc L),
    items.length ≤ (streamItems scheme items).length
  | [] => Nat.zero_le _
  | item :: items => by
    have hpos := @stream_pos L scheme item
    have hrest := length_le_streamItems items
    simp only [streamItems, length_cons, length_append]
    omega

theorem length_le_streamMembers : ∀ members : List (String × Doc L),
    members.length ≤ (streamMembers scheme members).length
  | [] => Nat.zero_le _
  | (name, item) :: members => by
    have hpos := @stream_pos L scheme item
    have hrest := length_le_streamMembers members
    simp only [streamMembers, length_cons, length_append]
    omega

mutual

/-- In a stream of a length that can be written, all lengths can be. -/
theorem short_of_length : ∀ {doc : Doc L}, (stream scheme doc).length < 256 ^ 8 → Short scheme doc
  | .leaf label, h => scheme.short_of_length label h
  | .array unordered items, h => by
    have hit : (streamItems scheme items).length < 256 ^ 8 := by
      simp only [stream, length_cons, length_append] at h
      omega
    exact ⟨(length_le_streamItems items).trans_lt hit, shortItems_of_length hit⟩
  | .object members, h => by
    have hmems : (streamMembers scheme members).length < 256 ^ 8 := by
      simp only [stream, length_cons, length_append] at h
      omega
    exact ⟨(length_le_streamMembers members).trans_lt hmems, shortMembers_of_length hmems⟩

theorem shortItems_of_length : ∀ {items : List (Doc L)},
    (streamItems scheme items).length < 256 ^ 8 → ShortItems scheme items
  | [], _ => trivial
  | item :: items, h => by
    simp only [streamItems, length_append] at h
    exact ⟨short_of_length (by omega), shortItems_of_length (by omega)⟩

theorem shortMembers_of_length : ∀ {members : List (String × Doc L)},
    (streamMembers scheme members).length < 256 ^ 8 → ShortMembers scheme members
  | [], _ => trivial
  | (name, item) :: members, h => by
    simp only [streamMembers, frame, length_append] at h
    exact ⟨by omega, short_of_length (by omega), shortMembers_of_length (by omega)⟩

end

mutual

theorem shortNames_of_short : ∀ {doc : Doc L}, Short scheme doc → doc.ShortNames
  | .leaf _, _ => trivial
  | .array _ _, h => shortNamesItems_of_short h.2
  | .object _, h => shortNamesMembers_of_short h.2

theorem shortNamesItems_of_short : ∀ {items : List (Doc L)}, ShortItems scheme items →
    ShortNamesItems items
  | [], _ => trivial
  | _ :: _, h => ⟨shortNames_of_short h.1, shortNamesItems_of_short h.2⟩

theorem shortNamesMembers_of_short : ∀ {members : List (String × Doc L)},
    ShortMembers scheme members → ShortNamesMembers members
  | [], _ => trivial
  | (_, _) :: _, h => ⟨h.1, shortNames_of_short h.2.1, shortNamesMembers_of_short h.2.2⟩

end

mutual

/-- A document is read back from the front of what follows it. -/
theorem stream_append_inj : ∀ {doc other : Doc L} {rest rest' : Bytes},
    doc.Ordered → other.Ordered → Short scheme doc → Short scheme other →
    stream scheme doc ++ rest = stream scheme other ++ rest' → doc = other ∧ rest = rest'
  | .leaf label, .leaf label', rest, rest', _, _, hsh, hsh', h => by
    obtain ⟨rfl, hrest⟩ := scheme.leaf_append_inj hsh hsh' h
    exact ⟨rfl, hrest⟩
  | .array unordered items, .array unordered' items', rest, rest', hord, hord', hsh, hsh', h => by
    obtain ⟨rfl, hit⟩ := hord
    obtain ⟨rfl, hit'⟩ := hord'
    simp only [stream, cons_append, append_assoc, cons.injEq, true_and] at h
    obtain ⟨hlength, h⟩ := beBytes_append_inj hsh.1 hsh'.1 h
    obtain ⟨rfl, h⟩ := streamItems_append_inj hlength hit hit' hsh.2 hsh'.2 h
    simpa using h
  | .object members, .object members', rest, rest', hord, hord', hsh, hsh', h => by
    simp only [stream, cons_append, append_assoc, cons.injEq, true_and] at h
    obtain ⟨hlength, h⟩ := beBytes_append_inj hsh.1 hsh'.1 h
    obtain ⟨rfl, h⟩ := streamMembers_append_inj hlength hord hord' hsh.2 hsh'.2 h
    simpa using h
  | .leaf _, .array _ _, _, _, _, _, _, _, h => absurd h (scheme.leaf_array _ _ _)
  | .leaf _, .object _, _, _, _, _, _, _, h => absurd h (scheme.leaf_object _ _ _)
  | .array _ _, .leaf _, _, _, _, _, _, _, h => absurd h.symm (scheme.leaf_array _ _ _)
  | .object _, .leaf _, _, _, _, _, _, _, h => absurd h.symm (scheme.leaf_object _ _ _)
  | .array _ _, .object _, _, _, _, _, _, _, h => absurd (cons.inj h).1 scheme.array_object
  | .object _, .array _ _, _, _, _, _, _, _, h =>
    absurd (cons.inj h).1.symm scheme.array_object

theorem streamItems_append_inj : ∀ {items others : List (Doc L)} {rest rest' : Bytes},
    items.length = others.length → OrderedItems items → OrderedItems others →
    ShortItems scheme items → ShortItems scheme others →
    streamItems scheme items ++ rest = streamItems scheme others ++ rest' →
    items = others ∧ rest = rest'
  | [], [], _, _, _, _, _, _, _, h => ⟨rfl, h⟩
  | [], _ :: _, _, _, hlength, _, _, _, _, _ => by simp at hlength
  | _ :: _, [], _, _, hlength, _, _, _, _, _ => by simp at hlength
  | item :: items, other :: others, rest, rest', hlength, hord, hord', hsh, hsh', h => by
    simp only [streamItems, append_assoc] at h
    obtain ⟨hitem, htail⟩ := stream_append_inj hord.1 hord'.1 hsh.1 hsh'.1 h
    obtain ⟨hit, hrest⟩ := streamItems_append_inj (by simpa using hlength) hord.2 hord'.2
      hsh.2 hsh'.2 htail
    exact ⟨by rw [hitem, hit], hrest⟩

theorem streamMembers_append_inj : ∀ {members others : List (String × Doc L)}
    {rest rest' : Bytes}, members.length = others.length →
    OrderedMembers members → OrderedMembers others →
    ShortMembers scheme members → ShortMembers scheme others →
    streamMembers scheme members ++ rest = streamMembers scheme others ++ rest' →
    members = others ∧ rest = rest'
  | [], [], _, _, _, _, _, _, _, h => ⟨rfl, h⟩
  | [], _ :: _, _, _, hlength, _, _, _, _, _ => by simp at hlength
  | _ :: _, [], _, _, hlength, _, _, _, _, _ => by simp at hlength
  | (name, item) :: members, (name', item') :: others, rest, rest', hlength, hord, hord',
      hsh, hsh', h => by
    simp only [streamMembers, append_assoc] at h
    obtain ⟨hname, haft⟩ := frame_append_inj hsh.1 hsh'.1 h
    obtain ⟨hitem, htail⟩ :=
      stream_append_inj hord.1 hord'.1 hsh.2.1 hsh'.2.1 haft
    obtain ⟨hmems, hrest⟩ := streamMembers_append_inj (by simpa using hlength) hord.2
      hord'.2 hsh.2.2 hsh'.2.2 htail
    exact ⟨by rw [utf8Bytes_injective hname, hitem, hmems], hrest⟩

end

/-- **A stream is written by one document alone.** -/
theorem stream_inj {doc other : Doc L} (hord : doc.Ordered) (hord' : other.Ordered)
    (hsh : Short scheme doc) (hsh' : Short scheme other) :
    stream scheme doc = stream scheme other ↔ doc = other := by
  refine ⟨fun h => ?_, fun h => h ▸ rfl⟩
  exact (stream_append_inj hord hord' hsh hsh' (congrArg (fun bytes => bytes ++ ([] : Bytes)) h)).1

end Stream

end Termivar.TreeHash
