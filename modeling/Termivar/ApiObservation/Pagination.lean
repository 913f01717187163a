/-
# Pages of visibility reviews

`termivar-scanner/src/api_observation/query.rs` and the paged reads of
`knowledge/relations.rs`: a page scans so many incoming relations of a resource
after a cursor and projects them; the next cursor stands after the last one
scanned. Following the cursors ends, scans each incoming relation once, in
order, and finds all their reviews (`pages_exact`).
-/
import Termivar.ApiObservation.Cursor
import Termivar.ApiObservation.Review
import Termivar.Paging

namespace Termivar.ApiObservation

open SecondaryIndex Command List

def hardMaxApiVisibilityReviewScanLimit : Nat := 1024

/-! ### Queries -/

structure ApiVisibilityReviewQuery where
  afterRelationId : Option RelationId
  scanLimit : Nat
  positive : scanLimit ≠ 0
  bounded : scanLimit ≤ hardMaxApiVisibilityReviewScanLimit

namespace ApiVisibilityReviewQuery

def new (scanLimit : Nat) : Except ApiObservationError ApiVisibilityReviewQuery :=
  if positive : scanLimit ≠ 0 then
    if bounded : scanLimit ≤ hardMaxApiVisibilityReviewScanLimit then
      .ok { afterRelationId := none, scanLimit, positive, bounded }
    else .error (.reviewScanLimitExceeded scanLimit hardMaxApiVisibilityReviewScanLimit)
  else .error .zeroReviewScanLimit

/-- `ApiVisibilityReviewQuery::after_relation_id`. -/
def startAfter (query : ApiVisibilityReviewQuery) (relationId : RelationId) :
    Except ApiObservationError ApiVisibilityReviewQuery :=
  if relationId.value.utf8ByteSize > maxKnowledgeRelationIdBytes then
    .error (.reviewCursorTooLong relationId.value.utf8ByteSize maxKnowledgeRelationIdBytes)
  else .ok { query with afterRelationId := some relationId }

end ApiVisibilityReviewQuery

/-! ### Reads -/

/-- `KnowledgeBase::relations_to`. -/
def relationsTo (knowledge : KnowledgeState) (entityId : EntityId) : List KnowledgeRelation :=
  collectIndexed knowledge.relationsTo[entityId]? knowledge.relations

/-- `KnowledgeBase::relations_to_page_with_more`. -/
def relationsToPageWithMore (knowledge : KnowledgeState) (entityId : EntityId)
    (afterExclusive : Option RelationId) (limit : Nat) : List KnowledgeRelation × Bool :=
  if limit = 0 then ([], false)
  else
    match knowledge.relationsTo[entityId]? with
    | none => ([], false)
    | some ids =>
      let (scanned, hasMore) := Paging.page afterExclusive limit ids.toList
      (scanned.filterMap fun id => knowledge.relations[id]?, hasMore)

/-! ### Pages -/

structure ApiVisibilityReviewPage where
  resourceScope : EntityId
  reviews : List ApiVisibilityReview
  scannedRelations : Nat
  nextAfterRelationId : Option RelationId

variable (sha256 : Bytes → ResourceDigest)

def ApiVisibilityReviewPage.nextCursor (page : ApiVisibilityReviewPage) :
    Except ApiObservationError (Option ApiVisibilityReviewCursor) :=
  match page.nextAfterRelationId with
  | none => .ok none
  | some relationId => some <$> ApiVisibilityReviewCursor.new sha256 page.resourceScope relationId

/-- `api_visibility_reviews_for_resource`. -/
def apiVisibilityReviewsForResource (knowledge : KnowledgeState) (resourceScope : EntityId)
    (query : ApiVisibilityReviewQuery) : ApiVisibilityReviewPage :=
  let (relations, hasMore) :=
    relationsToPageWithMore knowledge resourceScope query.afterRelationId query.scanLimit
  { resourceScope
    reviews := relations.filterMap (projectApiVisibilityReview knowledge resourceScope)
    scannedRelations := relations.length
    nextAfterRelationId :=
      if hasMore then relations.getLast?.map KnowledgeRelation.id else none }

/-- The query behind a cursor, which must be one of the resource. -/
def queryAt (resourceScope : EntityId) (cursor : Option ApiVisibilityReviewCursor)
    (query : ApiVisibilityReviewQuery) : Except ApiObservationError ApiVisibilityReviewQuery :=
  match cursor with
  | none => .ok query
  | some cursor =>
    if ¬ cursor.matchesResource sha256 resourceScope then .error .resourceBoundReviewCursorMismatch
    else query.startAfter cursor.afterRelationId

/-- `api_visibility_reviews_for_resource_v2`. -/
def apiVisibilityReviewsForResourceV2 (knowledge : KnowledgeState) (resourceScope : EntityId)
    (cursor : Option ApiVisibilityReviewCursor) (scanLimit : Nat) :
    Except ApiObservationError ApiVisibilityReviewPage := do
  let query ← ApiVisibilityReviewQuery.new scanLimit
  let query ← queryAt sha256 resourceScope cursor query
  return apiVisibilityReviewsForResource knowledge resourceScope query

/-- What the page at a cursor scans. -/
def scannedAt (knowledge : KnowledgeState) (resourceScope : EntityId)
    (cursor : Option ApiVisibilityReviewCursor) (scanLimit : Nat) : List KnowledgeRelation :=
  (relationsToPageWithMore knowledge resourceScope
    (cursor.map ApiVisibilityReviewCursor.afterRelationId) scanLimit).1

/-- Pages got by following the next cursor, each with what it scans, until
there is none. -/
inductive Follows (knowledge : KnowledgeState) (resourceScope : EntityId) (limits : Nat → Nat) :
    Nat → Option ApiVisibilityReviewCursor →
      List (List KnowledgeRelation × ApiVisibilityReviewPage) → Prop where
  | last {turn : Nat} {cursor : Option ApiVisibilityReviewCursor} {page : ApiVisibilityReviewPage}
      (hpage : apiVisibilityReviewsForResourceV2 sha256 knowledge resourceScope cursor (limits turn) =
        .ok page) (hnext : page.nextCursor sha256 = .ok none) :
    Follows knowledge resourceScope limits turn cursor
      [(scannedAt knowledge resourceScope cursor (limits turn), page)]
  | next {turn : Nat} {cursor : Option ApiVisibilityReviewCursor}
      {following : ApiVisibilityReviewCursor} {page : ApiVisibilityReviewPage}
      {visits : List (List KnowledgeRelation × ApiVisibilityReviewPage)}
      (hpage : apiVisibilityReviewsForResourceV2 sha256 knowledge resourceScope cursor (limits turn) =
        .ok page) (hnext : page.nextCursor sha256 = .ok (some following))
      (hrest : Follows knowledge resourceScope limits (turn + 1) (some following) visits) :
    Follows knowledge resourceScope limits turn cursor
      ((scannedAt knowledge resourceScope cursor (limits turn), page) :: visits)

/-! ### Following -/

section Follow

variable {sha256} {knowledge : KnowledgeState} {resourceScope : EntityId}

/-- The indexed identifiers of the incoming relations. -/
def incomingIds (knowledge : KnowledgeState) (resourceScope : EntityId) : List RelationId :=
  (idsUnder knowledge.relationsTo resourceScope).toList

theorem ascending_incomingIds : Paging.Ascending (incomingIds knowledge resourceScope) :=
  Std.ExtTreeSet.ordered_toList

theorem relationsTo_eq : relationsTo knowledge resourceScope =
    (incomingIds knowledge resourceScope).filterMap fun id => knowledge.relations[id]? := rfl

/-- Every indexed identifier is that of a stored relation to the resource. -/
theorem exists_relation (h : Indexed knowledge) {id : RelationId}
    (hid : id ∈ incomingIds knowledge resourceScope) : ∃ relation : KnowledgeRelation,
      knowledge.relations[id]? = some relation ∧ relation.id = id ∧
        relation.target = resourceScope := by
  obtain ⟨relation, hget, htgt⟩ :=
    (h.relationsTo resourceScope id).mp (Std.ExtTreeSet.mem_toList.mp hid)
  exact ⟨relation, hget, h.relationIds id relation hget, htgt⟩

/-- What is found has the identifiers it is looked up by. -/
theorem ids_filterMap (h : Indexed knowledge) {ids : List RelationId}
    (hids : ∀ id ∈ ids, id ∈ incomingIds knowledge resourceScope) :
    (ids.filterMap fun id => knowledge.relations[id]?).map KnowledgeRelation.id = ids := by
  induction ids with
  | nil => rfl
  | cons id ids ih =>
    obtain ⟨relation, hget, hid, -⟩ := exists_relation h (hids id mem_cons_self)
    rw [filterMap_cons_some hget, map_cons, hid,
      ih fun other hoth => hids other (mem_cons_of_mem _ hoth)]

theorem page_eq (limit : Nat) (hlimit : limit ≠ 0) (position : Option RelationId) :
    relationsToPageWithMore knowledge resourceScope position limit =
      ((Paging.page position limit (incomingIds knowledge resourceScope)).1.filterMap
        (fun id => knowledge.relations[id]?),
        (Paging.page position limit (incomingIds knowledge resourceScope)).2) := by
  unfold relationsToPageWithMore incomingIds idsUnder
  rw [if_neg hlimit]
  cases knowledge.relationsTo[resourceScope]? with
  | none =>
    have hemp : (∅ : BTreeSet RelationId).toList = [] := Std.ExtTreeSet.toList_eq_nil_iff.mpr rfl
    simp [Paging.page, Paging.after, hemp]
  | some ids => rfl

/-- The cursor after a relation of the resource. -/
def cursorAfter (sha256 : Bytes → ResourceDigest) (resourceScope : EntityId)
    (relationId : RelationId) : ApiVisibilityReviewCursor :=
  ⟨cursorText (reviewCursorResourceDigest sha256 resourceScope) relationId,
    reviewCursorResourceDigest sha256 resourceScope, relationId⟩

/-- The query of a page. -/
def queryOf (position : Option RelationId) {limit : Nat} (hpositive : 1 ≤ limit)
    (hbounded : limit ≤ hardMaxApiVisibilityReviewScanLimit) : ApiVisibilityReviewQuery :=
  ⟨position, limit, Nat.one_le_iff_ne_zero.mp hpositive, hbounded⟩

theorem forResourceV2_ok {limit : Nat} (hpositive : 1 ≤ limit)
    (hbounded : limit ≤ hardMaxApiVisibilityReviewScanLimit) {position : Option RelationId}
    (hpos : ∀ id ∈ position, id.value.utf8ByteSize ≤ maxKnowledgeRelationIdBytes) :
    apiVisibilityReviewsForResourceV2 sha256 knowledge resourceScope
        (position.map (cursorAfter sha256 resourceScope)) limit =
      .ok (apiVisibilityReviewsForResource knowledge resourceScope
        (queryOf position hpositive hbounded)) := by
  have hnew : ApiVisibilityReviewQuery.new limit = .ok (queryOf none hpositive hbounded) := by
    rw [ApiVisibilityReviewQuery.new, dif_pos (Nat.one_le_iff_ne_zero.mp hpositive), dif_pos hbounded]
    rfl
  unfold apiVisibilityReviewsForResourceV2
  simp only [hnew, bind, Except.bind]
  cases position with
  | none => rfl
  | some id =>
    have hmats : (cursorAfter sha256 resourceScope id).matchesResource sha256 resourceScope = true :=
      decide_eq_true rfl
    have hsh : ¬ id.value.utf8ByteSize > maxKnowledgeRelationIdBytes :=
      Nat.not_lt.mpr (hpos id rfl)
    have hqry : queryAt sha256 resourceScope (some (cursorAfter sha256 resourceScope id))
        (queryOf none hpositive hbounded) = .ok (queryOf (some id) hpositive hbounded) := by
      rw [queryAt, if_neg (not_not_intro hmats), ApiVisibilityReviewQuery.startAfter]
      exact if_neg hsh
    simp only [Option.map_some, hqry]
    rfl

section Pages

variable {limit : Nat} {position : Option RelationId} {ids : List RelationId} {hasMore : Bool}

theorem mem_incomingIds
    (hpage : Paging.page position limit (incomingIds knowledge resourceScope) = (ids, hasMore))
    {id : RelationId} (hid : id ∈ ids) : id ∈ incomingIds knowledge resourceScope := by
  obtain rfl : (Paging.page position limit (incomingIds knowledge resourceScope)).1 = ids :=
    congrArg Prod.fst hpage
  exact mem_of_mem_filter (mem_of_mem_take hid)

theorem length_filterMap (h : Indexed knowledge)
    (hpage : Paging.page position limit (incomingIds knowledge resourceScope) = (ids, hasMore)) :
    (ids.filterMap fun id => knowledge.relations[id]?).length = ids.length := by
  rw [← length_map (f := KnowledgeRelation.id),
    ids_filterMap h fun _ hid => mem_incomingIds hpage hid]

/-- The identifiers of stored relations are within their bound. -/
theorem short_of_mem (h : Indexed knowledge) (hbounds : Bounded knowledge) {id : RelationId}
    (hid : id ∈ incomingIds knowledge resourceScope) :
    id.value.utf8ByteSize ≤ maxKnowledgeRelationIdBytes := by
  obtain ⟨relation, hget, rfl, -⟩ := exists_relation h hid
  obtain ⟨⟨⟩, hlimit, -⟩ := bind_ok (hbounds _ relation hget)
  unfold validateRelationLimit at hlimit
  split_ifs at hlimit with hlong
  exact Nat.le_of_not_lt hlong

/-- What a page holds, by the identifiers that it scans. -/
theorem reviewsForResource_eq (h : Indexed knowledge) (hpositive : 1 ≤ limit)
    (hbounded : limit ≤ hardMaxApiVisibilityReviewScanLimit)
    (hpage : Paging.page position limit (incomingIds knowledge resourceScope) = (ids, hasMore)) :
    apiVisibilityReviewsForResource knowledge resourceScope (queryOf position hpositive hbounded) =
      { resourceScope
        reviews := (ids.filterMap fun id => knowledge.relations[id]?).filterMap
          (projectApiVisibilityReview knowledge resourceScope)
        scannedRelations := ids.length
        nextAfterRelationId := if hasMore then ids.getLast? else none } := by
  unfold apiVisibilityReviewsForResource queryOf
  simp only [page_eq limit (Nat.one_le_iff_ne_zero.mp hpositive), hpage]
  rw [length_filterMap h hpage, ← getLast?_map,
    ids_filterMap h fun _ hid => mem_incomingIds hpage hid]

end Pages

/-- **The pages of the list are pages of reviews.** -/
theorem follows_of_walk (h : Indexed knowledge) (hbounds : Bounded knowledge) {limits : Nat → Nat}
    (hlims : ∀ turn, 1 ≤ limits turn ∧ limits turn ≤ hardMaxApiVisibilityReviewScanLimit)
    {turn : Nat} {position : Option RelationId} {pages : List (List RelationId)}
    (hwalk : Paging.Walk (incomingIds knowledge resourceScope) limits turn position pages)
    (hpos : ∀ id ∈ position, id.value.utf8ByteSize ≤ maxKnowledgeRelationIdBytes) :
    ∃ visits, Follows sha256 knowledge resourceScope limits turn
        (position.map (cursorAfter sha256 resourceScope)) visits ∧
      visits.map Prod.fst = pages.map (fun ids => ids.filterMap fun id => knowledge.relations[id]?) ∧
      ∀ visit ∈ visits, visit.2.reviews = visit.1.filterMap
          (projectApiVisibilityReview knowledge resourceScope) ∧
        visit.2.scannedRelations = visit.1.length := by
  have hscan : ∀ (position : Option RelationId) (turn : Nat), scannedAt knowledge resourceScope
      (position.map (cursorAfter sha256 resourceScope)) (limits turn) =
      (Paging.page position (limits turn) (incomingIds knowledge resourceScope)).1.filterMap
        fun id => knowledge.relations[id]? := by
    intro position turn
    have hsame : (position.map (cursorAfter sha256 resourceScope)).map
        ApiVisibilityReviewCursor.afterRelationId = position := by
      cases position <;> rfl
    rw [scannedAt, hsame, page_eq _ (Nat.one_le_iff_ne_zero.mp (hlims turn).1)]
  induction hwalk with
  | @last turn position ids hpage =>
    obtain ⟨hpositive, hbounded⟩ := hlims turn
    have hrev := reviewsForResource_eq h hpositive hbounded hpage
    have hids : (Paging.page position (limits turn) (incomingIds knowledge resourceScope)).1 = ids := by
      rw [hpage]
    refine ⟨_, .last (forResourceV2_ok hpositive hbounded hpos) (by rw [hrev]; rfl), ?_, ?_⟩
    · rw [map_singleton, map_singleton, hscan, hids]
    · intro visit hvis
      obtain rfl := mem_singleton.mp hvis
      rw [hrev, hscan, hids]
      exact ⟨rfl, (length_filterMap h hpage).symm⟩
  | @next turn position ids lastId pages hpage hlast hrest ih =>
    obtain ⟨hpositive, hbounded⟩ := hlims turn
    have hrev := reviewsForResource_eq h hpositive hbounded hpage
    have hids : (Paging.page position (limits turn) (incomingIds knowledge resourceScope)).1 = ids := by
      rw [hpage]
    have hsh : lastId.value.utf8ByteSize ≤ maxKnowledgeRelationIdBytes :=
      short_of_mem h hbounds (mem_incomingIds hpage (mem_of_getLast? hlast))
    obtain ⟨visits, hvisits, hpages, hall⟩ := ih (fun id hid => by
      cases hid
      exact hsh)
    refine ⟨_, .next (forResourceV2_ok hpositive hbounded hpos) (by
      rw [hrev, ApiVisibilityReviewPage.nextCursor, if_pos rfl, hlast]
      simp only [new_ok hsh]
      rfl) hvisits, ?_, ?_⟩
    · rw [map_cons, map_cons, hscan, hids, hpages]
    · intro visit hvis
      rcases mem_cons.mp hvis with rfl | hvis
      · rw [hrev, hscan, hids]
        exact ⟨rfl, (length_filterMap h hpage).symm⟩
      · exact hall visit hvis

theorem pairwise_relationsTo (h : Indexed knowledge) : (relationsTo knowledge resourceScope).Pairwise
    fun left right => left.id.value < right.id.value := by
  have hids : ((relationsTo knowledge resourceScope).map KnowledgeRelation.id).Pairwise
      fun left right => compare left right = .lt := by
    rw [relationsTo_eq, ids_filterMap h fun _ hid => hid]
    exact ascending_incomingIds
  exact (pairwise_map.mp hids).imp fun hlt => compare_lt_iff_lt.mp hlt

theorem mem_relationsTo (h : Indexed knowledge) {relation : KnowledgeRelation} :
    relation ∈ relationsTo knowledge resourceScope ↔
      knowledge.relations[relation.id]? = some relation ∧ relation.target = resourceScope := by
  rw [relationsTo_eq, mem_filterMap]
  constructor
  · rintro ⟨id, hid, hget⟩
    obtain ⟨stored, hstor, hsame, htgt⟩ := exists_relation h hid
    obtain rfl : stored = relation := Option.some.inj (hstor.symm.trans hget)
    rw [hsame]
    exact ⟨hget, htgt⟩
  · rintro ⟨hget, htgt⟩
    refine ⟨relation.id, Std.ExtTreeSet.mem_toList.mpr ?_, hget⟩
    exact (h.relationsTo resourceScope relation.id).mpr ⟨relation, hget, htgt⟩

/-- A cursor of one resource is refused for another. -/
theorem mismatch_of_ne {other : EntityId} {relationId : RelationId}
    {cursor : ApiVisibilityReviewCursor}
    (hinj : Set.InjOn sha256 { apiVisibilityReviewCursorDomain ++ frame 8 (utf8Bytes resourceScope.value),
      apiVisibilityReviewCursorDomain ++ frame 8 (utf8Bytes other.value) })
    (hne : other ≠ resourceScope)
    (hnew : ApiVisibilityReviewCursor.new sha256 resourceScope relationId = .ok cursor)
    {scanLimit : Nat} (hpositive : 1 ≤ scanLimit)
    (hbounded : scanLimit ≤ hardMaxApiVisibilityReviewScanLimit) :
    apiVisibilityReviewsForResourceV2 sha256 knowledge other (some cursor) scanLimit =
      .error .resourceBoundReviewCursorMismatch := by
  have hmism : ¬ cursor.matchesResource sha256 other = true := fun hmats =>
    hne ((matchesResource_iff hinj (Set.mem_insert _ _)
      (Set.mem_insert_of_mem _ (Set.mem_singleton _)) hnew).mp hmats).symm
  unfold apiVisibilityReviewsForResourceV2 ApiVisibilityReviewQuery.new
  rw [dif_pos (Nat.one_le_iff_ne_zero.mp hpositive), dif_pos hbounded]
  simp only [queryAt, bind, Except.bind, if_pos hmism]

/-- **Following the cursors neither skips nor repeats.** -/
theorem pages_exact {authority : KnowledgeAuthority} {ops : List KnowledgeOp}
    {trace : List (KnowledgeOp × Except KnowledgeFailure KnowledgeReply)}
    (hrun : run (KnowledgeOp.exec authority) .new ops = some (trace, knowledge))
    (resourceScope : EntityId) (limits : Nat → Nat)
    (hlimits : ∀ turn, 1 ≤ limits turn ∧ limits turn ≤ hardMaxApiVisibilityReviewScanLimit) :
    (∃ visits, Follows sha256 knowledge resourceScope limits 0 none visits ∧
      visits.flatMap Prod.fst = relationsTo knowledge resourceScope ∧
      (visits.flatMap fun visit => visit.2.reviews) =
        (relationsTo knowledge resourceScope).filterMap
          (projectApiVisibilityReview knowledge resourceScope) ∧
      ∀ visit ∈ visits, visit.2.scannedRelations = visit.1.length) ∧
    ((relationsTo knowledge resourceScope).Pairwise
      fun left right => left.id.value < right.id.value) ∧
    (∀ relation : KnowledgeRelation, relation ∈ relationsTo knowledge resourceScope ↔
      knowledge.relations[relation.id]? = some relation ∧ relation.target = resourceScope) ∧
    (∀ cursor, Made sha256 cursor →
      ApiVisibilityReviewCursor.parse cursor.asStr = .ok cursor) ∧
    (∀ text, (∃ cursor, ApiVisibilityReviewCursor.parse text = .ok cursor) ↔
      ∃ cursor, Made sha256 cursor ∧ cursor.asStr = text) ∧
    ∀ (other : EntityId) (relationId : RelationId) (cursor : ApiVisibilityReviewCursor),
      Set.InjOn sha256 { apiVisibilityReviewCursorDomain ++ frame 8 (utf8Bytes resourceScope.value),
        apiVisibilityReviewCursorDomain ++ frame 8 (utf8Bytes other.value) } →
      other ≠ resourceScope →
      ApiVisibilityReviewCursor.new sha256 resourceScope relationId = .ok cursor →
      ∀ (knowledge' : KnowledgeState) (scanLimit : Nat), 1 ≤ scanLimit →
        scanLimit ≤ hardMaxApiVisibilityReviewScanLimit →
        apiVisibilityReviewsForResourceV2 sha256 knowledge' other (some cursor) scanLimit =
          .error .resourceBoundReviewCursorMismatch := by
  have hind := indexed_of_run hrun
  refine ⟨?_, pairwise_relationsTo hind, fun _ => mem_relationsTo hind,
    fun _ => parse_asStr, fun _ => parses_iff,
    fun _ _ _ hinj hne hnew _ _ hpositive hbounded => mismatch_of_ne hinj hne hnew hpositive hbounded⟩
  obtain ⟨pages, hwalk, hpages⟩ := Paging.exists_walk (@ascending_incomingIds knowledge resourceScope)
    (fun turn => (hlimits turn).1) 0 none
  obtain ⟨visits, hvisits, hscan, hall⟩ := follows_of_walk hind (bounded_of_run hrun) hlimits
    hwalk (fun id hid => by cases hid)
  have hflat : visits.flatMap Prod.fst = relationsTo knowledge resourceScope := by
    rw [List.flatMap_def, hscan, relationsTo_eq, ← Paging.after_none (incomingIds _ _), ← hpages,
      List.filterMap_flatten]
  refine ⟨visits, hvisits, hflat, ?_, fun visit hvis => (hall visit hvis).2⟩
  rw [← hflat, List.filterMap_flatMap]
  exact List.flatMap_congr fun visit hvis => (hall visit hvis).1

/-! ### A sample -/

/-- Relations of two endpoints to one host. -/
def servedBy (name : String) (h : isBlank name = false) : KnowledgeRelation where
  id := ⟨name, h⟩
  source := ⟨name, h⟩
  target := webHost
  kind := .serves
  confidence := (portObserved true).reliability
  evidenceIds := (∅ : BTreeSet EvidenceId).insert ⟨"seen", by decide⟩
  cited := by decide +kernel

def servedRun : List KnowledgeOp :=
  [.upsertRelation (servedBy "b" (.refl false)), .upsertRelation (servedBy "a" (.refl false))]

/-- A digest for small inputs. -/
def lengthDigest (bytes : Bytes) : ResourceDigest := ⟨beBytes 32 bytes.length, length_beBytes _ _⟩

theorem pages_exact_served : ∃ trace knowledge,
    run (KnowledgeOp.exec ⟨0⟩) .new servedRun = some (trace, knowledge) ∧
    ∃ visits, Follows lengthDigest knowledge webHost (fun _ => 1) 0 none visits ∧
      visits.flatMap Prod.fst = [servedBy "a" (by decide), servedBy "b" (by decide)] := by
  have hvalue : ((run (KnowledgeOp.exec ⟨0⟩) .new servedRun).map fun q => relationsTo q.2 webHost) =
      some [servedBy "a" (by decide), servedBy "b" (by decide)] := by decide +kernel
  obtain ⟨⟨trace, knowledge⟩, hrun, hrel⟩ := Option.map_eq_some_iff.mp hvalue
  obtain ⟨⟨visits, hvisits, hscan, -⟩, -⟩ :=
    @pages_exact lengthDigest knowledge ⟨0⟩ servedRun trace hrun webHost (fun _ => 1)
      (fun _ => by decide)
  exact ⟨trace, knowledge, hrun, visits, hvisits, hscan.trans hrel⟩

/-- A page of more than the hard maximum is refused, so nothing follows. -/
theorem long_page_refused : (1 ≤ 1025) ∧
    ¬ ∃ visits, Follows lengthDigest .new webHost (fun _ => 1025) 0 none visits := by
  have hrefused : apiVisibilityReviewsForResourceV2 lengthDigest .new webHost none 1025 =
      .error (.reviewScanLimitExceeded 1025 1024) := rfl
  refine ⟨by decide, ?_⟩
  rintro ⟨visits, h⟩
  cases h with
  | last hpage hnext =>
    rw [hrefused] at hpage
    cases hpage
  | next hpage hnext hrest =>
    rw [hrefused] at hpage
    cases hpage

end Follow

end Termivar.ApiObservation
