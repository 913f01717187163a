/-
# A belief is the replay of its observations

Whatever was observed in whatever order, a belief holds its observations in
strictly increasing identifier order, and its posterior and audit trail are
the left fold of `Probability::update` over them from the prior. The fold of
a list has the folds of its prefixes as its intermediate results, so
deserializing, which observes one record after another, never meets an
undefined posterior that the belief did not.
-/
import Termivar.Reasoning.Belief
import Termivar.Reasoning.Posterior

namespace Termivar

open Command BayesianEvidence List

open SortedList (Sorted)

/-- The left fold of `Probability::update` over the observations. -/
def foldUpdate (prior : Probability) (evidence : List BayesianEvidence) :
    Except ReasoningModelError Probability :=
  evidence.foldlM (fun p o => p.update o.likelihoodIfTrue o.likelihoodIfFalse) prior

/-- The posterior and the audit trail are the fold over the evidence: each
update goes from the fold of the observations before it to the fold of those
up to it. -/
structure Replayed (prior posterior : Probability) (evidence : List BayesianEvidence)
    (updates : List BayesianUpdate) : Prop where
  posterior_eq : foldUpdate prior evidence = .ok posterior
  updates_length : updates.length = evidence.length
  updates_eq : ∀ i observation, evidence[i]? = some observation → ∃ before after,
    foldUpdate prior (evidence.take i) = .ok before ∧
    foldUpdate prior (evidence.take (i + 1)) = .ok after ∧
    updates[i]? = some (observation.step before after)

/-! ### The replay -/

theorem replay_nil {start result : Probability × List BayesianUpdate} :
    ([] : List BayesianEvidence).foldlM replayOne start = .ok result ↔ start = result := by
  simp [pure, Except.pure]

theorem replay_cons {observation : BayesianEvidence} {rest : List BayesianEvidence}
    {start result : Probability × List BayesianUpdate} :
    (observation :: rest).foldlM replayOne start = .ok result ↔ ∃ next,
      start.1.update observation.likelihoodIfTrue observation.likelihoodIfFalse = .ok next ∧
      rest.foldlM replayOne (next, start.2 ++ [observation.step start.1 next]) = .ok result := by
  rw [foldlM_cons, replayOne]
  cases start.1.update observation.likelihoodIfTrue observation.likelihoodIfFalse with
  | error e => simp [bind, Except.bind]
  | ok next => simp [bind, Except.bind, pure, Except.pure]

theorem foldUpdate_cons {prior next : Probability} {observation : BayesianEvidence}
    (rest : List BayesianEvidence)
    (h : prior.update observation.likelihoodIfTrue observation.likelihoodIfFalse = .ok next) :
    foldUpdate prior (observation :: rest) = foldUpdate next rest := by
  unfold foldUpdate
  rw [foldlM_cons, h]
  rfl

/-- A replay that succeeds is the fold of `update`, and appends its trail to
the updates it starts with. -/
theorem replayed_of_replay (evidence : List BayesianEvidence) :
    ∀ {prior posterior : Probability} {earlier updates : List BayesianUpdate},
      evidence.foldlM replayOne (prior, earlier) = .ok (posterior, updates) →
      ∃ trail, updates = earlier ++ trail ∧ Replayed prior posterior evidence trail := by
  induction evidence with
  | nil =>
    intro prior posterior earlier updates h
    obtain ⟨rfl, rfl⟩ := Prod.mk.inj (replay_nil.mp h)
    refine ⟨[], (append_nil _).symm, ?_⟩
    refine { posterior_eq := rfl, updates_length := rfl, updates_eq := ?_ }
    intro i observation hi
    simp at hi
  | cons first rest ih =>
    intro prior posterior earlier updates h
    obtain ⟨next, hnext, hrest⟩ := replay_cons.mp h
    obtain ⟨trail, htrail, hrep⟩ := ih hrest
    refine ⟨first.step prior next :: trail, by simpa using htrail, ?_⟩
    refine
      { posterior_eq := (foldUpdate_cons rest hnext).trans hrep.posterior_eq
        updates_length := by simp [hrep.updates_length]
        updates_eq := ?_ }
    intro i observation hi
    cases i with
    | zero =>
      simp only [getElem?_cons_zero, Option.some.injEq] at hi
      subst hi
      exact ⟨prior, next, rfl, foldUpdate_cons [] hnext, rfl⟩
    | succ i =>
      obtain ⟨before, after, hbef, haft, hupdate⟩ := hrep.updates_eq i observation hi
      refine ⟨before, after, ?_, ?_, hupdate⟩
      · exact (foldUpdate_cons (rest.take i) hnext).trans hbef
      · exact (foldUpdate_cons (rest.take (i + 1)) hnext).trans haft

variable {prior : Probability} {belief : BayesianBelief}

/-- The prefixes of a list that can be replayed can be replayed. -/
theorem calculate_append {front back : List BayesianEvidence}
    {result : Probability × List BayesianUpdate}
    (h : calculateBayesianUpdates prior (front ++ back) = .ok result) :
    ∃ middle, calculateBayesianUpdates prior front = .ok middle := by
  unfold calculateBayesianUpdates at h ⊢
  rw [foldlM_append] at h
  cases hfr : front.foldlM replayOne (prior, []) with
  | error e => rw [hfr] at h; cases h
  | ok middle => exact ⟨middle, rfl⟩

/-! ### Observing -/

/-- What every belief that was started at the prior keeps. -/
structure BeliefInvariant (prior : Probability) (belief : BayesianBelief) : Prop where
  prior_eq : belief.prior = prior
  sorted : Sorted key belief.evidence
  replayed : calculateBayesianUpdates prior belief.evidence = .ok (belief.posterior, belief.updates)

theorem beliefInvariant_new (prior : Probability) : BeliefInvariant prior (.new prior) where
  prior_eq := rfl
  sorted := List.Pairwise.nil
  replayed := rfl

/-- Evidence that is sorted is committed with its replay, or the belief stays. -/
theorem replaceEvidence_spec {candidate : List BayesianEvidence} (write : BeliefWrite)
    (h : BeliefInvariant prior belief)
    (hsort : Sorted key candidate) :
    wp (replaceEvidence candidate write)
      (fun _ after => BeliefInvariant prior after ∧ after.evidence = candidate)
      (fun _ after => after = belief) False belief := by
  have hprior := h.prior_eq
  simp only [replaceEvidence, wp_rules]
  cases hrepl : calculateBayesianUpdates belief.prior candidate with
  | error e => simp
  | ok result =>
    simp only [Checked.wp_ok, and_true]
    exact { prior_eq := hprior, sorted := hsort, replayed := hprior ▸ hrepl }

/-- **What observing does.** It puts the observation at its identifier's
place and keeps the belief the replay of its evidence, or it fails and leaves
the belief as it was. -/
theorem observe_spec (observation : BayesianEvidence) (h : BeliefInvariant prior belief) :
    wp (observe observation) (fun _ after => BeliefInvariant prior after ∧
        after.evidence = SortedList.put key observation belief.evidence)
      (fun _ after => after = belief) False belief := by
  have hput := SortedList.sorted_put observation h.sorted
  unfold observe
  simp only [wp_rules]
  unfold SortedList.put at hput ⊢
  cases hsearch : SortedList.searchByKey key observation.key belief.evidence with
  | error index =>
    simp only [hsearch] at hput ⊢
    exact replaceEvidence_spec .inserted h hput
  | ok index =>
    simp only [hsearch] at hput ⊢
    simp only [wp_rules]
    refine ⟨fun hsame => ⟨h, ?_⟩, fun _ => replaceEvidence_spec .replaced h hput⟩
    obtain ⟨hidx, hget⟩ := List.getElem?_eq_some_iff.mp hsame
    rw [← hget, List.set_getElem_self]

theorem observe_reply {belief after : BayesianBelief}
    {observation : BayesianEvidence} {r : Except ReasoningModelError BeliefWrite}
    (h : BeliefInvariant prior belief) (hr : (observe observation).reply belief = some (r, after)) :
    (∃ w, r = .ok w ∧ BeliefInvariant prior after ∧
      after.evidence = SortedList.put key observation belief.evidence) ∨
    (∃ e, r = .error e ∧ after = belief) := by
  obtain ⟨hok, herr, -⟩ := wp_iff_reply.mp (observe_spec observation h)
  cases r with
  | ok w => exact Or.inl ⟨w, rfl, hok w after hr⟩
  | error e => exact Or.inr ⟨e, rfl, herr e after hr⟩

/-- The prior and the evidence determine the belief. -/
theorem eq_of_evidence_eq {belief other : BayesianBelief}
    (h : BeliefInvariant prior belief) (ho : BeliefInvariant prior other)
    (hev : belief.evidence = other.evidence) : belief = other := by
  have hprior : belief.prior = other.prior := h.prior_eq.trans ho.prior_eq.symm
  have hres := h.replayed.symm.trans (hev ▸ ho.replayed)
  simp only [Except.ok.injEq, Prod.mk.injEq] at hres
  obtain ⟨hpost, hupd⟩ := hres
  cases belief
  cases other
  simp only [BayesianBelief.mk.injEq]
  exact ⟨hprior, hpost, hev, hupd⟩

/-! ### The order of the calls -/

/-- The last observation of an identifier. -/
def lastObserved (calls : List BayesianEvidence) (id : EvidenceId) : Option BayesianEvidence :=
  calls.reverse.find? fun observation => observation.evidenceId = id

theorem lastObserved_append (calls : List BayesianEvidence) (observation : BayesianEvidence)
    (id : EvidenceId) : lastObserved (calls ++ [observation]) id =
      if observation.evidenceId = id then some observation else lastObserved calls id := by
  unfold lastObserved
  rw [reverse_append, reverse_singleton, singleton_append, find?_cons]
  by_cases h : observation.evidenceId = id <;> simp [h]

theorem key_eq_iff {x y : BayesianEvidence} : x.key = y.key ↔ x.evidenceId = y.evidenceId :=
  Identifier.value_injective.eq_iff

/-- If every call succeeded, the evidence is what was observed last. -/
def Observed (past : List (BayesianEvidence × Except ReasoningModelError BeliefWrite))
    (belief : BayesianBelief) : Prop :=
  (∀ entry ∈ past, entry.2.isOk) → ∀ observation,
    observation ∈ belief.evidence ↔
      lastObserved (past.map Prod.fst) observation.evidenceId = some observation

theorem observed_step {past : List (BayesianEvidence × Except ReasoningModelError BeliefWrite)}
    {belief after : BayesianBelief} {call : BayesianEvidence}
    {r : Except ReasoningModelError BeliefWrite}
    (hJ : BeliefInvariant prior belief ∧ Observed past belief)
    (hr : (observe call).reply belief = some (r, after)) :
    BeliefInvariant prior after ∧ Observed (past ++ [(call, r)]) after := by
  obtain ⟨hinv, hobs⟩ := hJ
  rcases observe_reply hinv hr with ⟨w, rfl, haft, hev⟩ | ⟨e, rfl, rfl⟩
  · refine ⟨haft, fun hall observation => ?_⟩
    have hpast := hobs fun entry hent => hall entry (mem_append_left _ hent)
    rw [hev, SortedList.mem_put call hinv.sorted, map_append, map_singleton,
      lastObserved_append, hpast observation, ne_eq, key_eq_iff]
    by_cases hid : call.evidenceId = observation.evidenceId
    · simp [hid, eq_comm]
    · have hne : observation ≠ call := fun heq => hid (by rw [heq])
      simp [hid, hne, Ne.symm hid]
  · refine ⟨hinv, fun hall => ?_⟩
    have hlast := hall (call, .error e) (by simp)
    cases hlast

/-! ### Deserializing -/

@[simp] theorem probability_roundtrip (p : Probability) :
    Probability.deserialize p.serialize = .ok p := by
  have hrg : p.partsPerMillion ≤ u32Max := le_trans p.inRange (by decide)
  simp only [Probability.serialize, Probability.deserialize]
  rw [if_pos ⟨by omega, by omega⟩, Int.toNat_natCast, Probability.fromPartsPerMillion_self]
  rfl

@[simp] theorem evidence_roundtrip (observation : BayesianEvidence) :
    deserialize observation.serialize = .ok observation := by
  have hid := observation.evidenceId.notBlank
  have hrat := observation.rationaleNotBlank
  simp [serialize, deserialize, EvidenceFields.visit, fillField,
    deserializeEvidenceId, deserializeNonEmpty, hid, hrat, okOr, bind, Except.bind, pure,
    Except.pure, Functor.map, Except.map]

@[simp] theorem evidence_list_roundtrip (evidence : List BayesianEvidence) :
    deserializeEvidence (.seq (evidence.map serialize)) = .ok evidence := by
  unfold deserializeEvidence
  induction evidence with
  | nil => rfl
  | cons observation rest ih =>
    simp only at ih ⊢
    rw [map_cons, mapM_cons, evidence_roundtrip, ih]
    rfl

theorem wire_roundtrip (belief : BayesianBelief) :
    WireBelief.deserialize belief.serialize =
      .ok { prior := belief.prior, posterior := belief.posterior, evidence := belief.evidence } := by
  simp [BayesianBelief.serialize, WireBelief.deserialize, BeliefFields.visit, fillField, okOr, bind,
    Except.bind, pure, Except.pure, Functor.map, Except.map]

/-- An observation above all others is appended. -/
theorem observe_append {observation : BayesianEvidence}
    {result : Probability × List BayesianUpdate} (hprior : belief.prior = prior)
    (hlast : ∀ x ∈ belief.evidence, x.key < observation.key)
    (hrepl : calculateBayesianUpdates prior (belief.evidence ++ [observation]) = .ok result) :
    observe observation belief = .ok .inserted
      { prior, posterior := result.1, evidence := belief.evidence ++ [observation]
        updates := result.2 } := by
  have hinsert : belief.evidence.insertIdx belief.evidence.length observation =
      belief.evidence ++ [observation] := by
    rw [← SortedList.insertIdx_length_append, append_nil]
  rw [eq_ok_iff_wp]
  unfold observe
  simp only [wp_rules, SortedList.searchByKey_of_lt hlast, hinsert]
  simp only [replaceEvidence, wp_rules, hprior, hrepl, Checked.wp_ok, true_and]

/-- Observing the rest of a sorted list from the belief of its front: every
prefix on the way can be replayed because the whole list can. -/
theorem observeEach_append {prior : Probability} {posterior : Probability}
    {updates : List BayesianUpdate} :
    ∀ (rest : List BayesianEvidence) {belief : BayesianBelief} {evidenceIds : BTreeSet EvidenceId},
      BeliefInvariant prior belief → Sorted key (belief.evidence ++ rest) →
      (∀ x ∈ rest, x.evidenceId ∉ evidenceIds) →
      calculateBayesianUpdates prior (belief.evidence ++ rest) = .ok (posterior, updates) →
      observeEach rest evidenceIds belief =
        .ok () { prior, posterior, evidence := belief.evidence ++ rest, updates }
  | [], belief, evidenceIds, h, _, _, hrepl => by
    rw [append_nil] at hrepl ⊢
    have hres := h.replayed.symm.trans hrepl
    simp only [Except.ok.injEq, Prod.mk.injEq] at hres
    obtain ⟨rfl, rfl⟩ := hres
    obtain ⟨rfl⟩ := h.prior_eq
    rfl
  | observation :: rest, belief, evidenceIds, h, hsort, hids, hrepl => by
    have hassoc : belief.evidence ++ observation :: rest =
        (belief.evidence ++ [observation]) ++ rest := by simp
    have hlast : ∀ x ∈ belief.evidence, x.key < observation.key := fun x hx =>
      (pairwise_append.mp hsort).2.2 x hx observation mem_cons_self
    have hnew : evidenceIds.contains observation.evidenceId = false :=
      Bool.eq_false_iff.mpr (hids observation mem_cons_self)
    rw [hassoc] at hsort hrepl ⊢
    obtain ⟨⟨middle, trail⟩, hmid⟩ := calculate_append hrepl
    have hobserve := observe_append h.prior_eq hlast hmid
    have hnext : BeliefInvariant prior ⟨prior, middle, belief.evidence ++ [observation], trail⟩ :=
      { prior_eq := rfl
        sorted := (pairwise_append.mp hsort).1
        replayed := hmid }
    have hfsh : ∀ x ∈ rest, x.evidenceId ∉ evidenceIds.insert observation.evidenceId := by
      intro x hx hmem
      rcases (mem_insert_iff _ _).mp hmem with heq | hmem
      · have hlt : observation.key < x.key :=
          (pairwise_append.mp hsort).2.2 observation (by simp) x hx
        rw [key_eq_iff.mpr heq] at hlt
        exact lt_irrefl _ hlt
      · exact hids x (mem_cons_of_mem _ hx) hmem
    have hrest := observeEach_append rest hnext hsort hfsh hrepl
    rw [eq_ok_iff_wp] at hrest ⊢
    rw [observeEach]
    simp only [hnew, Bool.false_eq_true, if_false, wp_bind, wp_mapErr, wp_of_eq_ok hobserve]
    simpa only [true_and] using hrest

/-- Deserializing a belief that is the replay of its evidence gives it back. -/
theorem deserialize_serialize (h : BeliefInvariant prior belief) :
    BayesianBelief.deserialize belief.serialize () = .ok belief () := by
  have hrepl : calculateBayesianUpdates belief.prior ([] ++ belief.evidence) =
      .ok (belief.posterior, belief.updates) := h.prior_eq ▸ h.replayed
  have hids : ∀ x ∈ belief.evidence, x.evidenceId ∉ (∅ : BTreeSet EvidenceId) := fun x _ =>
    Std.ExtTreeSet.not_mem_empty
  have heach := observeEach_append belief.evidence (beliefInvariant_new belief.prior) h.sorted hids
    hrepl
  rw [eq_ok_iff_wp]
  unfold BayesianBelief.deserialize
  simp only [wire_roundtrip, wp_rules, Checked.wp_ok, wp_locally, wp_of_eq_ok heach]
  simp [BayesianBelief.new]

/-! ### Runs -/

/-- **Beliefs are replays.** From any prior, every sequence of `observe` calls
runs to its end; the belief it leaves holds its evidence in strictly increasing
identifier order, its posterior and its audit trail are the fold of
`Probability::update` over that evidence, a further call that fails leaves it
as it is, and deserializing its serialized form yields it again. Two sequences
of successful calls that observed the same last of every identifier leave the
same belief. -/
theorem beliefs_replay (prior : Probability) :
    (∀ calls, ∃ trace belief, run observe (.new prior) calls = some (trace, belief) ∧
      Sorted key belief.evidence ∧ belief.prior = prior ∧
      Replayed prior belief.posterior belief.evidence belief.updates ∧
      (∀ observation e after,
        (observe observation).reply belief = some (.error e, after) → after = belief) ∧
      BayesianBelief.deserialize belief.serialize () = .ok belief ()) ∧
    ∀ calls others trace belief trace' belief',
      run observe (.new prior) calls = some (trace, belief) →
      run observe (.new prior) others = some (trace', belief') →
      (∀ entry ∈ trace, entry.2.isOk) → (∀ entry ∈ trace', entry.2.isOk) →
      lastObserved calls = lastObserved others → belief = belief' := by
  have hnew := beliefInvariant_new prior
  have hkeep : ∀ call belief, BeliefInvariant prior belief →
      wp (observe call) (fun _ after => BeliefInvariant prior after)
        (fun _ after => BeliefInvariant prior after) False belief := fun call belief h =>
    wp_mono (observe_spec call h) (fun _ _ hok => hok.1) (fun _ _ herr => herr ▸ h) id
  refine ⟨fun calls => ?_, fun calls others trace belief trace' belief' hrun hrun' hok hok' hsame => ?_⟩
  · obtain ⟨⟨trace, belief⟩, hrun, hinv⟩ := run_total hkeep calls hnew
    obtain ⟨trail, htrail, hrep⟩ := replayed_of_replay belief.evidence hinv.replayed
    rw [List.nil_append] at htrail
    refine ⟨trace, belief, hrun, hinv.sorted, hinv.prior_eq, htrail ▸ hrep, ?_,
      deserialize_serialize hinv⟩
    intro observation e after hr
    rcases observe_reply hinv hr with ⟨w, hw, -⟩ | ⟨_, -, haft⟩
    · cases hw
    · exact haft
  · have hsta : BeliefInvariant prior (.new prior) ∧ Observed [] (.new prior) :=
      ⟨hnew, fun _ observation => by simp [BayesianBelief.new, lastObserved]⟩
    obtain ⟨hinv, hobs⟩ := run_history
      (J := fun past b => BeliefInvariant prior b ∧ Observed past b) observed_step [] hsta hrun
    obtain ⟨hinv', hobs'⟩ := run_history
      (J := fun past b => BeliefInvariant prior b ∧ Observed past b) observed_step [] hsta hrun'
    have hmem : ∀ x, x ∈ belief.evidence ↔ x ∈ belief'.evidence := by
      intro x
      rw [hobs hok x, hobs' hok' x, List.nil_append, List.nil_append, run_calls hrun,
        run_calls hrun', hsame]
    exact eq_of_evidence_eq hinv hinv' (SortedList.eq_of_mem_iff hinv.sorted hinv'.sorted hmem)

def evenOdds : Probability := ⟨500000, by decide⟩

/-- A token cookie, observed first with one likelihood and then with another. -/
def tokenCookie (likelihoodIfTrue : Probability) : BayesianEvidence where
  evidenceId := ⟨"cookie", by decide⟩
  likelihoodIfTrue := likelihoodIfTrue
  likelihoodIfFalse := ⟨100000, by decide⟩
  rationale := "token cookie"
  rationaleNotBlank := by decide

def serverHeader : BayesianEvidence where
  evidenceId := ⟨"header", by decide⟩
  likelihoodIfTrue := ⟨333333, by decide⟩
  likelihoodIfFalse := ⟨700001, by decide⟩
  rationale := "server header"
  rationaleNotBlank := by decide

/-- Two arrival orders, one with a replaced observation, leave one belief. -/
theorem beliefs_replay_two_orders : ∃ trace trace' belief,
    run observe (.new evenOdds) [tokenCookie evenOdds, serverHeader,
      tokenCookie ⟨800000, by decide⟩] = some (trace, belief) ∧
    run observe (.new evenOdds) [tokenCookie ⟨800000, by decide⟩, serverHeader] =
      some (trace', belief) ∧ belief.updates.length = 2 := by
  obtain ⟨hord, hsame⟩ := beliefs_replay evenOdds
  obtain ⟨trace, belief, hrun, -⟩ := hord
    [tokenCookie evenOdds, serverHeader, tokenCookie ⟨800000, by decide⟩]
  obtain ⟨trace', belief', hrun', -⟩ := hord [tokenCookie ⟨800000, by decide⟩, serverHeader]
  have hlength : ((run observe (.new evenOdds) [tokenCookie evenOdds, serverHeader,
      tokenCookie ⟨800000, by decide⟩]).map fun q => (q.1.all (·.2.isOk), q.2.updates.length)) =
      some (true, 2) := by decide +kernel
  have hok' : ((run observe (.new evenOdds) [tokenCookie ⟨800000, by decide⟩,
      serverHeader]).map fun q => q.1.all (·.2.isOk)) = some true := by decide +kernel
  rw [hrun, Option.map_some, Option.some.injEq, Prod.mk.injEq] at hlength
  rw [hrun', Option.map_some, Option.some.injEq] at hok'
  have hbelief : belief = belief' := by
    refine hsame _ _ _ _ _ _ hrun hrun' (List.all_eq_true.mp hlength.1) (List.all_eq_true.mp hok') ?_
    funext id
    simp only [lastObserved, List.reverse_cons, List.reverse_nil, List.nil_append,
      List.cons_append, List.find?_cons]
    by_cases hcookie : (tokenCookie evenOdds).evidenceId = id
    · subst hcookie
      rfl
    · by_cases hheader : serverHeader.evidenceId = id
      · subst hheader
        rfl
      · simp [tokenCookie, hheader] at hcookie ⊢
        simp [hcookie]
  exact ⟨trace, trace', belief, hrun, hbelief ▸ hrun', hlength.2⟩

/-! ### The direction of an observation -/

theorem foldUpdate_append {p : Probability} (front back : List BayesianEvidence) :
    foldUpdate p (front ++ back) = foldUpdate p front >>= fun middle => foldUpdate middle back :=
  foldlM_append

/-- From a higher probability the same observations lead to one that is no lower. -/
theorem foldUpdate_mono : ∀ {evidence : List BayesianEvidence} {p p' r r' : Probability},
    foldUpdate p evidence = .ok r → foldUpdate p' evidence = .ok r' →
    p.partsPerMillion ≤ p'.partsPerMillion → r.partsPerMillion ≤ r'.partsPerMillion
  | [], _, _, _, _, h, h', hle => by
    cases h
    cases h'
    exact hle
  | _ :: _, _, _, _, _, h, h', hle => by
    obtain ⟨next, hnext, hrest⟩ := bind_ok ((foldlM_cons ..).symm.trans h)
    obtain ⟨next', hnext', hrest'⟩ := bind_ok ((foldlM_cons ..).symm.trans h')
    exact foldUpdate_mono hrest hrest' (Probability.update_mono hle hnext hnext')

/-- **A new observation moves the posterior its own way.** Over any run, an
observation of an identifier that the belief does not hold never lowers the
posterior if it is no less likely under the hypothesis, and never raises it if
it is no more likely, wherever in the replay its identifier puts it. -/
theorem observe_moves_posterior {calls : List BayesianEvidence} {trace} {after : BayesianBelief}
    {observation : BayesianEvidence} {write : BeliefWrite}
    (hrun : run observe (.new prior) calls = some (trace, belief))
    (hnew : ∀ x ∈ belief.evidence, x.evidenceId ≠ observation.evidenceId)
    (hreply : (observe observation).reply belief = some (.ok write, after)) :
    (observation.likelihoodIfFalse.partsPerMillion ≤ observation.likelihoodIfTrue.partsPerMillion →
      belief.posterior.partsPerMillion ≤ after.posterior.partsPerMillion) ∧
    (observation.likelihoodIfTrue.partsPerMillion ≤ observation.likelihoodIfFalse.partsPerMillion →
      after.posterior.partsPerMillion ≤ belief.posterior.partsPerMillion) := by
  have hfold {b : BayesianBelief} (h : BeliefInvariant prior b) :
      foldUpdate prior b.evidence = .ok b.posterior :=
    let ⟨_, _, hreplayed⟩ := replayed_of_replay _ h.replayed
    hreplayed.posterior_eq
  have h : BeliefInvariant prior belief :=
    (run_history (J := fun past b => BeliefInvariant prior b ∧ Observed past b) observed_step []
      ⟨beliefInvariant_new prior, fun _ o => by simp [BayesianBelief.new, lastObserved]⟩ hrun).1
  obtain ⟨_, -, hinv, hev⟩ | ⟨_, ⟨⟩, -⟩ := observe_reply h hreply
  have hafter := hfold hinv
  have hbefore := hfold h
  rcases SortedList.put_cases observation h.sorted with ⟨front, y, rest, hsplit, hkey, -⟩ |
    ⟨front, back, hsplit, -, -, hput⟩
  · exact absurd (key_eq_iff.mp hkey) (hnew y (by simp [hsplit]))
  rw [hev, hput, foldUpdate_append] at hafter
  rw [hsplit, foldUpdate_append] at hbefore
  obtain ⟨middle, hmiddle, hback⟩ := bind_ok hbefore
  obtain ⟨_, hmiddle', hafter⟩ := bind_ok hafter
  cases hmiddle.symm.trans hmiddle'
  obtain ⟨next, hnext, hback'⟩ := bind_ok ((foldlM_cons ..).symm.trans hafter)
  exact ⟨fun hle => foldUpdate_mono hback hback' (Probability.prior_le_of_update hnext hle),
    fun hle => foldUpdate_mono hback' hback (Probability.update_le_prior hnext hle)⟩

theorem observe_moves_posterior_header : ∃ trace belief after write,
    run observe (.new evenOdds) [tokenCookie ⟨800000, by decide⟩] = some (trace, belief) ∧
    (observe serverHeader).reply belief = some (.ok write, after) ∧
    after.posterior.partsPerMillion ≤ belief.posterior.partsPerMillion := by
  have hvalue : ((run observe (.new evenOdds) [tokenCookie ⟨800000, by decide⟩]).bind fun q =>
      ((observe serverHeader).reply q.2).map fun r =>
        (r.1.isOk, q.2.evidence.all (·.evidenceId ≠ serverHeader.evidenceId))) =
      some (true, true) := by decide +kernel
  obtain ⟨⟨trace, belief⟩, hrun, hvalue⟩ := Option.bind_eq_some_iff.mp hvalue
  obtain ⟨⟨_ | write, after⟩, hreply, hfacts⟩ := Option.map_eq_some_iff.mp hvalue
  · cases hfacts
  have hnew : ∀ x ∈ belief.evidence, x.evidenceId ≠ serverHeader.evidenceId := by
    simpa using (Prod.mk.inj hfacts).2
  exact ⟨trace, belief, after, write, hrun, hreply,
    (observe_moves_posterior hrun hnew hreply).2 (by decide)⟩

end Termivar
