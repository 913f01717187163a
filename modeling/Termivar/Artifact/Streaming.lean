/-
# The loops of the scanner end within their bounds

The streaming loop ends: a turn that does not return has consumed input, or
was interrupted, and only so many reads in a row may be interrupted. The
matcher keeps its budgets, never fails and says how far it came, so a report
can be built from what it leaves.
-/
import Termivar.Artifact.Scanner

namespace Termivar

open Command List

/-! ### The loop ends -/

section Termination

variable (sha256 : Bytes → String) (scanner : ArtifactScanner) {ρ : Type}

/-- Turns the loop may still take: a read consumes input, and only so many
reads in a row may be interrupted. -/
def turnsLeft (stream : Stream ρ) : Nat :=
  (scanner.limits.maxInputBytes - stream.bytesRead) * (maxConsecutiveInterrupts + 2) +
    (maxConsecutiveInterrupts + 1 - stream.consecutiveInterrupts)

theorem scanWindow_frame (starts : Nat) (stream : Stream ρ) :
    wp (scanWindow scanner starts) (fun _ after => ∃ progress, after = { stream with progress })
      (fun _ _ => True) True stream := by
  simp only [scanWindow, wp_rules, wp_locally]
  exact wp_of_forall (fun _ progress => ⟨progress, rfl⟩) (fun _ _ => trivial) trivial

theorem reportStream_returns (completion : ArtifactScanCompletion) (stream : Stream ρ) :
    wp (reportStream sha256 scanner completion) (fun report _ => report.isSome) (fun _ _ => True)
      True stream := by
  simp only [reportStream, wp_rules, Option.isSome_some]
  cases buildReport sha256 scanner completion stream.hashed stream.bytesRead stream.progress with
  | ok report => trivial
  | error e => trivial

theorem finishStream_returns (completion : ArtifactScanCompletion) (stream : Stream ρ) :
    wp (finishStream sha256 scanner completion) (fun report _ => report.isSome) (fun _ _ => True)
      True stream := by
  simp only [finishStream, wp_rules]
  exact wp_of_forall (fun _ _ => reportStream_returns sha256 scanner _ _) (fun _ _ => trivial) trivial

theorem failStream_returns (stream : Stream ρ) :
    wp (failStream sha256 scanner) (fun report _ => report.isSome) (fun _ _ => True) True stream := by
  simp only [failStream, wp_rules]
  exact wp_of_forall (fun _ _ => reportStream_returns sha256 scanner _ _) (fun _ _ => trivial) trivial

theorem carryOver_frame (starts : Nat) (stream : Stream ρ) :
    wp (carryOver scanner starts) (fun _ after => after.bytesRead = stream.bytesRead ∧
        after.consecutiveInterrupts = stream.consecutiveInterrupts) (fun _ _ => True) True stream := by
  simp only [carryOver, wp_rules]
  refine ⟨fun _ => ⟨trivial, trivial⟩, fun _ => ?_⟩
  cases retainUncheckedCarry stream.window starts (retained scanner) with
  | error e => trivial
  | ok window =>
    simp only [Checked.wp_ok]
    cases addOffset stream.windowStart starts with
    | error e => trivial
    | ok windowStart => simp

theorem takeRead_frame (read : Nat) (stream : Stream ρ) :
    wp (takeRead sha256 scanner read) (fun report after => report = none →
        after.bytesRead = stream.bytesRead + read ∧
          after.consecutiveInterrupts = stream.consecutiveInterrupts)
      (fun _ _ => True) True stream := by
  simp only [takeRead, wp_rules, addOffset, Checked.wp_okOr, checkedAdd_eq_some]
  refine ⟨fun bytesRead hread => ?_, fun _ => trivial⟩
  refine wp_mono (scanWindow_frame scanner _ _) (fun stop after haft => ?_)
    (fun _ _ _ => trivial) (fun _ => trivial)
  obtain ⟨progress, rfl⟩ := haft
  cases stop with
  | some stop =>
    refine wp_mono (reportStream_returns sha256 scanner _ _) (fun report _ hsome hnone => ?_)
      (fun _ _ _ => trivial) (fun _ => trivial)
    rw [hnone] at hsome
    cases hsome
  | none =>
    refine wp_mono (carryOver_frame scanner _ _) (fun _ after haft _ => ?_)
      (fun _ _ _ => trivial) (fun _ => trivial)
    exact ⟨haft.1.trans hread.2, haft.2⟩

/-- What a read leaves of the turns, unless the loop returns. -/
theorem handleRead_decreases (requested : Nat) (result : ReadResult) {stream : Stream ρ}
    (hreq : requested ≤ scanner.limits.maxInputBytes - stream.bytesRead) :
    wp (handleRead sha256 scanner requested result)
      (fun report after => report = none → turnsLeft scanner after < turnsLeft scanner stream)
      (fun _ _ => True) True stream := by
  have hret : ∀ {x : StreamCommand ρ (Option ArtifactScanReport)} {s : Stream ρ},
      wp x (fun report _ => report.isSome) (fun _ _ => True) True s →
      wp x (fun report t => report = none → turnsLeft scanner t < turnsLeft scanner stream)
        (fun _ _ => True) True s := by
    intro x s hx
    refine wp_mono hx (fun report _ hsome hnone => ?_) (fun _ _ _ => trivial) id
    rw [hnone] at hsome
    cases hsome
  cases result with
  | interrupted =>
    simp only [handleRead, wp_rules]
    refine ⟨fun hfew _ => ?_, fun _ => hret (failStream_returns sha256 scanner _)⟩
    unfold turnsLeft
    simp only
    omega
  | failed => exact hret (failStream_returns sha256 scanner _)
  | ok read =>
    simp only [handleRead, wp_rules]
    refine ⟨fun _ => hret (finishStream_returns sha256 scanner _ _), fun hread => ⟨fun _ =>
      hret (failStream_returns sha256 scanner _), fun hfits => ?_⟩⟩
    refine wp_mono (takeRead_frame sha256 scanner read _) (fun report t ht hnone => ?_)
      (fun _ _ _ => trivial) id
    obtain ⟨hbs, hint⟩ := ht hnone
    simp only at hbs hint
    unfold turnsLeft maxConsecutiveInterrupts
    rw [hbs, hint]
    omega

/-- A turn that does not return consumed input, or was interrupted once more. -/
theorem streamTurn_decreases (R : Reader ρ) {stream after : Stream ρ}
    (h : streamTurn sha256 scanner R stream = .ok none after) :
    turnsLeft scanner after < turnsLeft scanner stream := by
  have hturn : wp (streamTurn sha256 scanner R)
      (fun report t => report = none → turnsLeft scanner t < turnsLeft scanner stream)
      (fun _ _ => True) True stream := by
    unfold streamTurn
    simp only [wp_rules]
    refine ⟨fun _ => ?_, fun _ => handleRead_decreases sha256 scanner _ _ (min_le_left _ _)⟩
    refine wp_mono (finishStream_returns sha256 scanner _ _) (fun report _ hsome hnone => ?_)
      (fun _ _ _ => trivial) id
    rw [hnone] at hsome
    cases hsome
  rw [wp_of_eq_ok h] at hturn
  exact hturn rfl

end Termination

/-- Scans a reader with a fixed chunk and a bounded overlap carry. -/
def scanReader (sha256 : Bytes → String) (scanner : ArtifactScanner) {ρ : Type} (R : Reader ρ)
    (reader : ρ) : Command Unit ArtifactError ArtifactScanReport := do
  let _ ← addOffset scanner.limits.readerChunkBytes (retained scanner)
  let start : Stream ρ :=
    { reader, chunk := replicate scanner.limits.readerChunkBytes 0, window := []
      windowStart := 0, bytesRead := 0, hashed := [], progress := {}, consecutiveInterrupts := 0 }
  let (report, _) ← Command.locally start (Command.loop (streamTurn sha256 scanner R)
    (turnsLeft scanner) (streamTurn_decreases sha256 scanner R))
  return report

/-! ### The bounds of a scan -/

/-- What the matcher keeps: the budgets, and how far it came. -/
structure Within (limits : ArtifactScanLimits) (checked : Nat) (progress : ScanProgress) : Prop where
  found : progress.observations.length ≤ limits.maxMatches
  work : progress.matchWorkUnits ≤ limits.maxMatchWorkUnits
  frontier : progress.matchStartPositionsChecked = checked

section Bounds

variable {scanner : ArtifactScanner} {input : Bytes} {checked : Nat} {progress : ScanProgress}

theorem addOffset_eq_ok {a b : Nat} (h : a + b ≤ u64Max) : addOffset a b = .ok (a + b) := by
  simp [addOffset, okOr, checkedAdd, h]

theorem chargeMatchWork_spec (h : Within scanner.limits checked progress) :
    wp (chargeMatchWork scanner) (fun _ after => Within scanner.limits checked after)
      (fun _ _ => False) False progress := by
  simp only [chargeMatchWork, wp_rules]
  refine ⟨fun _ => h, fun hwork => ?_⟩
  exact { found := h.found, work := by simp only; omega, frontier := h.frontier }

theorem verifyCandidate_spec {start candidate : Nat} {signature : ArtifactCatalogSignature}
    (h : Within scanner.limits checked progress)
    (hsig : scanner.catalog.signatures[candidate]? = some signature)
    (hsta : start ≤ maxInputBytes) :
    wp (verifyCandidate scanner input 0 start candidate)
      (fun _ after => Within scanner.limits checked after) (fun _ _ => False) False progress := by
  have hoffset : addOffset 0 start = .ok (0 + start) :=
    addOffset_eq_ok (by unfold u64Max maxInputBytes at *; omega)
  have hlen : signature.pattern.len ≤ u16Max :=
    le_trans signature.pattern.bounded (by decide)
  simp only [verifyCandidate, wp_bind]
  refine wp_mono (chargeMatchWork_spec h) (fun charged after haft => ?_) (fun _ _ hf => hf) id
  simp only [signatureAt, hsig, wp_rules, hoffset, Checked.wp_ok,
    ArtifactMatchObservation.new, if_pos hlen]
  refine ⟨fun _ => haft, fun _ => ⟨fun _ => haft, fun _ => ⟨fun _ => haft, fun hroom => ?_⟩⟩⟩
  refine { found := ?_, work := haft.work, frontier := haft.frontier }
  simp only [length_append, length_singleton]
  omega

theorem probeAnchor_spec {start : Nat} {group : Nat × BTreeMap UInt8 (List Nat)}
    (h : Within scanner.limits checked progress)
    (hgrp : group ∈ scanner.catalog.anchorGroups.toList) (hsta : start ≤ maxInputBytes) :
    wp (probeAnchor scanner input 0 start group)
      (fun _ after => Within scanner.limits checked after) (fun _ _ => False) False progress := by
  have hget : scanner.catalog.anchorGroups[group.1]? = some group.2 := mem_toList.mp hgrp
  have hoffset : addOffset start group.1 = .ok (start + group.1) := by
    have hlt := scanner.catalog.offset_lt_maximum hget
    have hle := scanner.catalog.maximum_le
    exact addOffset_eq_ok (by unfold u64Max maxInputBytes maxPatternBytes at *; omega)
  simp only [probeAnchor, wp_bind]
  refine wp_mono (chargeMatchWork_spec h) (fun charged after haft => ?_) (fun _ _ hf => hf) id
  simp only [wp_rules, hoffset, Checked.wp_ok]
  refine ⟨fun _ => haft, fun _ => ?_⟩
  cases input[start + group.1]? with
  | none => exact haft
  | some byte =>
    simp only
    cases hcands : group.2[byte]? with
    | none => exact haft
    | some candidates =>
      refine wp_mono (wp_untilStop (Q := fun _ t => Within scanner.limits checked t)
        (I := fun rest t => (∀ index ∈ rest, index ∈ candidates) ∧ Within scanner.limits checked t)
        ⟨fun index hidx => hidx, haft⟩ ?_) ?_ (fun _ _ hf => hf) id
      · intro index rest t ht
        obtain ⟨hmem, hwith⟩ := ht
        obtain ⟨signature, hsig, -⟩ := scanner.catalog.candidate_signature hget hcands
          (hmem index mem_cons_self)
        refine wp_mono (verifyCandidate_spec hwith hsig hsta) (fun stop u hu => ?_)
          (fun _ _ hf => hf) id
        cases stop with
        | some stop => exact hu
        | none => exact ⟨fun i hi => hmem i (mem_cons_of_mem _ hi), hu⟩
      · intro stop t ht
        cases stop with
        | some stop => exact ht
        | none => exact ht.2

theorem scanStart_spec {start : Nat} (h : Within scanner.limits checked progress)
    (hsta : start < maxInputBytes) :
    wp (scanStart scanner input 0 start)
      (fun stop after => stop.elim (Within scanner.limits (start + 1) after)
        (fun _ => Within scanner.limits checked after))
      (fun _ _ => False) False progress := by
  simp only [scanStart, wp_bind]
  refine wp_mono (wp_untilStop (Q := fun _ t => Within scanner.limits checked t)
    (I := fun rest t => (∀ group ∈ rest, group ∈ scanner.catalog.anchorGroups.toList) ∧
      Within scanner.limits checked t) ⟨fun group hgrp => hgrp, h⟩ ?_) ?_ (fun _ _ hf => hf) id
  · intro group rest t ht
    obtain ⟨hmem, hwith⟩ := ht
    refine wp_mono (probeAnchor_spec hwith (hmem group mem_cons_self) hsta.le)
      (fun stop u hu => ?_) (fun _ _ hf => hf) id
    cases stop with
    | some stop => exact hu
    | none => exact ⟨fun g hg => hmem g (mem_cons_of_mem _ hg), hu⟩
  · intro stop t ht
    cases stop with
    | some stop => exact ht
    | none =>
      have hoffset : addOffset 0 start = .ok (0 + start) :=
        addOffset_eq_ok (by unfold u64Max maxInputBytes at *; omega)
      have hnext : addOffset (0 + start) 1 = .ok (0 + start + 1) :=
        addOffset_eq_ok (by unfold u64Max maxInputBytes at *; omega)
      simp only [unlessStopped, advanceFrontier, wp_rules, hoffset, hnext, Checked.wp_ok,
        Option.elim]
      exact { found := ht.2.found, work := ht.2.work, frontier := by simp }

/-- The matcher goes through every start, or stops before one; it keeps its
budgets, and never fails. -/
theorem scanStarts_spec (scanner : ArtifactScanner) (input : Bytes) {starts : Nat}
    (hstarts : starts ≤ maxInputBytes) :
    wp (scanStarts scanner input 0 starts)
      (fun stop after => stop.elim (Within scanner.limits starts after)
        (fun _ => ∃ checked, checked < starts ∧ Within scanner.limits checked after))
      (fun _ _ => False) False {} := by
  have hzero : Within scanner.limits 0 {} :=
    { found := Nat.zero_le _, work := Nat.zero_le _, frontier := rfl }
  unfold scanStarts
  refine wp_mono (wp_untilStop
    (Q := fun _ t => ∃ checked, checked < starts ∧ Within scanner.limits checked t)
    (I := fun rest t => ∃ next, next ≤ starts ∧ rest = range' next (starts - next) ∧
      Within scanner.limits next t)
    ⟨0, Nat.zero_le _, by rw [Nat.sub_zero, range_eq_range'], hzero⟩ ?_) ?_
    (fun _ _ hf => hf) id
  · intro start rest t ht
    obtain ⟨next, hnext, hrest, hwith⟩ := ht
    have hlt : next < starts := by
      rcases Nat.lt_or_ge next starts with hlt | hge
      · exact hlt
      · rw [Nat.sub_eq_zero_of_le hge] at hrest
        simp at hrest
    have hcons : range' next (starts - next) =
        next :: range' (next + 1) (starts - (next + 1)) := by
      rw [show starts - next = (starts - (next + 1)) + 1 by omega, range'_succ]
    rw [hcons, cons.injEq] at hrest
    obtain ⟨rfl, rfl⟩ := hrest
    refine wp_mono (scanStart_spec hwith (by omega)) (fun stop u hu => ?_) (fun _ _ hf => hf) id
    cases stop with
    | some stop => exact ⟨start, hlt, hu⟩
    | none => exact ⟨start + 1, hlt, rfl, hu⟩
  · intro stop t ht
    cases stop with
    | some stop => exact ht
    | none =>
      obtain ⟨next, hnext, hrest, hwith⟩ := ht
      have heq : next = starts := by
        have hlength := congrArg length hrest
        simp only [length_nil, length_range'] at hlength
        omega
      exact heq ▸ hwith

end Bounds

/-! ### Building the report -/

/-- The observations as a report shows them. -/
def numbered (found : List ArtifactMatchObservation) : List ArtifactMatchObservation :=
  (found.mergeSort ArtifactMatchObservation.le).zipIdx.map fun entry =>
    { entry.1 with ordinal := entry.2 + 1 }

theorem mapM_eq_ok {α β ε : Type} {f : α → Except ε β} {g : α → β} : ∀ {xs : List α},
    (∀ x ∈ xs, f x = .ok (g x)) → xs.mapM f = .ok (xs.map g)
  | [], _ => rfl
  | x :: xs, h => by
    rw [mapM_cons, h x mem_cons_self,
      mapM_eq_ok fun y hy => h y (mem_cons_of_mem _ hy)]
    rfl

theorem assignOrdinal_numbered {found : List ArtifactMatchObservation}
    (h : found.length ≤ maxMatchesPerScan) :
    (found.mergeSort ArtifactMatchObservation.le).zipIdx.mapM assignOrdinal = .ok (numbered found) := by
  refine mapM_eq_ok fun entry hent => ?_
  have hidx : entry.2 < found.length := by
    have hlt := (mem_zipIdx' (x := entry.1) (i := entry.2) hent).1
    rwa [length_mergeSort] at hlt
  have hsm : entry.2 + 1 ≤ u32Max := by
    unfold u32Max maxMatchesPerScan at *
    omega
  unfold assignOrdinal
  rw [if_pos hsm]

/-- What a report shows of a scan. -/
structure Shows (progress : ScanProgress) (completion : ArtifactScanCompletion)
    (report : ArtifactScanReport) : Prop where
  completion_eq : report.completion = completion
  matches_eq : report.matchesFound = numbered progress.observations
  work_eq : report.matchWorkUnits = progress.matchWorkUnits
  frontier_eq : report.matchStartPositionsChecked = progress.matchStartPositionsChecked

/-- A report of a scan that kept its bounds can be built: it is complete only
if every position was checked. -/
theorem buildReport_ok (sha256 : Bytes → String) {scanner : ArtifactScanner} {checked : Nat}
    {progress : ScanProgress} {completion : ArtifactScanCompletion} (consumed : Bytes)
    {bytesConsumed : Nat} (h : Within scanner.limits checked progress)
    (hchec : checked ≤ bytesConsumed)
    (hcomp : completion = .complete → checked = bytesConsumed) :
    ∃ report, buildReport sha256 scanner completion consumed bytesConsumed progress = .ok report ∧
      Shows progress completion report := by
  have hfnd : progress.observations.length ≤ maxMatchesPerScan :=
    le_trans h.found scanner.limits.matches_checked.2
  have hwork : progress.matchWorkUnits ≤ maxMatchWorkUnits :=
    le_trans h.work scanner.limits.work_checked.2
  have hfron := h.frontier
  have hid : checkIdentity
      (if completion = .complete then .artifact ("artifact-sha256:" ++ sha256 consumed)
        else .consumedPrefix ("consumed-prefix-sha256:" ++ sha256 consumed) bytesConsumed)
      completion bytesConsumed progress.matchStartPositionsChecked = .ok () := by
    by_cases hc : completion = .complete
    · simp [checkIdentity, hc, hfron, hcomp hc]
    · simp [checkIdentity, hc]
  have hrend : checkedAdd u64Max (progress.observations.length * maxRenderedObservationBytes)
      maxRenderedReportBaseBytes = some (progress.observations.length * maxRenderedObservationBytes +
        maxRenderedReportBaseBytes) := by
    rw [checkedAdd_eq_some]
    unfold maxMatchesPerScan at hfnd
    unfold u64Max maxRenderedObservationBytes maxRenderedReportBaseBytes
    omega
  have hshp : ¬ progress.observations.length * maxRenderedObservationBytes +
      maxRenderedReportBaseBytes > maxReportBytes := by
    unfold maxMatchesPerScan at hfnd
    unfold maxRenderedObservationBytes maxRenderedReportBaseBytes maxReportBytes
    omega
  have hsize : ¬ progress.observations.length * maxRenderedObservationBytes > u64Max := by
    unfold maxMatchesPerScan at hfnd
    unfold u64Max maxRenderedObservationBytes
    omega
  have hle : ¬ progress.matchStartPositionsChecked > bytesConsumed := by omega
  refine
    ⟨{ catalogDigest := scanner.catalog.digest
       contentIdentity :=
         if completion = .complete then .artifact ("artifact-sha256:" ++ sha256 consumed)
         else .consumedPrefix ("consumed-prefix-sha256:" ++ sha256 consumed) bytesConsumed
       completion := completion
       bytesConsumed := bytesConsumed
       matchStartPositionsChecked := progress.matchStartPositionsChecked
       signaturesConsidered := scanner.catalog.signatures.length
       matchCount := (numbered progress.observations).length
       matchesFound := numbered progress.observations
       matchWorkUnits := progress.matchWorkUnits }, ?_, ⟨rfl, rfl, rfl, rfl⟩⟩
  unfold buildReport ArtifactScanReport.new
  simp only [hid, assignOrdinal_numbered hfnd, hrend, okOr, not_lt.mpr hfnd,
    not_lt.mpr hwork, hle, hsize, hshp, if_false, bind, Except.bind, pure, Except.pure]

end Termivar
