/-
# Streaming agrees with scanning the bytes

However a reader splits its bytes, the loop of `scan_reader` has, before every
turn, scanned the starts before its window exactly as `scan_bytes` scans them:
a start is scanned from the window only once the longest pattern fits behind
it or the input ends, and from there the window and the whole input look the
same. The matches, the work and the frontier of the two reports are those of
one loop over one list of starts, cut at different places.
-/
import Termivar.Artifact.Streaming

namespace Termivar

open Command List

/-! ### Readers -/

/-- One good read of up to `requested` bytes, when `rest` is still to come and
the last `interrupts` reads were interrupted. -/
def GoodRead {ρ : Type} (At : ρ → Bytes → Nat → Prop) (rest : Bytes)
    (interrupts requested : Nat) : ReadResult × Bytes × ρ → Prop
  | (.interrupted, _, reader) =>
    interrupts < maxConsecutiveInterrupts ∧ At reader rest (interrupts + 1)
  | (.failed, _, _) => False
  | (.ok read, written, reader) =>
    if rest = [] then read = 0
    else 0 < read ∧ read ≤ requested ∧ written.take read = rest.take read ∧
      At reader (rest.drop read) 0

/-- The reader delivers the bytes in non-empty reads, with no error but at
most `maxConsecutiveInterrupts` interrupts in a row, and then ends. -/
def Delivers {ρ : Type} (R : Reader ρ) (reader : ρ) (input : Bytes) : Prop :=
  ∃ At : ρ → Bytes → Nat → Prop, At reader input 0 ∧
    ∀ state rest interrupts buffer, At state rest interrupts → buffer ≠ [] →
      GoodRead At rest interrupts buffer.length (R.read state buffer)

/-! ### A window looks like the input -/

section Window

variable {scanner : ArtifactScanner} {all : Bytes} {upTo base start : Nat}

/-- A start can be scanned from the window: the longest pattern fits, or the
window reaches the end of the input. -/
def Fits (scanner : ArtifactScanner) (all : Bytes) (upTo position : Nat) : Prop :=
  position + scanner.catalog.maximumPatternLength ≤ upTo ∨ upTo = all.length

theorem get_window {offset : Nat} (hoffset : offset < scanner.catalog.maximumPatternLength)
    (hfits : Fits scanner all upTo (base + start)) :
    ((all.take upTo).drop base)[start + offset]? = all[base + start + offset]? := by
  rw [getElem?_drop, ← Nat.add_assoc]
  rcases hfits with hfits | hend
  · exact getElem?_take_of_lt (by omega)
  · rw [hend, take_length]

theorem matchesAt_window (pattern : ArtifactPattern)
    (hlen : pattern.len ≤ scanner.catalog.maximumPatternLength) (hupTo : upTo ≤ all.length)
    (hbase : base ≤ upTo) (hsm : base + start + pattern.len ≤ u64Max)
    (hfits : Fits scanner all upTo (base + start)) :
    pattern.matchesAt ((all.take upTo).drop base) start = pattern.matchesAt all (base + start) := by
  have hleft : checkedAdd u64Max start pattern.len = some (start + pattern.len) :=
    checkedAdd_eq_some.mpr ⟨by omega, rfl⟩
  have hright : checkedAdd u64Max (base + start) pattern.len = some (base + start + pattern.len) :=
    checkedAdd_eq_some.mpr ⟨by omega, rfl⟩
  have hlength : ((all.take upTo).drop base).length = upTo - base := by
    rw [length_drop, length_take, min_eq_left hupTo]
  have hslice : (((all.take upTo).drop base).drop start).take (start + pattern.len - start) =
      ((all.drop (base + start)).take (base + start + pattern.len - (base + start))) := by
    rw [drop_drop, Nat.add_sub_cancel_left, Nat.add_sub_cancel_left]
    rcases hfits with hfits | hend
    · rw [drop_take, take_take, min_eq_left (by omega)]
    · rw [hend, take_length]
  have hwindow : ArtifactPattern.window ((all.take upTo).drop base) start (start + pattern.len) =
      ArtifactPattern.window all (base + start) (base + start + pattern.len) := by
    unfold ArtifactPattern.window
    rw [hslice, hlength]
    have hiff : (start ≤ start + pattern.len ∧ start + pattern.len ≤ upTo - base) ↔
        (base + start ≤ base + start + pattern.len ∧ base + start + pattern.len ≤ all.length) := by
      rcases hfits with hfits | hend
      · constructor <;> intro _ <;> omega
      · constructor <;> intro _ <;> omega
    simp only [hiff]
  unfold ArtifactPattern.matchesAt
  rw [hleft, hright]
  simp only [hwindow]

theorem addOffset_zero {position : Nat} (h : position ≤ u64Max) :
    addOffset 0 position = .ok position := by
  rw [addOffset_eq_ok (by omega), Nat.zero_add]

theorem verifyCandidate_window (hupTo : upTo ≤ all.length) (hbase : base ≤ upTo)
    (hsm : base + start + maxPatternBytes ≤ u64Max)
    (hfits : Fits scanner all upTo (base + start)) (candidate : Nat) :
    verifyCandidate scanner ((all.take upTo).drop base) base start candidate =
      verifyCandidate scanner all 0 (base + start) candidate := by
  unfold verifyCandidate signatureAt
  cases hget : scanner.catalog.signatures[candidate]? with
  | none => rfl
  | some signature =>
    have hlen := scanner.catalog.len_le_maximum (mem_of_getElem? hget)
    have hmax := scanner.catalog.maximum_le
    simp only [pure_bind, matchesAt_window signature.pattern hlen hupTo hbase (by omega) hfits,
      addOffset_eq_ok (show base + start ≤ u64Max by omega),
      addOffset_zero (show base + start ≤ u64Max by omega)]

theorem probeAnchor_window (hupTo : upTo ≤ all.length) (hbase : base ≤ upTo)
    (hsm : base + start + maxPatternBytes ≤ u64Max)
    (hfits : Fits scanner all upTo (base + start)) {group : Nat × BTreeMap UInt8 (List Nat)}
    (hgrp : group ∈ scanner.catalog.anchorGroups.toList) :
    probeAnchor scanner ((all.take upTo).drop base) base start group =
      probeAnchor scanner all 0 (base + start) group := by
  have hoffset := scanner.catalog.offset_lt_maximum (mem_toList.mp hgrp)
  have hmax := scanner.catalog.maximum_le
  have hverify : verifyCandidate scanner ((all.take upTo).drop base) base start =
      verifyCandidate scanner all 0 (base + start) :=
    funext fun candidate => verifyCandidate_window hupTo hbase hsm hfits candidate
  unfold probeAnchor
  rw [addOffset_eq_ok (show start + group.1 ≤ u64Max by omega),
    addOffset_eq_ok (show base + start + group.1 ≤ u64Max by omega), hverify]
  congr 1
  funext charged
  congr 1
  show liftM _ >>= _ = liftM _ >>= _
  funext progress
  simp only [bind, liftM, monadLift, MonadLift.monadLift, get_window hoffset hfits]

/-- A start that fits is scanned from the window as from the input. -/
theorem scanStart_window (hupTo : upTo ≤ all.length) (hbase : base ≤ upTo)
    (hsm : base + start + maxPatternBytes ≤ u64Max)
    (hfits : Fits scanner all upTo (base + start)) :
    scanStart scanner ((all.take upTo).drop base) base start =
      scanStart scanner all 0 (base + start) := by
  have hprobes : untilStop (probeAnchor scanner ((all.take upTo).drop base) base start)
      scanner.catalog.anchorGroups.toList =
      untilStop (probeAnchor scanner all 0 (base + start)) scanner.catalog.anchorGroups.toList :=
    untilStop_congr fun _ hgrp => probeAnchor_window hupTo hbase hsm hfits hgrp
  have hfron : advanceFrontier base start = advanceFrontier 0 (base + start) := by
    unfold maxPatternBytes at hsm
    unfold advanceFrontier
    rw [addOffset_eq_ok (show base + start ≤ u64Max by omega), addOffset_zero (by omega)]
  unfold scanStart
  rw [hprobes, hfron]

/-- A loop over the starts of the window goes on where a loop over the starts
before it ended. -/
theorem scanStarts_window (starts : Nat) {progress : ScanProgress}
    (hall : all.length ≤ maxInputBytes)
    (hupTo : upTo ≤ all.length) (hbase : base + starts ≤ upTo)
    (hfits : ∀ start < starts, Fits scanner all upTo (base + start))
    (hbef : scanStarts scanner all 0 base {} = .ok none progress) :
    scanStarts scanner ((all.take upTo).drop base) base starts progress =
      scanStarts scanner all 0 (base + starts) {} := by
  unfold scanStarts at hbef ⊢
  rw [range_add, untilStop_append_of_none _ hbef, untilStop_map]
  refine congrFun (untilStop_congr fun start hsta => ?_) progress
  have hlt : start < starts := mem_range.mp hsta
  have hsm : base + start + maxPatternBytes ≤ u64Max := by
    unfold maxInputBytes at hall
    unfold maxPatternBytes u64Max
    omega
  exact scanStart_window hupTo (by omega) hsm (hfits start hlt)

/-- A stop before some start is the stop of the whole scan. -/
theorem scanStarts_stop {starts : Nat} {stop : ScanStop} {progress : ScanProgress}
    (hstarts : starts ≤ all.length)
    (h : scanStarts scanner all 0 starts {} = .ok (some stop) progress) :
    scanStarts scanner all 0 all.length {} = .ok (some stop) progress := by
  unfold scanStarts at h ⊢
  obtain ⟨more, hmore⟩ := Nat.exists_eq_add_of_le hstarts
  rw [hmore, range_add]
  exact untilStop_append_of_stop _ h

end Window

/-! ### The loop -/

section Loop

variable (sha256 : Bytes → String) (scanner : ArtifactScanner) (input : Bytes) {ρ : Type}

/-- The prefix the limits allow. -/
def boundedInput : Bytes := input.take (min scanner.limits.maxInputBytes input.length)

/-- What the stream says when nothing stopped the matcher. -/
def streamEnd : ArtifactScanCompletion :=
  if (boundedInput scanner input).length = scanner.limits.maxInputBytes then .inputLimitReached
  else .complete

/-- The report is that of the scan of all starts, after `bytesConsumed` bytes:
all of them unless it stopped. -/
def Agrees (report : ArtifactScanReport) : Prop :=
  ∃ stop progress bytesConsumed,
    scanStarts scanner (boundedInput scanner input) 0 (boundedInput scanner input).length {} =
      .ok stop progress ∧
    bytesConsumed ≤ (boundedInput scanner input).length ∧
    (stop = none → bytesConsumed = (boundedInput scanner input).length) ∧
    buildReport sha256 scanner (stop.elim (streamEnd scanner input) completionForStop)
      ((boundedInput scanner input).take bytesConsumed) bytesConsumed progress = .ok report ∧
    Shows progress (stop.elim (streamEnd scanner input) completionForStop) report

/-- The window ends where the reads ended, and the starts before it were
scanned. -/
structure Scanned (stream : Stream ρ) : Prop where
  windowStart_le : stream.windowStart ≤ stream.bytesRead
  bytesRead_le : stream.bytesRead ≤ (boundedInput scanner input).length
  hashed_eq : stream.hashed = (boundedInput scanner input).take stream.bytesRead
  window_eq : stream.window =
    ((boundedInput scanner input).take stream.bytesRead).drop stream.windowStart
  progress_eq : scanStarts scanner (boundedInput scanner input) 0 stream.windowStart {} =
    .ok none stream.progress

theorem boundedInput_length :
    (boundedInput scanner input).length = min scanner.limits.maxInputBytes input.length := by
  unfold boundedInput
  rw [length_take]
  omega

theorem boundedInput_le : (boundedInput scanner input).length ≤ maxInputBytes := by
  rw [boundedInput_length]
  exact le_trans (min_le_left _ _) scanner.limits.inputBytes_checked.2

variable {sha256 scanner input}

theorem Scanned.window_length {stream : Stream ρ} (h : Scanned scanner input stream) :
    stream.window.length = stream.bytesRead - stream.windowStart := by
  rw [h.window_eq, length_drop, length_take, min_eq_left h.bytesRead_le]

/-- What the whole scan leaves keeps the bounds of a report. -/
theorem scanned_all (scanner : ArtifactScanner) (input : Bytes) : ∃ stop progress checked,
    scanStarts scanner (boundedInput scanner input) 0 (boundedInput scanner input).length {} =
      .ok stop progress ∧
    Within scanner.limits checked progress ∧ checked ≤ (boundedInput scanner input).length ∧
    (stop = none → checked = (boundedInput scanner input).length) := by
  have hspec := scanStarts_spec scanner (boundedInput scanner input) (boundedInput_le scanner input)
  unfold wp at hspec
  rcases hrun : scanStarts scanner (boundedInput scanner input) 0
    (boundedInput scanner input).length {} with ⟨stop, progress⟩ | ⟨e, progress⟩ | _
  · rw [hrun] at hspec
    cases stop with
    | none => exact ⟨none, progress, _, rfl, hspec, le_refl _, fun _ => rfl⟩
    | some stop =>
      obtain ⟨checked, hlt, hwith⟩ := hspec
      exact ⟨some stop, progress, checked, rfl, hwith, hlt.le, fun h => by cases h⟩
  · rw [hrun] at hspec
    exact hspec.elim
  · rw [hrun] at hspec
    exact hspec.elim

/-- The report of the whole scan can be built, and shows what the scan left. -/
theorem exists_report (sha256 : Bytes → String) (stop : Option ScanStop)
    (ending : ArtifactScanCompletion) {progress : ScanProgress} {bytesConsumed checked : Nat}
    (hwith : Within scanner.limits checked progress) (hchec : checked ≤ bytesConsumed)
    (hnone : stop = none → checked = bytesConsumed) (consumed : Bytes) : ∃ report,
      buildReport sha256 scanner (stop.elim ending completionForStop) consumed bytesConsumed
        progress = .ok report ∧ Shows progress (stop.elim ending completionForStop) report := by
  refine buildReport_ok sha256 consumed hwith hchec fun h => ?_
  cases stop with
  | none => exact hnone rfl
  | some stop => cases stop <;> cases h

/-- At the end of the input the rest of the window completes the scan. -/
theorem finishStream_spec (sha256 : Bytes → String) {stream : Stream ρ}
    (h : Scanned scanner input stream)
    (hend : stream.bytesRead = (boundedInput scanner input).length) :
    wp (finishStream sha256 scanner (streamEnd scanner input))
      (fun report _ => report.elim False (Agrees sha256 scanner input)) (fun _ _ => False) False
      stream := by
  have hlength := h.window_length
  have hle := h.windowStart_le
  have hscan : scanStarts scanner stream.window stream.windowStart stream.window.length
      stream.progress = scanStarts scanner (boundedInput scanner input) 0
        (boundedInput scanner input).length {} := by
    have hstep := scanStarts_window stream.window.length (boundedInput_le scanner input)
      h.bytesRead_le (by omega) (fun _ _ => Or.inr hend) h.progress_eq
    rw [← h.window_eq] at hstep
    rw [hstep, hlength, ← hend, Nat.add_sub_cancel' hle]
  obtain ⟨stop, progress, checked, hall, hwith, hchec, hnone⟩ := scanned_all scanner input
  obtain ⟨report, hreport, hshw⟩ := exists_report sha256 stop (streamEnd scanner input) hwith hchec
    hnone ((boundedInput scanner input).take stream.bytesRead)
  simp only [finishStream, scanWindow, wp_rules, wp_locally]
  rw [wp_of_eq_ok (hscan.trans hall)]
  simp only [wp_rules, reportStream, h.hashed_eq, hend]
  rw [hend] at hreport
  rw [hreport]
  simp only [Checked.wp_ok, Option.elim]
  exact ⟨stop, progress, _, hall, le_refl _, fun _ => rfl, hreport, hshw⟩

/-- What a read leaves behind: its bytes at the end of the window. -/
theorem window_append {stream : Stream ρ} (h : Scanned scanner input stream) {read : Nat}
    (hbs : stream.chunk.take read =
      ((boundedInput scanner input).drop stream.bytesRead).take read) :
    stream.window ++ stream.chunk.take read =
        ((boundedInput scanner input).take (stream.bytesRead + read)).drop stream.windowStart ∧
      stream.hashed ++ stream.chunk.take read =
        (boundedInput scanner input).take (stream.bytesRead + read) := by
  have hhashed : stream.hashed ++ stream.chunk.take read =
      (boundedInput scanner input).take (stream.bytesRead + read) := by
    rw [h.hashed_eq, hbs, take_add]
  refine ⟨?_, hhashed⟩
  rw [← hhashed, h.window_eq, h.hashed_eq, drop_append_of_le_length]
  rw [length_take, min_eq_left h.bytesRead_le]
  exact h.windowStart_le

/-- The loop scans the starts of a read that fit, and carries the rest. -/
theorem takeRead_spec {stream : Stream ρ} (h : Scanned scanner input stream) {read : Nat}
    (hread : stream.bytesRead + read ≤ (boundedInput scanner input).length)
    (hbs : stream.chunk.take read =
      ((boundedInput scanner input).drop stream.bytesRead).take read) :
    wp (takeRead sha256 scanner read) (fun report after => report.elim
        (Scanned scanner input after ∧ after.bytesRead = stream.bytesRead + read ∧
          after.reader = stream.reader ∧ after.chunk = stream.chunk ∧
          after.consecutiveInterrupts = stream.consecutiveInterrupts)
        (Agrees sha256 scanner input))
      (fun _ _ => False) False stream := by
  obtain ⟨hwindow, hhashed⟩ := window_append h hbs
  have hsta := h.windowStart_le
  have hbdd := boundedInput_le scanner input
  have hlength : (stream.window ++ stream.chunk.take read).length =
      stream.bytesRead + read - stream.windowStart := by
    rw [hwindow, length_drop, length_take, min_eq_left hread]
  have hsm : stream.bytesRead + read ≤ u64Max := by
    unfold maxInputBytes at hbdd
    unfold u64Max
    omega
  set scanable := (stream.window ++ stream.chunk.take read).length - retained scanner with hscanable
  have hfits : ∀ start < scanable,
      Fits scanner (boundedInput scanner input) (stream.bytesRead + read)
        (stream.windowStart + start) := by
    intro start hlt
    unfold retained at hscanable
    exact Or.inl (by omega)
  have hscan := scanStarts_window scanable hbdd hread (by omega) hfits h.progress_eq
  rw [← hwindow] at hscan
  simp only [takeRead, wp_rules, addOffset_eq_ok hsm, Checked.wp_ok, scanWindow, wp_locally,
    ← hscanable]
  have hspec := scanStarts_spec scanner (boundedInput scanner input)
    (show stream.windowStart + scanable ≤ maxInputBytes by omega)
  rcases hrun : scanStarts scanner (boundedInput scanner input) 0
    (stream.windowStart + scanable) {} with ⟨stop, progress⟩ | ⟨e, progress⟩ | _
  · rw [wp_of_eq_ok hrun] at hspec
    rw [wp_of_eq_ok (hscan.trans hrun)]
    cases stop with
    | some stop =>
      obtain ⟨checked, hlt, hwith⟩ := hspec
      have hall := scanStarts_stop (by omega) hrun
      obtain ⟨report, hreport, hshw⟩ := exists_report sha256 (some stop) (streamEnd scanner input) hwith
        (show checked ≤ stream.bytesRead + read by omega) (fun hnone => by cases hnone)
        ((boundedInput scanner input).take (stream.bytesRead + read))
      simp only [wp_rules, reportStream, hhashed]
      simp only [Option.elim] at hreport
      rw [hreport]
      exact ⟨some stop, progress, _, hall, hread, fun hnone => (by cases hnone), hreport, hshw⟩
    | none =>
      simp only [wp_rules, carryOver, Option.elim, and_true]
      refine ⟨fun hzero => ?_, fun _ => ?_⟩
      · rw [hzero, Nat.add_zero] at hrun
        exact
          { windowStart_le := by simp only; omega
            bytesRead_le := hread
            hashed_eq := hhashed
            window_eq := hwindow
            progress_eq := hrun }
      · have hdrop : ((stream.window ++ stream.chunk.take read).drop scanable).length ≤
            retained scanner := by
          rw [length_drop]
          omega
        have hcarry : retainUncheckedCarry (stream.window ++ stream.chunk.take read) scanable
            (retained scanner) = .ok ((stream.window ++ stream.chunk.take read).drop scanable) := by
          unfold retainUncheckedCarry
          rw [if_neg (by omega), if_neg (by omega)]
        rw [hcarry, Checked.wp_ok, addOffset_eq_ok (by omega), Checked.wp_ok]
        exact
          { windowStart_le := by simp only; omega
            bytesRead_le := hread
            hashed_eq := hhashed
            window_eq := by rw [hwindow, drop_drop]
            progress_eq := hrun }
  · rw [hrun] at hscan
    unfold wp at hspec
    rw [hrun] at hspec
    exact hspec.elim
  · unfold wp at hspec
    rw [hrun] at hspec
    exact hspec.elim

/-- What holds before every turn of the loop. -/
structure StreamInvariant (scanner : ArtifactScanner) (input : Bytes)
    (At : ρ → Bytes → Nat → Prop) (stream : Stream ρ) : Prop where
  scanned : Scanned scanner input stream
  chunk_length : stream.chunk.length = scanner.limits.readerChunkBytes
  reader_at : At stream.reader (input.drop stream.bytesRead) stream.consecutiveInterrupts

/-- The bytes of a good read are the next bytes of the bounded input. -/
theorem take_read_eq {stream : Stream ρ} {read requested : Nat} {written rest : Bytes}
    (hchunk : stream.chunk = written ++ rest) (hwr : written.length = requested)
    (hread : read ≤ requested)
    (hrem : requested ≤ scanner.limits.maxInputBytes - stream.bytesRead)
    (hbs : written.take read = (input.drop stream.bytesRead).take read) :
    stream.bytesRead + read ≤ max (boundedInput scanner input).length stream.bytesRead ∧
    stream.chunk.take read = ((boundedInput scanner input).drop stream.bytesRead).take read := by
  have hlength := congrArg length hbs
  rw [length_take, length_take, length_drop, hwr, min_eq_left hread] at hlength
  have hall := boundedInput_length scanner input
  refine ⟨by omega, ?_⟩
  rw [hchunk, take_append_of_le_length (by omega), hbs]
  unfold boundedInput
  rw [drop_take, take_take, min_eq_left (by omega)]

/-- A good read keeps the invariant, or ends in a report that agrees. -/
theorem handleRead_spec {At : ρ → Bytes → Nat → Prop} {stream : Stream ρ} {requested : Nat}
    {result : ReadResult} {written rest : Bytes} (h : Scanned scanner input stream)
    (hlength : stream.chunk.length = scanner.limits.readerChunkBytes)
    (hchunk : stream.chunk = written ++ rest) (hwr : written.length = requested)
    (hrem : requested ≤ scanner.limits.maxInputBytes - stream.bytesRead)
    (hleft : stream.bytesRead < scanner.limits.maxInputBytes)
    (hgood : GoodRead At (input.drop stream.bytesRead) stream.consecutiveInterrupts requested
      (result, written, stream.reader)) :
    wp (handleRead sha256 scanner requested result)
      (fun report after => report.elim (StreamInvariant scanner input At after)
        (Agrees sha256 scanner input))
      (fun _ _ => False) False stream := by
  have hall := boundedInput_length scanner input
  have hle := h.bytesRead_le
  cases result with
  | failed => exact hgood.elim
  | interrupted =>
    simp only [handleRead, wp_rules, Option.elim]
    refine ⟨fun _ => ?_, fun hmany => absurd hgood.1 (by omega)⟩
    exact
      { scanned :=
          { windowStart_le := h.windowStart_le, bytesRead_le := h.bytesRead_le
            hashed_eq := h.hashed_eq, window_eq := h.window_eq, progress_eq := h.progress_eq }
        chunk_length := hlength
        reader_at := hgood.2 }
  | ok read =>
    have hreset : Scanned scanner input { stream with consecutiveInterrupts := 0 } :=
      { windowStart_le := h.windowStart_le, bytesRead_le := h.bytesRead_le
        hashed_eq := h.hashed_eq, window_eq := h.window_eq, progress_eq := h.progress_eq }
    simp only [handleRead, wp_rules]
    simp only [GoodRead] at hgood
    split_ifs at hgood with hemp
    · have hend : stream.bytesRead = (boundedInput scanner input).length := by
        have hnil := drop_eq_nil_iff.mp hemp
        omega
      have hcomp : streamEnd scanner input = .complete := by
        unfold streamEnd
        exact if_neg (by omega)
      refine ⟨fun _ => ?_, fun hne => absurd hgood hne⟩
      have hfin := finishStream_spec sha256 hreset hend
      rw [hcomp] at hfin
      refine wp_mono hfin (fun report after hreport => ?_) (fun _ _ hf => hf) id
      cases report with
      | none => exact hreport.elim
      | some report => exact hreport
    · obtain ⟨hpos, hread, hbs, hat⟩ := hgood
      obtain ⟨hfits, hnext⟩ := take_read_eq hchunk hwr hread hrem hbs
      refine ⟨fun hzero => absurd hzero (by omega), fun _ => ⟨fun hlarge => absurd hlarge (by omega),
        fun _ => ?_⟩⟩
      refine wp_mono (takeRead_spec hreset (by simp only; omega) hnext) (fun report after haft => ?_)
        (fun _ _ hf => hf) id
      cases report with
      | some report => exact haft
      | none =>
        obtain ⟨hscanned, hbytesRead, hreader, hchunk', hint⟩ := haft
        refine { scanned := hscanned, chunk_length := ?_, reader_at := ?_ }
        · rw [hchunk']
          exact hlength
        · rw [hreader, hbytesRead, hint, ← drop_drop]
          exact hat

/-- **One turn.** From the invariant a turn of the loop keeps it, or returns a
report that agrees with the scan of the bytes. -/
theorem streamTurn_spec {R : Reader ρ} {At : ρ → Bytes → Nat → Prop}
    (hrd : ∀ state rest interrupts buffer, At state rest interrupts → buffer ≠ [] →
      GoodRead At rest interrupts buffer.length (R.read state buffer))
    (stream : Stream ρ) (h : StreamInvariant scanner input At stream) :
    wp (streamTurn sha256 scanner R)
      (fun report after => report.elim (StreamInvariant scanner input At after)
        (Agrees sha256 scanner input))
      (fun _ _ => False) False stream := by
  have hall := boundedInput_length scanner input
  have hle := h.scanned.bytesRead_le
  unfold streamTurn
  simp only [wp_rules]
  refine ⟨fun hzero => ?_, fun hrem => ?_⟩
  · have hend : stream.bytesRead = (boundedInput scanner input).length := by omega
    have hlimit : streamEnd scanner input = .inputLimitReached := by
      unfold streamEnd
      exact if_pos (by omega)
    have hfin := finishStream_spec sha256 h.scanned hend
    rw [hlimit] at hfin
    refine wp_mono hfin (fun report after hreport => ?_) (fun _ _ hf => hf) id
    cases report with
    | none => exact hreport.elim
    | some report => exact hreport
  · have hchunk := scanner.limits.chunk_checked
    set requested := min (scanner.limits.maxInputBytes - stream.bytesRead) stream.chunk.length
      with hreq
    have hlength : (stream.chunk.take requested).length = requested := by
      rw [length_take]
      omega
    have hbuffer : stream.chunk.take requested ≠ [] := by
      intro hnil
      rw [hnil, length_nil, hreq, h.chunk_length] at hlength
      omega
    have hgood := hrd _ _ _ _ h.reader_at hbuffer
    have hwr := R.length_read stream.reader (stream.chunk.take requested)
    rw [hlength] at hgood hwr
    refine handleRead_spec ?_ ?_ rfl hwr (min_le_left _ _) (by simp only; omega) hgood
    · exact
        { windowStart_le := h.scanned.windowStart_le, bytesRead_le := h.scanned.bytesRead_le
          hashed_eq := h.scanned.hashed_eq, window_eq := h.scanned.window_eq
          progress_eq := h.scanned.progress_eq }
    · have hlen := h.chunk_length
      simp only [length_append, hwr, length_drop]
      omega

end Loop

/-- The streaming loop returns a report that agrees. -/
theorem scanReader_returns (sha256 : Bytes → String) (scanner : ArtifactScanner)
    (input : Bytes) {ρ : Type} (R : Reader ρ) (reader : ρ) (h : Delivers R reader input) :
    wp (scanReader sha256 scanner R reader) (fun report _ => Agrees sha256 scanner input report)
      (fun _ _ => False) False () := by
  obtain ⟨At, hsta, hrd⟩ := h
  have hcap : scanner.limits.readerChunkBytes + retained scanner ≤ u64Max := by
    have hchunk := scanner.limits.chunk_checked.2
    have hmax := scanner.catalog.maximum_le
    unfold retained
    unfold maxReaderChunkBytes at hchunk
    unfold maxPatternBytes at hmax
    unfold u64Max
    omega
  simp only [scanReader, wp_rules, addOffset_eq_ok hcap, Checked.wp_ok, wp_locally]
  refine wp_loop (I := StreamInvariant scanner input At) (streamTurn_spec hrd) _ ?_
  exact
    { scanned :=
        { windowStart_le := le_refl _, bytesRead_le := Nat.zero_le _, hashed_eq := rfl
          window_eq := rfl, progress_eq := rfl }
      chunk_length := length_replicate
      reader_at := hsta }

/-- What the scan of the bytes says when nothing stopped the matcher. -/
def bytesEnd (scanner : ArtifactScanner) (input : Bytes) : ArtifactScanCompletion :=
  if input.length > (boundedInput scanner input).length then .inputLimitReached else .complete

/-- `scan_bytes` reports the scan of all starts. -/
theorem scanBytes_eq {sha256 : Bytes → String} {scanner : ArtifactScanner}
    {input : Bytes} {stop : Option ScanStop} {progress : ScanProgress}
    {report : ArtifactScanReport}
    (hall : scanStarts scanner (boundedInput scanner input) 0 (boundedInput scanner input).length {} =
      .ok stop progress)
    (hreport : buildReport sha256 scanner (stop.elim (bytesEnd scanner input) completionForStop)
      (boundedInput scanner input) (boundedInput scanner input).length progress = .ok report) :
    scanBytes sha256 scanner input () = .ok report () := by
  rw [eq_ok_iff_wp]
  simp only [scanBytes, wp_bind, wp_locally]
  change wp (scanStarts scanner (boundedInput scanner input) 0
    (boundedInput scanner input).length) _ _ _ _
  rw [wp_of_eq_ok hall, wp_lift]
  change Checked.wp (buildReport sha256 scanner
    (stop.elim (bytesEnd scanner input) completionForStop) (boundedInput scanner input)
    (boundedInput scanner input).length progress) _ _
  rw [hreport]
  simp

/-- The two reports of one scan: what the slice scan reports of all starts, and
what a reader's scan reports of the bytes it read. -/
theorem reports_of_scan (sha256 : Bytes → String) (scanner : ArtifactScanner)
    (input : Bytes) {ρ : Type} (R : Reader ρ) (reader : ρ) (h : Delivers R reader input) :
    ∃ bytes stream stop progress bytesConsumed, scanBytes sha256 scanner input () = .ok bytes () ∧
      scanReader sha256 scanner R reader () = .ok stream () ∧
      buildReport sha256 scanner (stop.elim (bytesEnd scanner input) completionForStop)
        (boundedInput scanner input) (boundedInput scanner input).length progress = .ok bytes ∧
      Shows progress (stop.elim (bytesEnd scanner input) completionForStop) bytes ∧
      buildReport sha256 scanner (stop.elim (streamEnd scanner input) completionForStop)
        ((boundedInput scanner input).take bytesConsumed) bytesConsumed progress = .ok stream ∧
      Shows progress (stop.elim (streamEnd scanner input) completionForStop) stream ∧
      (stop = none → bytesConsumed = (boundedInput scanner input).length) := by
  obtain ⟨stop, progress, checked, hall, hwith, hchec, hnone⟩ := scanned_all scanner input
  obtain ⟨bytes, hbs, hshw⟩ := exists_report sha256 stop (bytesEnd scanner input) hwith
    hchec hnone (boundedInput scanner input)
  have hret := scanReader_returns sha256 scanner input R reader h
  unfold wp at hret
  rcases hrun : scanReader sha256 scanner R reader () with ⟨stream, _⟩ | ⟨e, _⟩ | _
  · rw [hrun] at hret
    obtain ⟨stop', progress', consumed, hall', -, hcons, hstream, hshw'⟩ := hret
    rw [hall, Outcome.ok.injEq] at hall'
    obtain ⟨rfl, rfl⟩ := hall'
    exact ⟨bytes, stream, stop, progress, consumed, scanBytes_eq hall hbs, rfl, hbs, hshw,
      hstream, hshw', hcons⟩
  · rw [hrun] at hret
    exact hret.elim
  · rw [hrun] at hret
    exact hret.elim

/-- **Streaming and scanning the bytes agree.** For every catalog, limits and
bytes, and every reader that delivers these bytes, `scan_reader` and
`scan_bytes` both return a report, with the same numbered matches, the same
work, the same frontier, and the same stop at the match limit or the work
limit. -/
theorem scanReader_agrees (sha256 : Bytes → String) (scanner : ArtifactScanner)
    (input : Bytes) {ρ : Type} (R : Reader ρ) (reader : ρ) (h : Delivers R reader input) :
    ∃ bytes stream, scanBytes sha256 scanner input () = .ok bytes () ∧
      scanReader sha256 scanner R reader () = .ok stream () ∧
      bytes.matchesFound = stream.matchesFound ∧ bytes.matchWorkUnits = stream.matchWorkUnits ∧
      bytes.matchStartPositionsChecked = stream.matchStartPositionsChecked ∧
      (bytes.completion = .matchLimitReached ↔ stream.completion = .matchLimitReached) ∧
      (bytes.completion = .matchWorkLimitReached ↔ stream.completion = .matchWorkLimitReached) := by
  obtain ⟨bytes, stream, stop, progress, -, hscanB, hscanR, -, hshw, -, hshw', -⟩ :=
    reports_of_scan sha256 scanner input R reader h
  have hbyt : bytesEnd scanner input = .inputLimitReached ∨
      bytesEnd scanner input = .complete := by
    unfold bytesEnd
    split_ifs <;> simp
  have hstr : streamEnd scanner input = .inputLimitReached ∨
      streamEnd scanner input = .complete := by
    unfold streamEnd
    split_ifs <;> simp
  refine ⟨bytes, stream, hscanB, hscanR, hshw.matches_eq.trans hshw'.matches_eq.symm,
    hshw.work_eq.trans hshw'.work_eq.symm, hshw.frontier_eq.trans hshw'.frontier_eq.symm,
    ?_, ?_⟩
  · rw [hshw.completion_eq, hshw'.completion_eq]
    cases stop with
    | some stop => exact Iff.rfl
    | none => rcases hbyt with hb | hb <;> rcases hstr with hs | hs <;> simp [hb, hs]
  · rw [hshw.completion_eq, hshw'.completion_eq]
    cases stop with
    | some stop => exact Iff.rfl
    | none => rcases hbyt with hb | hb <;> rcases hstr with hs | hs <;> simp [hb, hs]

/-- A reader that delivers one byte at a time and is interrupted before each. -/
def stutteringReader : Reader (Bytes × Bool) where
  read := fun state buffer =>
    match state, buffer with
    | (rest, false), buffer => (.interrupted, buffer, (rest, true))
    | (byte :: rest, true), _ :: free => (.ok 1, byte :: free, (rest, false))
    | (rest, true), buffer => (.ok 0, buffer, (rest, true))
  length_read := by
    intro state buffer
    rcases state with ⟨_ | ⟨byte, rest⟩, _ | _⟩ <;> cases buffer <;> rfl

theorem stutteringReader_delivers (input : Bytes) :
    Delivers stutteringReader (input, false) input := by
  refine ⟨fun state rest interrupts => state.1 = rest ∧ interrupts = state.2.toNat, ⟨rfl, rfl⟩, ?_⟩
  rintro ⟨bytes, ready⟩ rest interrupts buffer ⟨rfl, rfl⟩ hbuffer
  cases ready with
  | false => exact ⟨show 0 < maxConsecutiveInterrupts by decide, rfl, rfl⟩
  | true =>
    cases buffer with
    | nil => exact absurd rfl hbuffer
    | cons first free =>
      cases bytes with
      | nil => rfl
      | cons byte rest => exact ⟨by decide, by simp, rfl, rfl, rfl⟩

/-- Two bytes `A`. -/
def overlapPattern : ArtifactPattern :=
  ⟨[.exact 0x41, .exact 0x41], by decide, by decide⟩

def overlapRef : ArtifactSignatureRef :=
  ⟨⟨"lab", by decide⟩, ⟨"overlap", by decide⟩, ⟨1, by decide, by decide⟩⟩

def overlapScanner : ArtifactScanner where
  catalog := .ofSignatures
    [{ signatureRef := overlapRef
       observationClass := .testCanary
       pattern := overlapPattern }] "artifact-catalog-sha256:00"
  limits := ⟨8, 1, 4, 32, by decide, by decide, by decide, by decide⟩

/-- Three bytes `A` hold two matches, and the limit allows one. -/
theorem scanReader_agrees_overlap : ∃ bytes stream,
    scanBytes (fun _ => "00") overlapScanner [0x41, 0x41, 0x41] () = .ok bytes () ∧
    scanReader (fun _ => "00") overlapScanner stutteringReader ([0x41, 0x41, 0x41], false) () =
      .ok stream () ∧
    stream.completion = .matchLimitReached ∧ stream.matchStartPositionsChecked = 1 := by
  obtain ⟨bytes, stream, hbs, hstream, -, -, hfron, hlimit, -⟩ := scanReader_agrees
    (fun _ => "00") overlapScanner [0x41, 0x41, 0x41] stutteringReader ([0x41, 0x41, 0x41], false)
    (stutteringReader_delivers _)
  have hstop : (match scanBytes (fun _ => "00") overlapScanner [0x41, 0x41, 0x41] () with
      | .ok report _ => some (report.completion, report.matchStartPositionsChecked)
      | _ => none) = some (.matchLimitReached, 1) := by decide +kernel
  rw [hbs, Option.some.injEq, Prod.mk.injEq] at hstop
  exact ⟨bytes, stream, hbs, hstream, hlimit.mp hstop.1, hfron ▸ hstop.2⟩

end Termivar
