/-
# When a scan is complete

A complete scan identifies the whole artifact. `scan_bytes` sees the end of
its slice; `scan_reader` sees the end of its reader only in a read that
returns nothing, and it reads no further than the limit. The two agree on
every artifact that is shorter than the limit, and on an artifact of exactly
the limit the reader's scan says that it reached the limit.
-/
import Termivar.Artifact.Agreement

namespace Termivar

/-- The identity is that of a whole artifact. -/
def ArtifactContentIdentity.isCompleteArtifact : ArtifactContentIdentity → Bool
  | .artifact _ => true
  | .consumedPrefix _ _ => false

variable {sha256 : Bytes → String} {scanner : ArtifactScanner} {input : Bytes}

/-- The identity that a report of this completion carries. -/
def identityOf (sha256 : Bytes → String) (completion : ArtifactScanCompletion)
    (consumed : Bytes) (bytesConsumed : Nat) : ArtifactContentIdentity :=
  if completion = .complete then .artifact ("artifact-sha256:" ++ sha256 consumed)
  else .consumedPrefix ("consumed-prefix-sha256:" ++ sha256 consumed) bytesConsumed

theorem isCompleteArtifact_identityOf (completion : ArtifactScanCompletion)
    (consumed : Bytes) (bytesConsumed : Nat) :
    (identityOf sha256 completion consumed bytesConsumed).isCompleteArtifact = true ↔
      completion = .complete := by
  unfold identityOf
  split_ifs with h
  · simp [ArtifactContentIdentity.isCompleteArtifact, h]
  · simp [ArtifactContentIdentity.isCompleteArtifact, h]

/-- A report that was built carries the identity of its completion. -/
theorem buildReport_identity {completion : ArtifactScanCompletion} {consumed : Bytes}
    {bytesConsumed : Nat} {progress : ScanProgress} {report : ArtifactScanReport}
    (h : buildReport sha256 scanner completion consumed bytesConsumed progress = .ok report) :
    report.contentIdentity = identityOf sha256 completion consumed bytesConsumed := by
  have hwp : Checked.wp (buildReport sha256 scanner completion consumed bytesConsumed progress)
      (fun report => report.contentIdentity = identityOf sha256 completion consumed bytesConsumed)
      (fun _ => True) := by
    simp only [buildReport, ArtifactScanReport.new, Checked.wp_rules, implies_true, true_and,
      and_true]
    intro _ _
    refine Checked.wp_of_forall (fun _ _ _ _ _ _ => ?_) (fun _ => trivial)
    exact Checked.wp_of_forall (fun _ => rfl) (fun _ => trivial)
  rw [h] at hwp
  exact hwp

/-! ### The ends of the two scans -/

theorem completion_eq_complete {stop : Option ScanStop} {ending : ArtifactScanCompletion} :
    stop.elim ending completionForStop = .complete ↔ stop = none ∧ ending = .complete := by
  cases stop with
  | none => simp
  | some stop => cases stop <;> simp [completionForStop]

/-- The slice ended within the limit. -/
theorem bytesEnd_eq_complete :
    bytesEnd scanner input = .complete ↔ input.length ≤ scanner.limits.maxInputBytes := by
  unfold bytesEnd
  rw [boundedInput_length]
  split_ifs with h
  · simp only [false_iff]
    omega
  · simp only [true_iff]
    omega

/-- The reader ended before the limit. -/
theorem streamEnd_eq_complete :
    streamEnd scanner input = .complete ↔ input.length < scanner.limits.maxInputBytes := by
  unfold streamEnd
  rw [boundedInput_length]
  split_ifs with h
  · simp only [false_iff]
    omega
  · simp only [true_iff]
    omega

/-- Both scans return, complete when nothing stopped the matcher before the
end that each of them sees. -/
theorem reports_completion (sha256 : Bytes → String) (scanner : ArtifactScanner)
    (input : Bytes) {ρ : Type} (R : Reader ρ) (reader : ρ) (h : Delivers R reader input) :
    ∃ bytes stream, ∃ stop : Option ScanStop, scanBytes sha256 scanner input () = .ok bytes () ∧
      scanReader sha256 scanner R reader () = .ok stream () ∧
      bytes.completion = stop.elim (bytesEnd scanner input) completionForStop ∧
      stream.completion = stop.elim (streamEnd scanner input) completionForStop ∧
      (bytes.contentIdentity.isCompleteArtifact = true ↔ bytes.completion = .complete) ∧
      (stream.contentIdentity.isCompleteArtifact = true ↔ stream.completion = .complete) ∧
      (bytes.completion = .complete → stream.completion = .complete →
        stream.contentIdentity = bytes.contentIdentity) := by
  obtain ⟨bytes, stream, stop, progress, consumed, hscanB, hscan, hbs, hshw, hstr,
    hshw', hcons⟩ := reports_of_scan sha256 scanner input R reader h
  have hid := buildReport_identity hbs
  have hid' := buildReport_identity hstr
  rw [← hshw.completion_eq] at hid
  rw [← hshw'.completion_eq] at hid'
  refine ⟨bytes, stream, stop, hscanB, hscan, hshw.completion_eq, hshw'.completion_eq,
    ?_, ?_, fun hcomp hcomp' => ?_⟩
  · rw [hid, isCompleteArtifact_identityOf]
  · rw [hid', isCompleteArtifact_identityOf]
  · have hnone := (completion_eq_complete.mp (hshw'.completion_eq ▸ hcomp')).1
    rw [hid, hid', hcomp, hcomp', hcons hnone, List.take_length]

/-- **A reader's scan is complete exactly below the limit.** For every
catalog, limits and bytes within the limit, however a reader delivers them:
`scan_reader` completes, with the identity of the whole artifact, exactly when
`scan_bytes` does and the bytes are fewer than the limit; both then report the
same identity. Where `scan_bytes` completes on bytes of exactly the limit,
`scan_reader` has not seen the end and says so. -/
theorem scanReader_complete_iff (sha256 : Bytes → String) (scanner : ArtifactScanner)
    (input : Bytes) {ρ : Type} (R : Reader ρ) (reader : ρ) (h : Delivers R reader input)
    (hlen : input.length ≤ scanner.limits.maxInputBytes) :
    ∃ bytes stream, scanBytes sha256 scanner input () = .ok bytes () ∧
      scanReader sha256 scanner R reader () = .ok stream () ∧
      (stream.completion = .complete ↔
        bytes.completion = .complete ∧ input.length < scanner.limits.maxInputBytes) ∧
      (stream.contentIdentity.isCompleteArtifact = true ↔ stream.completion = .complete) ∧
      (bytes.contentIdentity.isCompleteArtifact = true ↔ bytes.completion = .complete) ∧
      (stream.completion = .complete → stream.contentIdentity = bytes.contentIdentity) ∧
      (bytes.completion = .complete → input.length = scanner.limits.maxInputBytes →
        stream.completion = .inputLimitReached) := by
  obtain ⟨bytes, stream, stop, hbs, hstr, hcompl, hcompl', hid, hid',
    hsame⟩ := reports_completion sha256 scanner input R reader h
  have hiff : stream.completion = .complete ↔
      bytes.completion = .complete ∧ input.length < scanner.limits.maxInputBytes := by
    rw [hcompl, hcompl', completion_eq_complete, completion_eq_complete,
      bytesEnd_eq_complete, streamEnd_eq_complete]
    exact ⟨fun ⟨hnone, hlt⟩ => ⟨⟨hnone, hlen⟩, hlt⟩, fun ⟨⟨hnone, _⟩, hlt⟩ => ⟨hnone, hlt⟩⟩
  refine ⟨bytes, stream, hbs, hstr, hiff, hid', hid,
    fun hcomp => hsame (hiff.mp hcomp).1 hcomp, fun hcomp hlimit => ?_⟩
  rw [hcompl, completion_eq_complete] at hcomp
  have hend : ¬ streamEnd scanner input = .complete := by
    rw [streamEnd_eq_complete]
    omega
  rw [hcompl', hcomp.1]
  unfold streamEnd at hend ⊢
  split_ifs at hend ⊢
  · rfl
  · exact absurd rfl hend

/-- One byte, below the limit of eight: both scans are complete. -/
theorem scanReader_complete_iff_short : ∃ bytes stream,
    scanBytes (fun _ => "00") overlapScanner [0x41] () = .ok bytes () ∧
    scanReader (fun _ => "00") overlapScanner stutteringReader ([0x41], false) () = .ok stream () ∧
    bytes.completion = .complete ∧ stream.completion = .complete := by
  obtain ⟨bytes, stream, hbs, hstr, hiff, -⟩ := scanReader_complete_iff (fun _ => "00")
    overlapScanner [0x41] stutteringReader ([0x41], false) (stutteringReader_delivers _) (by decide)
  have hcomp : (match scanBytes (fun _ => "00") overlapScanner [0x41] () with
      | .ok report _ => some report.completion
      | _ => none) = some .complete := by decide +kernel
  rw [hbs, Option.some.injEq] at hcomp
  exact ⟨bytes, stream, hbs, hstr, hcomp, hiff.mpr ⟨hcomp, by decide⟩⟩

/-- Eight bytes without a match, exactly the limit: the slice scan is
complete, and the reader's scan is not. -/
theorem exact_limit_complete_only_as_bytes : ∃ bytes stream,
    Delivers stutteringReader (List.replicate 8 0, false) (List.replicate 8 0) ∧
    (List.replicate 8 (0 : UInt8)).length ≤ overlapScanner.limits.maxInputBytes ∧
    scanBytes (fun _ => "00") overlapScanner (List.replicate 8 0) () = .ok bytes () ∧
    scanReader (fun _ => "00") overlapScanner stutteringReader (List.replicate 8 0, false) () =
      .ok stream () ∧
    bytes.completion = .complete ∧ stream.completion = .inputLimitReached := by
  obtain ⟨bytes, stream, stop, hbs, hstr, hcompl, hcompl', -⟩ := reports_completion
    (fun _ => "00") overlapScanner (List.replicate 8 0) stutteringReader (List.replicate 8 0, false)
    (stutteringReader_delivers _)
  have hcomp : (match scanBytes (fun _ => "00") overlapScanner (List.replicate 8 0) () with
      | .ok report _ => some report.completion
      | _ => none) = some .complete := by decide +kernel
  rw [hbs, Option.some.injEq] at hcomp
  have hnone := (completion_eq_complete.mp (hcompl ▸ hcomp)).1
  refine ⟨bytes, stream, stutteringReader_delivers _, by decide, hbs, hstr, hcomp, ?_⟩
  rw [hcompl', hnone]
  decide

end Termivar
