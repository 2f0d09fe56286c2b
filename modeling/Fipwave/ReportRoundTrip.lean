import Fipwave.CandidateSelection

/-!
# Reports and the observations they carry

A report of an observation on its grid, tenths of a decibel and thousandths of
confidence, is decoded to the same observation. Two values do not come back:
a signal of -200 dB, whose word stands for no signal, and a candidate whose
index takes more than one byte.
-/

namespace Fipwave.ReportRoundTrip

open ByteWords ScriptIntegers ThrowingMethod AcousticState AcousticNegotiation AcousticLink
  CandidateSelection

/-- A probe of a session: its candidate is one of the session's, under its index. -/
structure ProbeOf (options : AcousticSessionOptions) (probe : AcousticProbe) : Prop where
  /-- The candidate stands at the index. -/
  candidate : options.candidates[probe.candidateIndex]? = some probe.candidate
  /-- The probe is one of those of its candidate. -/
  probeIndex : probe.probeIndex < options.calibration.probesPerDirection

/-- The observation without telling unclipped from unknown. -/
def clippingKnown (observation : AcousticProbeObservation) : AcousticProbeObservation :=
  { observation with clipping := if observation.clipping = some true then some true else none }

/-- The observation stands on the grid of a report. -/
structure OnGrid (observation : AcousticProbeObservation) : Prop where
  /-- The signal is a number of tenths. -/
  signal : ∀ signal ∈ observation.signalDb, ∃ tenths : ℤ, signal = tenths / 10
  /-- The confidence is a number of thousandths. -/
  confidence : ∃ thousandths : ℤ, observation.confidence = thousandths / 1000

/-- An integer is rounded to itself. -/
theorem roundNumber_intCast (value : ℤ) : roundNumber value = value := by
  have hhalf : ⌊(1 / 2 : ℚ)⌋ = 0 := by norm_num
  rw [roundNumber, Int.floor_intCast_add, hhalf, Int.add_zero]

/-- On its grid an observation is reported as it is, unless its signal is the lowest. -/
theorem asReported_of_onGrid {observation : AcousticProbeObservation} (h : OnGrid observation)
    (hsignal : observation.signalDb ≠ some (-200)) :
    asReported observation = clippingKnown observation := by
  obtain ⟨thousandths, hconfidence⟩ := h.confidence
  have hreported : (roundNumber (observation.confidence * 1000) : ℚ) / 1000 =
      observation.confidence := by
    have hproduct : observation.confidence * 1000 = thousandths := by
      rw [hconfidence]
      ring
    rw [hproduct, roundNumber_intCast, hconfidence]
  unfold asReported clippingKnown
  rw [hreported]
  congr 1
  cases hvalue : observation.signalDb with
  | none => rfl
  | some signal =>
    obtain ⟨tenths, htenths⟩ := h.signal signal hvalue
    have hproduct : signal * 10 = tenths := by
      rw [htenths]
      ring
    have hlowest : tenths ≠ -2000 := by
      rintro rfl
      apply hsignal
      rw [hvalue, htenths]
      norm_num
    rw [Option.bind_some, hproduct, roundNumber_intCast, if_neg hlowest, htenths]

/-- The lowest signal is not reported. -/
theorem asReported_lowest {observation : AcousticProbeObservation}
    (h : observation.signalDb = some (-200)) : (asReported observation).signalDb = none := by
  have hlowest : roundNumber (-200 * 10) = -2000 := by
    have hcast : (-200 * 10 : ℚ) = ((-2000 : ℤ) : ℚ) := by norm_num
    rw [hcast, roundNumber_intCast]
  unfold asReported
  rw [h]
  simp only [Option.bind_some, hlowest, if_true]

/-- A report is decoded to its probe and observation exactly if the index of
the candidate fits a byte and the signal is not the lowest one. -/
theorem decodeReport_eq_iff (options : AdmittedOptions) {probe : AcousticProbe}
    {observation : AcousticProbeObservation}
    (hprobe : ProbeOf options.toAcousticSessionOptions probe)
    (haccepted : normalizeObservation observation = .ok observation) (hgrid : OnGrid observation) :
    decodeReport options.toAcousticSessionOptions (encodeReport probe observation) =
        .ok (probe, clippingKnown observation) ↔
      probe.candidateIndex < 256 ∧ observation.signalDb ≠ some (-200) := by
  have hindex : probe.candidateIndex < options.candidates.length :=
    (List.getElem?_eq_some_iff.mp hprobe.candidate).1
  have hwrapped : probe.candidateIndex % 256 < options.candidates.length :=
    (Nat.mod_le probe.candidateIndex 256).trans_lt hindex
  have hfew := options.probes_bounds
  have hordinal := hprobe.probeIndex
  have hdecoded := decodeReport_encodeReport options.toAcousticSessionOptions
    (List.getElem?_eq_getElem hwrapped) hordinal (by omega) haccepted
  rw [hdecoded]
  constructor
  · intro hsame
    obtain ⟨hback, hobservation⟩ := Prod.mk.inj (Except.ok.inj hsame)
    have hbyte : probe.candidateIndex % 256 = probe.candidateIndex :=
      congrArg AcousticProbe.candidateIndex hback
    refine ⟨by omega, fun hlowest => ?_⟩
    have hsignal : (asReported observation).signalDb = (clippingKnown observation).signalDb :=
      congrArg AcousticProbeObservation.signalDb hobservation
    rw [asReported_lowest hlowest, clippingKnown, hlowest] at hsignal
    cases hsignal
  · rintro ⟨hbyte, hsignal⟩
    have hmod : probe.candidateIndex % 256 = probe.candidateIndex := Nat.mod_eq_of_lt hbyte
    have hcandidate : options.candidates[probe.candidateIndex % 256] = probe.candidate := by
      have hget := List.getElem?_eq_getElem hwrapped
      simp only [hmod] at hget ⊢
      rw [hprobe.candidate] at hget
      exact (Option.some.inj hget).symm
    rw [hcandidate, hmod, asReported_of_onGrid hgrid hsignal]

/-- The bench probe. -/
def benchProbe : AcousticProbe := ⟨.aToB, 0, 0, benchCandidate⟩

/-- A bench observation with a signal. -/
def heard (signal : ℚ) : AcousticProbeObservation :=
  { benchObservation 1 with signalDb := some signal }

/-- A signal in whole tenths is on the grid. -/
theorem heard_onGrid {signal : ℚ} (tenths : ℤ) (h : signal = tenths / 10) :
    OnGrid (heard signal) := by
  refine ⟨?_, 1000, ?_⟩
  · rintro other ⟨⟩
    exact ⟨tenths, h⟩
  · change (1 : ℚ) = _
    norm_num

/-- The observation below is read back from its report. -/
theorem decodeReport_heard :
    decodeReport (benchOptions .a) (encodeReport benchProbe (heard (-3 / 2))) =
      .ok (benchProbe, clippingKnown (heard (-3 / 2))) :=
  (decodeReport_eq_iff ⟨benchOptions .a, benchOptions_admitted .a⟩ ⟨rfl, by decide⟩
    (by decide +kernel) (heard_onGrid (-15) (by norm_num))).mpr ⟨by decide, by decide +kernel⟩

/-- A report of the lowest signal says that there is none. -/
theorem not_decodeReport_eq : ¬∀ (options : AdmittedOptions) (probe : AcousticProbe)
    (observation : AcousticProbeObservation), ProbeOf options.toAcousticSessionOptions probe →
    normalizeObservation observation = .ok observation → OnGrid observation →
    decodeReport options.toAcousticSessionOptions (encodeReport probe observation) =
      .ok (probe, clippingKnown observation) := by
  intro h
  have hsame := h ⟨benchOptions .a, benchOptions_admitted .a⟩ benchProbe (heard (-200))
    ⟨rfl, by decide⟩ (by decide +kernel) (heard_onGrid (-2000) (by norm_num))
  revert hsame
  decide +kernel

end Fipwave.ReportRoundTrip
