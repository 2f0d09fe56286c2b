import Fipwave.AcousticLink
import Fipwave.StableChoice

/-!
# Selecting a candidate at both ends

The end that receives the probes of a direction selects from its own
observations; the end that sent them selects from the reports, where signal
and confidence are rounded. Both rank by the same comparator with a stable
sort, so they agree unless the candidate ranked first is safe for one of them
only: its confidence is below one half and rounds up to it, or its index does
not fit the byte of a report.
-/

namespace Fipwave.CandidateSelection

open ByteWords ScriptIntegers ThrowingMethod AcousticProtocol SettingsCommitment AcousticHandshake
  AcousticState AcousticMethods AcousticNegotiation AcousticLink StableChoice

section Reports

/-- An observation as its report carries it. -/
def asReported (observation : AcousticProbeObservation) : AcousticProbeObservation :=
  { observation with
    clipping := if observation.clipping = some true then some true else none
    signalDb := observation.signalDb.bind (fun signal =>
      if roundNumber (signal * 10) = -2000 then none
      else some ((roundNumber (signal * 10) : ℚ) / 10))
    confidence := (roundNumber (observation.confidence * 1000) : ℚ) / 1000 }

/-- The flags byte of a report gives every flag back. -/
theorem reportFlags_bits (received bytePerfect corrupt missing duplicate discontinuity clipping :
    Bool) :
    let flags := flagBit received 1 ||| flagBit bytePerfect 2 ||| flagBit corrupt 4 |||
      flagBit missing 8 ||| flagBit duplicate 16 ||| flagBit discontinuity 32 ||| flagBit clipping 64
    flags < 128 ∧ hasFlag flags 1 = received ∧ hasFlag flags 2 = bytePerfect ∧
      hasFlag flags 4 = corrupt ∧ hasFlag flags 8 = missing ∧ hasFlag flags 16 = duplicate ∧
      hasFlag flags 32 = discontinuity ∧ hasFlag flags 64 = clipping := by
  revert received bytePerfect corrupt missing duplicate discontinuity clipping
  decide

/-- An observation that is accepted lies within the bounds of the report. -/
theorem normalizeObservation_ok {value accepted : AcousticProbeObservation}
    (h : normalizeObservation value = .ok accepted) :
    accepted = value ∧ (∀ latency, value.latencyMs = some latency → latency ≤ 65534) ∧
      (∀ signal, value.signalDb = some signal → -200 ≤ signal ∧ signal ≤ 0) ∧
      0 ≤ value.confidence ∧ value.confidence ≤ 1 := by
  unfold normalizeObservation at h
  split at h
  · cases h
  · next hvalid =>
    simp only [not_or, not_lt] at hvalid
    obtain ⟨hlatency, hsignal, hlow, hhigh⟩ := hvalid
    refine ⟨(Except.ok.inj h).symm, ?_, ?_, hlow, hhigh⟩
    · intro latency hlat
      simpa [hlat, validInteger] using hlatency
    · intro signal hsig
      simpa [hsig, not_or] using hsignal

/-- An observation within its bounds is accepted as it is. -/
theorem normalizeObservation_of_bounds {value : AcousticProbeObservation}
    (hlatency : ∀ latency, value.latencyMs = some latency → latency ≤ 65534)
    (hsignal : ∀ signal, value.signalDb = some signal → -200 ≤ signal ∧ signal ≤ 0)
    (hlow : 0 ≤ value.confidence) (hhigh : value.confidence ≤ 1) :
    normalizeObservation value = .ok value := by
  unfold normalizeObservation
  rw [if_neg]
  simp only [not_or, not_lt]
  refine ⟨?_, ?_, hlow, hhigh⟩
  · cases hlat : value.latencyMs with
    | none => simp
    | some latency => simpa [validInteger] using hlatency latency hlat
  · cases hsig : value.signalDb with
    | none => simp
    | some signal => simpa [not_or] using hsignal signal hsig

/-- Rounding keeps integer bounds. -/
theorem roundNumber_bounds {value : ℚ} {low high : ℤ} (hlow : (low : ℚ) ≤ value)
    (hhigh : value ≤ high) : low ≤ roundNumber value ∧ roundNumber value ≤ high := by
  unfold roundNumber
  constructor
  · rw [Int.le_floor]
    linarith
  · have hlt : ⌊value + 1 / 2⌋ < high + 1 := by
      rw [Int.floor_lt]
      push_cast
      linarith
    omega

/-- A number of sixteen bits with a sign is read back from its word. -/
theorem int16Of_int16Word {value : ℤ} (hlow : -32768 ≤ value) (hhigh : value < 32768) :
    int16Of (int16Word value) = value := by
  unfold int16Of int16Word
  split <;> omega

theorem int16Word_lt (value : ℤ) : int16Word value < 65536 := by
  unfold int16Word
  omega

/-- The number a report carries for the signal. -/
def signalTenths (observation : AcousticProbeObservation) : ℤ :=
  match observation.signalDb with
  | none => -2000
  | some signal => roundNumber (signal * 10)

/-- The fields of a report body are read back where the encoder puts them. -/
theorem wordAt_encodeReport (probe : AcousticProbe) (observation : AcousticProbeObservation) :
    let body := encodeReport probe observation
    body.length = 10 ∧ wordAt body 0 1 = directionByte probe.direction ∧
      wordAt body 1 1 = probe.candidateIndex % 256 ∧ wordAt body 2 1 = probe.probeIndex % 256 ∧
      wordAt body 3 1 = reportFlags observation % 256 ∧
      wordAt body 4 2 = observation.latencyMs.getD 0xffff % 65536 ∧
      wordAt body 6 2 = int16Word (signalTenths observation) % 65536 ∧
      wordAt body 8 2 = (roundNumber (observation.confidence * 1000)).toNat % 65536 := by
  have htwo : ∀ value, readWord (writeWord 2 value) = value % 65536 := fun value => by
    rw [readWord_writeWord]
    rfl
  have hdirection : directionByte probe.direction % 256 = directionByte probe.direction := by
    cases probe.direction <;> rfl
  refine ⟨by simp [encodeReport], ?_, ?_, ?_, ?_, ?_, ?_, ?_⟩
  · simp [wordAt, sliceAt, encodeReport, readWord, hdirection]
  · simp [wordAt, sliceAt, encodeReport, readWord]
  · simp [wordAt, sliceAt, encodeReport, readWord]
  · simp [wordAt, sliceAt, encodeReport, readWord]
  · rw [← htwo]
    rfl
  · rw [← htwo]
    rfl
  · rw [← htwo]
    rfl

/-- A signal in range is a number of tenths in range. -/
theorem signalTenths_bounds {observation : AcousticProbeObservation}
    (h : ∀ signal, observation.signalDb = some signal → -200 ≤ signal ∧ signal ≤ 0) :
    -2000 ≤ signalTenths observation ∧ signalTenths observation ≤ 0 := by
  unfold signalTenths
  split
  · simp
  · next signal hsignal =>
    obtain ⟨hlow, hhigh⟩ := h signal hsignal
    apply roundNumber_bounds <;> push_cast <;> linarith

/-- The observation of the report of an accepted observation. -/
theorem reportObservation_encodeReport (probe : AcousticProbe)
    {observation : AcousticProbeObservation}
    (haccepted : normalizeObservation observation = .ok observation) :
    reportObservation (encodeReport probe observation) = asReported observation := by
  obtain ⟨-, -, -, -, hflags, hlatency, hsignal, hconfidence⟩ :=
    wordAt_encodeReport probe observation
  obtain ⟨-, hlatencyBound, hsignalBound, hlow, hhigh⟩ := normalizeObservation_ok haccepted
  obtain ⟨hsmall, hbits⟩ := reportFlags_bits observation.received observation.bytePerfect
    observation.corrupt observation.missing observation.duplicate observation.discontinuity
    (observation.clipping = some true)
  change reportFlags observation < 128 at hsmall
  have htenths := signalTenths_bounds hsignalBound
  have hword := int16Word_lt (signalTenths observation)
  have hback : int16Of (int16Word (signalTenths observation)) = signalTenths observation :=
    int16Of_int16Word (by omega) (by omega)
  have hround : 0 ≤ roundNumber (observation.confidence * 1000) ∧
      roundNumber (observation.confidence * 1000) ≤ 1000 := by
    apply roundNumber_bounds <;> push_cast <;> linarith
  rw [Nat.mod_eq_of_lt (by omega)] at hflags hsignal hconfidence
  have hnat : ((roundNumber (observation.confidence * 1000)).toNat : ℚ) =
      roundNumber (observation.confidence * 1000) := by
    exact_mod_cast Int.toNat_of_nonneg hround.1
  obtain ⟨hreceived, hperfect, hcorrupt, hmissing, hduplicate, hdiscontinuity, hclipping⟩ := hbits
  unfold reportObservation asReported
  simp only [hflags, hlatency, hsignal, hconfidence, hback, hnat]
  congr 1
  · cases hlat : observation.latencyMs with
    | none => rfl
    | some latency =>
      have hbound := hlatencyBound latency hlat
      have hmod : latency % 65536 = latency := Nat.mod_eq_of_lt (by omega)
      rw [Option.getD_some, hmod, if_neg (by omega)]
  · unfold signalTenths
    cases observation.signalDb with
    | none => rfl
    | some signal => rfl
  · have hflag : hasFlag (reportFlags observation) 64 =
        decide (observation.clipping = some true) := hclipping
    rw [hflag]
    simp

/-- What a report carries of an accepted observation is accepted. -/
theorem normalizeObservation_asReported {observation : AcousticProbeObservation}
    (haccepted : normalizeObservation observation = .ok observation) :
    normalizeObservation (asReported observation) = .ok (asReported observation) := by
  obtain ⟨-, hlatency, hsignal, hlow, hhigh⟩ := normalizeObservation_ok haccepted
  have hround : 0 ≤ roundNumber (observation.confidence * 1000) ∧
      roundNumber (observation.confidence * 1000) ≤ 1000 := by
    apply roundNumber_bounds <;> push_cast <;> linarith
  have hround' : (0 : ℚ) ≤ roundNumber (observation.confidence * 1000) ∧
      (roundNumber (observation.confidence * 1000) : ℚ) ≤ 1000 := by exact_mod_cast hround
  apply normalizeObservation_of_bounds
  · exact hlatency
  · intro signal hsome
    simp only [asReported, Option.bind_eq_some_iff, Option.ite_none_left_eq_some,
      Option.some.injEq] at hsome
    obtain ⟨raw, hraw, -, rfl⟩ := hsome
    obtain ⟨hrawLow, hrawHigh⟩ := hsignal raw hraw
    have htenths : -2000 ≤ roundNumber (raw * 10) ∧ roundNumber (raw * 10) ≤ 0 := by
      apply roundNumber_bounds <;> push_cast <;> linarith
    have htenths' : (-2000 : ℚ) ≤ roundNumber (raw * 10) ∧ (roundNumber (raw * 10) : ℚ) ≤ 0 := by
      exact_mod_cast htenths
    constructor <;> linarith
  · simp only [asReported]
    linarith
  · simp only [asReported]
    linarith

/-- A report of an accepted observation decodes to the rounded observation, with the
index of the candidate in one byte. -/
theorem decodeReport_encodeReport (options : AcousticSessionOptions) {probe : AcousticProbe}
    {observation : AcousticProbeObservation} {candidate : AcousticCandidate}
    (hcandidate : options.candidates[probe.candidateIndex % 256]? = some candidate)
    (hprobe : probe.probeIndex < options.calibration.probesPerDirection)
    (hbyte : probe.probeIndex < 256)
    (haccepted : normalizeObservation observation = .ok observation) :
    decodeReport options (encodeReport probe observation) =
      .ok (⟨probe.direction, probe.candidateIndex % 256, probe.probeIndex, candidate⟩,
        asReported observation) := by
  obtain ⟨hlength, hdirection, hindex, hordinal, hflags, -⟩ :=
    wordAt_encodeReport probe observation
  obtain ⟨hsmall, -⟩ := reportFlags_bits observation.received observation.bytePerfect
    observation.corrupt observation.missing observation.duplicate observation.discontinuity
    (observation.clipping = some true)
  change reportFlags observation < 128 at hsmall
  rw [Nat.mod_eq_of_lt (by omega)] at hflags hordinal
  have hparsed : parseDirection (directionByte probe.direction) = .ok probe.direction := by
    cases probe.direction <;> rfl
  have hgeometry : ¬(reportFlags observation ≥ 128 ∨
      probe.probeIndex ≥ options.calibration.probesPerDirection) := by omega
  unfold decodeReport
  rw [if_neg (by simp [hlength])]
  simp only [hdirection, hindex, hordinal, hflags, hparsed, ok_bind, if_neg hgeometry, hcandidate,
    reportObservation_encodeReport probe haccepted, normalizeObservation_asReported haccepted]
  rfl

end Reports

section Ledgers

variable (options : AcousticSessionOptions) (direction : Direction)
  (observations : ℕ → AcousticProbeObservation)

/-- The ledger of a fully probed direction at the end that measured it. -/
def measuredLedger : List AcousticProbeLedgerEntry :=
  (List.range (totalProbes options)).filterMap (fun ordinal => do
    let probe ← (probeFor options direction ordinal).toOption
    return ⟨probe, observations ordinal⟩)

/-- The ledger of a fully probed direction at the end that was sent the reports. -/
def reportedLedger : List AcousticProbeLedgerEntry :=
  (List.range (totalProbes options)).filterMap (fun ordinal => do
    let probe ← (probeFor options direction ordinal).toOption
    let report ← (decodeReport options (encodeReport probe (observations ordinal))).toOption
    return ⟨report.1, report.2⟩)

variable {options direction observations}

/-- Choosing items and then taking their values is one filter. -/
theorem filterMap_eq_map_filter {α β : Type} {items : List α} {f : α → Option β} {p : α → Bool}
    {g : α → β} (h : ∀ item ∈ items, f item = if p item then some (g item) else none) :
    items.filterMap f = (items.filter p).map g := by
  induction items with
  | nil => rfl
  | cons item items ih =>
    have hitem := h item List.mem_cons_self
    have hrest := ih (fun other hmem => h other (List.mem_cons_of_mem _ hmem))
    by_cases hp : p item
    · simp [hitem, hp, hrest]
    · simp [hitem, hp, hrest]

/-- The probe of an ordinal within range. -/
theorem probeFor_ok (direction : Direction) {ordinal : ℕ} (h : ordinal < totalProbes options) :
    ∃ candidate, options.candidates[ordinal / options.calibration.probesPerDirection]? =
        some candidate ∧
      probeFor options direction ordinal =
        .ok ⟨direction, ordinal / options.calibration.probesPerDirection,
          ordinal % options.calibration.probesPerDirection, candidate⟩ := by
  have hindex : ordinal / options.calibration.probesPerDirection < options.candidates.length :=
    Nat.div_lt_of_lt_mul (by rwa [Nat.mul_comm])
  refine ⟨options.candidates[ordinal / options.calibration.probesPerDirection],
    List.getElem?_eq_getElem hindex, ?_⟩
  unfold probeFor
  dsimp only
  rw [List.getElem?_eq_getElem hindex]

/-- Ordinals of a candidate's probes. -/
def ordinalsOf (options : AcousticSessionOptions) (candidateIndex : ℕ) : List ℕ :=
  (List.range options.calibration.probesPerDirection).map
    (fun probeIndex => candidateIndex * options.calibration.probesPerDirection + probeIndex)

/-- Observations of a candidate in the ledger of the end that measured. -/
theorem observationsOf_measuredLedger (candidateIndex : ℕ) :
    observationsOf (measuredLedger options direction observations) candidateIndex =
      ((List.range (totalProbes options)).filter (fun ordinal =>
        ordinal / options.calibration.probesPerDirection = candidateIndex)).map observations := by
  unfold observationsOf measuredLedger
  rw [List.filter_filterMap, List.map_filterMap]
  apply filterMap_eq_map_filter
  intro ordinal hordinal
  obtain ⟨candidate, -, hprobe⟩ := probeFor_ok direction (List.mem_range.mp hordinal)
  by_cases hindex : ordinal / options.calibration.probesPerDirection = candidateIndex
  · simp [hprobe, Except.toOption, hindex]
  · simp [hprobe, Except.toOption, hindex]

/-- Every probe of accepted observations is reported. -/
theorem report_ok (direction : Direction)
    (hprobes : 1 ≤ options.calibration.probesPerDirection ∧
      options.calibration.probesPerDirection ≤ 4)
    (haccepted : ∀ ordinal < totalProbes options,
      normalizeObservation (observations ordinal) = .ok (observations ordinal)) {ordinal : ℕ}
    (h : ordinal < totalProbes options) :
    ∃ probe reported, probeFor options direction ordinal = .ok probe ∧
      decodeReport options (encodeReport probe (observations ordinal)) =
        .ok (reported, asReported (observations ordinal)) ∧
      reported.candidateIndex = ordinal / options.calibration.probesPerDirection % 256 := by
  obtain ⟨candidate, hcandidate, hprobe⟩ := probeFor_ok direction h
  have hindex : ordinal / options.calibration.probesPerDirection < options.candidates.length := by
    by_contra hout
    rw [List.getElem?_eq_none (by omega)] at hcandidate
    cases hcandidate
  have hbyte : ordinal / options.calibration.probesPerDirection % 256 < options.candidates.length :=
    lt_of_le_of_lt (Nat.mod_le _ _) hindex
  have hordinal := Nat.mod_lt ordinal (show options.calibration.probesPerDirection > 0 by omega)
  exact ⟨_, _, hprobe, decodeReport_encodeReport options (List.getElem?_eq_getElem hbyte) hordinal
    (by dsimp only; omega) (haccepted ordinal h), rfl⟩

/-- Observations of a candidate in the ledger of the end that was sent the reports. -/
theorem observationsOf_reportedLedger (candidateIndex : ℕ)
    (hprobes : 1 ≤ options.calibration.probesPerDirection ∧
      options.calibration.probesPerDirection ≤ 4)
    (haccepted : ∀ ordinal < totalProbes options,
      normalizeObservation (observations ordinal) = .ok (observations ordinal)) :
    observationsOf (reportedLedger options direction observations) candidateIndex =
      ((List.range (totalProbes options)).filter (fun ordinal =>
        ordinal / options.calibration.probesPerDirection % 256 = candidateIndex)).map
        (fun ordinal => asReported (observations ordinal)) := by
  unfold observationsOf reportedLedger
  rw [List.filter_filterMap, List.map_filterMap]
  apply filterMap_eq_map_filter
  intro ordinal hordinal
  obtain ⟨probe, reported, hprobe, hreport, hindex⟩ :=
    report_ok direction hprobes haccepted (List.mem_range.mp hordinal)
  by_cases hmatch : ordinal / options.calibration.probesPerDirection % 256 = candidateIndex
  · simp [hprobe, hreport, Except.toOption, hindex, hmatch]
  · simp [hprobe, hreport, Except.toOption, hindex, hmatch]

/-- The ordinals of one candidate among all of them. -/
theorem filter_ordinals (hprobes : 1 ≤ options.calibration.probesPerDirection) {candidateIndex : ℕ}
    (h : candidateIndex < options.candidates.length) :
    (List.range (totalProbes options)).filter (fun ordinal =>
      ordinal / options.calibration.probesPerDirection = candidateIndex) =
      ordinalsOf options candidateIndex := by
  unfold ordinalsOf totalProbes
  generalize options.calibration.probesPerDirection = width at hprobes ⊢
  obtain ⟨rest, hrest⟩ : ∃ rest, options.candidates.length = candidateIndex + 1 + rest :=
    ⟨options.candidates.length - (candidateIndex + 1), by omega⟩
  have hsplit : options.candidates.length * width =
      candidateIndex * width + width + rest * width := by
    rw [hrest]
    ring
  rw [hsplit, List.range_add, List.range_add, List.filter_append, List.filter_append]
  have hbefore : (List.range (candidateIndex * width)).filter
      (fun ordinal => ordinal / width = candidateIndex) = [] := by
    rw [List.filter_eq_nil_iff]
    intro ordinal hordinal
    have hlt := Nat.div_lt_of_lt_mul (Nat.mul_comm _ _ ▸ List.mem_range.mp hordinal)
    simpa using by omega
  have hwithin : ((List.range width).map (candidateIndex * width + ·)).filter
      (fun ordinal => ordinal / width = candidateIndex) =
      (List.range width).map (candidateIndex * width + ·) := by
    rw [List.filter_eq_self]
    intro ordinal hordinal
    obtain ⟨offset, hoffset, rfl⟩ := List.mem_map.mp hordinal
    have hlt := List.mem_range.mp hoffset
    rw [Nat.mul_comm, Nat.mul_add_div (by omega), Nat.div_eq_of_lt hlt]
    simp
  have hafter : ((List.range (rest * width)).map (candidateIndex * width + width + ·)).filter
      (fun ordinal => ordinal / width = candidateIndex) = [] := by
    rw [List.filter_eq_nil_iff]
    intro ordinal hordinal
    obtain ⟨offset, -, rfl⟩ := List.mem_map.mp hordinal
    have hge : candidateIndex + 1 ≤ (candidateIndex * width + width + offset) / width := by
      rw [Nat.le_div_iff_mul_le (by omega)]
      have : (candidateIndex + 1) * width = candidateIndex * width + width := by ring
      omega
    simpa using by omega
  rw [hbefore, hwithin, hafter]
  simp

/-- Two disjoint parts of a selection do not outnumber it. -/
theorem countP_add_le {α : Type} {p q r : α → Bool} (hp : ∀ x, p x → r x) (hq : ∀ x, q x → r x)
    (hdisjoint : ∀ x, ¬(p x ∧ q x)) (items : List α) :
    items.countP p + items.countP q ≤ items.countP r := by
  induction items with
  | nil => simp
  | cons x items ih =>
    simp only [List.countP_cons]
    have hboth := hdisjoint x
    by_cases hpx : p x
    · have hqx : q x = false := by simpa [hpx] using hboth
      simp only [hpx, hqx, hp x hpx]
      simp only [if_true, Bool.false_eq_true, if_false]
      omega
    · by_cases hqx : q x
      · simp only [hpx, hqx, hq x hqx]
        simp only [if_true, Bool.false_eq_true, if_false]
        omega
      · simp only [hpx, hqx]
        simp only [Bool.false_eq_true, if_false]
        omega

/-- The byte of a report names one candidate only. -/
def Unambiguous (options : AcousticSessionOptions) (candidateIndex : ℕ) : Prop :=
  candidateIndex < 256 ∧ options.candidates.length ≤ candidateIndex + 256

/-- The ordinals reported under one index byte: those of the candidate, or more or fewer
than it has. -/
theorem filter_reported_ordinals (hprobes : 1 ≤ options.calibration.probesPerDirection)
    {candidateIndex : ℕ} (h : candidateIndex < options.candidates.length) :
    let reported := (List.range (totalProbes options)).filter (fun ordinal =>
      ordinal / options.calibration.probesPerDirection % 256 = candidateIndex)
    (Unambiguous options candidateIndex → reported = ordinalsOf options candidateIndex) ∧
      (¬Unambiguous options candidateIndex →
        reported.length ≠ options.calibration.probesPerDirection) := by
  have hindex : ∀ ordinal ∈ List.range (totalProbes options),
      ordinal / options.calibration.probesPerDirection < options.candidates.length := by
    intro ordinal hordinal
    exact Nat.div_lt_of_lt_mul (by rw [Nat.mul_comm]; exact List.mem_range.mp hordinal)
  constructor
  · rintro ⟨hbyte, hfew⟩
    rw [← filter_ordinals hprobes h]
    apply List.filter_congr
    intro ordinal hordinal
    have hlt := hindex ordinal hordinal
    generalize ordinal / options.calibration.probesPerDirection = index at hlt ⊢
    rw [decide_eq_decide]
    omega
  · intro hmany
    by_cases hbyte : candidateIndex < 256
    · have hother : candidateIndex + 256 < options.candidates.length := by
        by_contra hfew
        exact hmany ⟨hbyte, by omega⟩
      have hfirst := congrArg List.length (filter_ordinals hprobes h)
      have hsecond := congrArg List.length (filter_ordinals hprobes hother)
      rw [← List.countP_eq_length_filter] at hfirst hsecond
      simp only [ordinalsOf, List.length_map, List.length_range] at hfirst hsecond
      have hcount := countP_add_le
        (p := fun ordinal =>
          decide (ordinal / options.calibration.probesPerDirection = candidateIndex))
        (q := fun ordinal =>
          decide (ordinal / options.calibration.probesPerDirection = candidateIndex + 256))
        (r := fun ordinal =>
          decide (ordinal / options.calibration.probesPerDirection % 256 = candidateIndex))
        (fun ordinal hp => by simp only [decide_eq_true_eq] at hp ⊢; omega)
        (fun ordinal hq => by simp only [decide_eq_true_eq] at hq ⊢; omega)
        (fun ordinal hpq => by simp only [decide_eq_true_eq] at hpq; omega)
        (List.range (totalProbes options))
      rw [← List.countP_eq_length_filter]
      omega
    · have hnone : (List.range (totalProbes options)).filter (fun ordinal =>
          ordinal / options.calibration.probesPerDirection % 256 = candidateIndex) = [] := by
        rw [List.filter_eq_nil_iff]
        intro ordinal _
        have hmod := Nat.mod_lt (ordinal / options.calibration.probesPerDirection)
          (show 256 > 0 by omega)
        simpa using by omega
      rw [hnone, List.length_nil]
      omega

end Ledgers

section Ranking

variable (options : AcousticSessionOptions) (observations : ℕ → AcousticProbeObservation)

/-- Observations of one candidate. -/
def ownObservations (candidateIndex : ℕ) : List AcousticProbeObservation :=
  (ordinalsOf options candidateIndex).map observations

/-- Every probe of the candidate was good for the end that measured it. -/
def Safe (candidateIndex : ℕ) : Prop :=
  ∀ observation ∈ ownObservations options observations candidateIndex,
    goodObservation observation = true

/-- The observation speaks for its candidate once its confidence is rounded to
thousandths. -/
def goodWhenReported (observation : AcousticProbeObservation) : Bool :=
  observation.received && observation.bytePerfect && !observation.corrupt &&
    !observation.missing && observation.clipping ≠ some true &&
    observation.confidence ≥ 4995 / 10000

/-- Every probe of the candidate is good for the end that is sent the reports. -/
def SafeWhenReported (candidateIndex : ℕ) : Prop :=
  Unambiguous options candidateIndex ∧
    ∀ observation ∈ ownObservations options observations candidateIndex,
      goodWhenReported observation = true

/-- A candidate with its place, as both ends rank it once they take it for safe. -/
def ranking (entry : AcousticCandidate × ℕ) : Ranked :=
  ⟨entry.1, true, meanLatency (ownObservations options observations entry.2)⟩

/-- The comparator does not put the second candidate first. -/
def Order (left right : AcousticCandidate × ℕ) : Prop :=
  compareRanked options (ranking options observations left)
    (ranking options observations right) ≤ 0

instance : DecidableRel (Order options observations) :=
  fun _ _ => inferInstanceAs (Decidable (compareRanked options _ _ ≤ 0))

/-- A listed candidate of which a property of its place holds. -/
def Listed (property : ℕ → Prop) (entry : AcousticCandidate × ℕ) : Prop :=
  entry ∈ options.candidates.zipIdx ∧ property entry.2

variable {options observations}

/-- Unknown latencies come last, and the others compare as numbers. -/
theorem consistent_latencyDifference {α : Type} (latency : α → Option ℚ) :
    Consistent (fun x y => latencyDifference (latency x) (latency y)) := by
  constructor
  · intro x y
    cases latency x <;> cases latency y <;> simp [latencyDifference]
  · intro x y z
    cases latency x <;> cases latency y <;> cases latency z <;> simp [latencyDifference]
    intro hxy hyz
    linarith

/-- With a consistent collation the comparator of the ranking is consistent. -/
theorem consistent_compareRanked
    (hlocale : Consistent (fun x y => (options.localeCompare x y : ℚ))) :
    Consistent (compareRanked options) := by
  have hname : Consistent (fun left right : Ranked =>
      (options.localeCompare left.candidate.id right.candidate.id : ℚ)) :=
    ⟨fun x y => hlocale.swap _ _, fun x y z => hlocale.trans _ _ _⟩
  have hpayload := consistent_sub (fun entry : Ranked => -(entry.candidate.payloadBytes : ℚ))
  have hgain := consistent_sub (fun entry : Ranked => entry.candidate.playbackGain)
  have hlatency := consistent_latencyDifference Ranked.latency
  have hall := hlatency.thenBy (hgain.thenBy (hpayload.thenBy hname))
  convert hall using 1
  funext left right
  unfold compareRanked
  have hsign : (right.candidate.payloadBytes : ℚ) - left.candidate.payloadBytes =
      -(left.candidate.payloadBytes : ℚ) - -(right.candidate.payloadBytes : ℚ) := by ring
  rw [hsign]
  rfl

/-- Listed candidates come by place. -/
theorem zipIdx_places (options : AcousticSessionOptions) (property : ℕ → Prop)
    [DecidablePred property] :
    (options.candidates.zipIdx.filter (fun entry => property entry.2)).Pairwise
      (fun x y => x.2 < y.2) := by
  apply List.Pairwise.filter
  have hindices : (options.candidates.zipIdx.map Prod.snd).Pairwise (· < ·) := by
    rw [List.zipIdx_map_snd]
    exact List.pairwise_lt_range'
  exact List.pairwise_map.mp hindices

/-- Candidates with a property of their index are the listed ones. -/
theorem listed_eq (options : AcousticSessionOptions) (property : ℕ → Prop)
    [DecidablePred property] :
    (· ∈ options.candidates.zipIdx.filter (fun entry => property entry.2)) =
      Listed options property := by
  funext entry
  simp [Listed]

/-- Some listed candidate ranks first, if there is one. -/
theorem exists_leads (hlocale : Consistent (fun x y => (options.localeCompare x y : ℚ)))
    (observations : ℕ → AcousticProbeObservation) {property : ℕ → Prop}
    {entry : AcousticCandidate × ℕ} (h : Listed options property entry) :
    ∃ first, Leads (Order options observations) Prod.snd (Listed options property) first := by
  classical
  have hconsistent := consistent_compareRanked hlocale
  rw [← listed_eq] at h ⊢
  obtain ⟨first, hleads, -⟩ := head_insertionSort (r := Order options observations)
    (fun x y => hconsistent.total _ _) (fun x y z => hconsistent.trans _ _ _)
    (zipIdx_places options property) (List.ne_nil_of_mem h)
  exact ⟨first, hleads⟩

/-- What `select` answers with, where safety and latency of the candidates are known. -/
theorem select_eq_some_iff
    (hlocale : Consistent (fun x y => (options.localeCompare x y : ℚ)))
    (observations : ℕ → AcousticProbeObservation) (entries : List AcousticProbeLedgerEntry)
    {safe : ℕ → Prop}
    (hsafe : ∀ index < options.candidates.length,
      (((observationsOf entries index).length = options.calibration.probesPerDirection ∧
        ∀ observation ∈ observationsOf entries index, goodObservation observation = true) ↔
          safe index))
    (hlatency : ∀ index < options.candidates.length, safe index →
      meanLatency (observationsOf entries index) =
        meanLatency (ownObservations options observations index))
    (candidate : AcousticCandidate) :
    select options entries = some candidate ↔
      ∃ index, Leads (Order options observations) Prod.snd (Listed options safe)
        (candidate, index) := by
  classical
  have hplace : ∀ entry ∈ options.candidates.zipIdx, entry.2 < options.candidates.length := by
    intro entry hentry
    have h := List.mem_zipIdx hentry
    omega
  have hconsistent := consistent_compareRanked hlocale
  have hranked : (options.candidates.zipIdx.map (fun entry =>
      rank options entries entry.1 entry.2)).filter (·.safe) =
      (options.candidates.zipIdx.filter (fun entry => safe entry.2)).map
        (ranking options observations) := by
    rw [List.filter_map]
    have hfilter : options.candidates.zipIdx.filter ((·.safe) ∘ fun entry =>
        rank options entries entry.1 entry.2) =
        options.candidates.zipIdx.filter (fun entry => safe entry.2) := by
      apply List.filter_congr
      intro entry hentry
      have h := hsafe entry.2 (hplace entry hentry)
      rw [Bool.eq_iff_iff]
      simpa [rank] using h
    rw [hfilter]
    apply List.map_congr_left
    intro entry hentry
    obtain ⟨hmem, hholds⟩ := List.mem_filter.mp hentry
    have hsafeEntry : safe entry.2 := by simpa using hholds
    have h := (hsafe entry.2 (hplace entry hmem)).mpr hsafeEntry
    have hmean := hlatency entry.2 (hplace entry hmem) hsafeEntry
    simp only [rank, ranking, Ranked.mk.injEq, hmean, Bool.and_eq_true, decide_eq_true_eq,
      List.all_eq_true, and_true, true_and]
    exact h
  have hhead := head_insertionSort_iff (r := Order options observations)
    (fun x y => hconsistent.total _ _) (fun x y z => hconsistent.trans _ _ _)
    (zipIdx_places options safe)
  have hmap := List.map_insertionSort (Order options observations)
    (fun left right => compareRanked options left right ≤ 0) (ranking options observations)
    (options.candidates.zipIdx.filter (fun entry => safe entry.2)) (fun _ _ _ _ => Iff.rfl)
  unfold select
  rw [hranked]
  dsimp only
  rw [← hmap, List.head?_map, Option.map_map, Option.map_eq_some_iff]
  have hset := listed_eq options safe
  constructor
  · rintro ⟨entry, hfirst, rfl⟩
    have hleads := (hhead entry).mp hfirst
    rw [hset] at hleads
    exact ⟨entry.2, hleads⟩
  · rintro ⟨index, hleads⟩
    rw [← hset] at hleads
    exact ⟨(candidate, index), (hhead _).mpr hleads, rfl⟩

/-- Which candidates the end that measured takes for safe. -/
theorem measuredLedger_safe_iff {direction : Direction}
    (hprobes : 1 ≤ options.calibration.probesPerDirection) {index : ℕ}
    (hindex : index < options.candidates.length) :
    ((observationsOf (measuredLedger options direction observations) index).length =
        options.calibration.probesPerDirection ∧
      ∀ observation ∈ observationsOf (measuredLedger options direction observations) index,
        goodObservation observation = true) ↔ Safe options observations index := by
  rw [observationsOf_measuredLedger, filter_ordinals hprobes hindex]
  simp [Safe, ownObservations, ordinalsOf]

/-- A rounded confidence reaches one half from 0.4995 on. -/
theorem goodObservation_asReported (observation : AcousticProbeObservation) :
    goodObservation (asReported observation) = goodWhenReported observation := by
  have hconfidence : (asReported observation).confidence ≥ 1 / 2 ↔
      observation.confidence ≥ 4995 / 10000 := by
    have hfloor : (500 : ℤ) ≤ roundNumber (observation.confidence * 1000) ↔
        (500 : ℚ) ≤ observation.confidence * 1000 + 1 / 2 := by
      rw [roundNumber, Int.le_floor]
      norm_num
    have hcast : (1 : ℚ) / 2 ≤ (roundNumber (observation.confidence * 1000) : ℚ) / 1000 ↔
        (500 : ℤ) ≤ roundNumber (observation.confidence * 1000) := by
      rw [le_div_iff₀ (by norm_num)]
      norm_num
      exact_mod_cast Iff.rfl
    change (1 : ℚ) / 2 ≤ (roundNumber (observation.confidence * 1000) : ℚ) / 1000 ↔ _
    rw [hcast, hfloor]
    constructor <;> intro h <;> linarith
  have hdecided : decide ((asReported observation).confidence ≥ 1 / 2) =
      decide (observation.confidence ≥ 4995 / 10000) := decide_eq_decide.mpr hconfidence
  unfold goodObservation goodWhenReported
  rw [hdecided]
  simp [asReported]

/-- A report keeps the latencies and with them their mean. -/
theorem meanLatency_asReported (observations : List AcousticProbeObservation) :
    meanLatency (observations.map asReported) = meanLatency observations := by
  unfold meanLatency
  rw [List.filterMap_map]
  rfl

section Reported

variable {direction : Direction}
  (hprobes : 1 ≤ options.calibration.probesPerDirection ∧
    options.calibration.probesPerDirection ≤ 4)
  (haccepted : ∀ ordinal < totalProbes options,
    normalizeObservation (observations ordinal) = .ok (observations ordinal))
include hprobes haccepted

/-- What is reported of a candidate its byte names alone. -/
theorem observationsOf_unambiguous {index : ℕ} (hindex : index < options.candidates.length)
    (h : Unambiguous options index) :
    observationsOf (reportedLedger options direction observations) index =
      (ownObservations options observations index).map asReported := by
  rw [observationsOf_reportedLedger index hprobes haccepted,
    (filter_reported_ordinals hprobes.1 hindex).1 h, ownObservations, List.map_map]
  rfl

/-- Which candidates the end that is sent the reports takes for safe. -/
theorem reportedLedger_safe_iff {index : ℕ} (hindex : index < options.candidates.length) :
    ((observationsOf (reportedLedger options direction observations) index).length =
        options.calibration.probesPerDirection ∧
      ∀ observation ∈ observationsOf (reportedLedger options direction observations) index,
        goodObservation observation = true) ↔ SafeWhenReported options observations index := by
  by_cases h : Unambiguous options index
  · rw [observationsOf_unambiguous hprobes haccepted hindex h]
    simp [SafeWhenReported, h, ownObservations, ordinalsOf, goodObservation_asReported]
  · have hlength := (filter_reported_ordinals hprobes.1 hindex).2 h
    rw [observationsOf_reportedLedger index hprobes haccepted, List.length_map]
    simp only [SafeWhenReported, h, false_and, iff_false]
    exact fun hsafe => hlength hsafe.1

end Reported

end Ranking

section Agreement

/-- The candidate of a direction once `completeDirection` is done. -/
def completed (options : AcousticSessionOptions) (direction : Direction) (s : AcousticSession) :
    Option AcousticCandidate :=
  match completeDirection options direction s with
  | .ok (_, t) => t.calibration.selected.get direction
  | .error fault => fault.state.calibration.selected.get direction

/-- Both ends of a direction that is fully probed and not yet selected for. -/
structure Probed (receiver sender : AcousticSessionOptions) (direction : Direction)
    (observations : ℕ → AcousticProbeObservation) (s t : AcousticSession) : Prop where
  /-- Both ends have the same candidates. -/
  candidates : sender.candidates = receiver.candidates
  /-- Both ends have the same calibration. -/
  calibration : sender.calibration = receiver.calibration
  /-- Both ends collate alike. -/
  collation : sender.localeCompare = receiver.localeCompare
  /-- The collation is consistent. -/
  consistent : Consistent (fun x y => (receiver.localeCompare x y : ℚ))
  /-- Every observation is accepted. -/
  accepted : ∀ ordinal < totalProbes receiver,
    normalizeObservation (observations ordinal) = .ok (observations ordinal)
  /-- The receiver of the probes has the observations. -/
  measured : ledgerOf direction s = measuredLedger receiver direction observations
  /-- The sender of the probes has their reports. -/
  reported : ledgerOf direction t = reportedLedger sender direction observations
  /-- Neither end has selected a candidate. -/
  unselected : s.calibration.selected.get direction = none ∧
    t.calibration.selected.get direction = none

/-- The candidate ranks first among those listed with a property. -/
def First (options : AcousticSessionOptions) (observations : ℕ → AcousticProbeObservation)
    (entries : AcousticCandidate × ℕ → Prop) : AcousticCandidate × ℕ → Prop :=
  Leads (Order options observations) Prod.snd entries

/-- Wherever the two ends differ about the candidate that ranks first among all that either
takes for safe, the one that does not takes a copy of it for its own first. -/
def FirstShared (options : AcousticSessionOptions)
    (observations : ℕ → AcousticProbeObservation) : Prop :=
  let measured := Listed options (Safe options observations)
  let reported := Listed options (SafeWhenReported options observations)
  ∀ first, First options observations (fun entry => measured entry ∨ reported entry) first →
    (¬reported first → ∃ copy, First options observations reported (first.1, copy)) ∧
      (¬measured first → ∃ copy, First options observations measured (first.1, copy))

/-- Sending a probe chooses no candidate. -/
theorem driveProbe_selected (options : AcousticSessionOptions) (direction : Direction)
    (s : AcousticSession) :
    (left (driveProbe options direction s)).calibration.selected = s.calibration.selected := by
  unfold driveProbe
  split
  · rfl
  · split
    · rfl
    · dsimp only
      split
      · rfl
      · unfold attempt
        split
        · refine left_bind (P := fun u : AcousticSession =>
            u.calibration.selected = s.calibration.selected) ?_ ?_
          · intro f hf
            rw [send_error options hf]
            rfl
          · intro u hu
            obtain ⟨id, -, -, rfl⟩ := send_ok options hu
            rfl
        · rfl

/-- A fully probed direction gets the candidate `select` answers with. -/
theorem completed_eq_select {options : AcousticSessionOptions} {direction : Direction}
    {s : AcousticSession} (hlength : totalProbes options ≤ (ledgerOf direction s).length)
    (hnone : s.calibration.selected.get direction = none) :
    completed options direction s = select options (ledgerOf direction s) := by
  unfold completed completeDirection
  rw [if_neg (by simp only [hnone, not_or, not_lt]; exact ⟨hlength, by simp⟩)]
  cases hselect : select options (ledgerOf direction s) with
  | none => exact hnone
  | some candidate =>
    cases direction with
    | aToB =>
      by_cases hrole : options.role = .b
      · have hkept := driveProbe_selected options .bToA { s with
          calibration.selected := s.calibration.selected.set (some candidate) .aToB
          state := .calibratingBToA }
        simp only [hrole, if_true]
        cases hdrive : driveProbe options .bToA { s with
            calibration.selected := s.calibration.selected.set (some candidate) .aToB
            state := .calibratingBToA } with
        | error f =>
          rw [hdrive] at hkept
          exact congrArg (PerDirection.get · .aToB) hkept
        | ok u =>
          rw [hdrive] at hkept
          exact congrArg (PerDirection.get · .aToB) hkept
      · simp only [hrole, if_false]
        rfl
    | bToA =>
      by_cases hrole : options.role = .b
      · simp only [hrole, if_true]
        rfl
      · simp only [hrole, if_false]
        rfl

/-- The receiver has an observation of every probe. -/
theorem length_measuredLedger (options : AcousticSessionOptions) (direction : Direction)
    (observations : ℕ → AcousticProbeObservation) :
    (measuredLedger options direction observations).length = totalProbes options := by
  unfold measuredLedger
  rw [List.length_filterMap_eq_countP, List.countP_eq_length.mpr, List.length_range]
  intro ordinal hordinal
  obtain ⟨candidate, -, hprobe⟩ := probeFor_ok direction (List.mem_range.mp hordinal)
  simp [hprobe, Except.toOption]

/-- So has the sender, once every report has come. -/
theorem length_reportedLedger {options : AcousticSessionOptions} (direction : Direction)
    {observations : ℕ → AcousticProbeObservation}
    (hprobes : 1 ≤ options.calibration.probesPerDirection ∧
      options.calibration.probesPerDirection ≤ 4)
    (haccepted : ∀ ordinal < totalProbes options,
      normalizeObservation (observations ordinal) = .ok (observations ordinal)) :
    (reportedLedger options direction observations).length = totalProbes options := by
  unfold reportedLedger
  rw [List.length_filterMap_eq_countP, List.countP_eq_length.mpr, List.length_range]
  intro ordinal hordinal
  have hlt := List.mem_range.mp hordinal
  obtain ⟨probe, report, hprobe, hreport, -⟩ := report_ok direction hprobes haccepted hlt
  simp [hprobe, hreport, Except.toOption]

/-- The first candidate of one set is the first of another, up to its place, when the
first of both together is shared or has a copy. -/
theorem leads_transfer {r : AcousticCandidate × ℕ → AcousticCandidate × ℕ → Prop}
    {one other : AcousticCandidate × ℕ → Prop} {candidate : AcousticCandidate} {index : ℕ}
    {first : AcousticCandidate × ℕ}
    (hfirst : Leads r Prod.snd (fun entry => one entry ∨ other entry) first)
    (hother : ¬other first → ∃ copy, Leads r Prod.snd other (first.1, copy))
    (hone : ¬one first → ∃ copy, Leads r Prod.snd one (first.1, copy))
    (h : Leads r Prod.snd one (candidate, index)) : ∃ place, Leads r Prod.snd other
      (candidate, place) := by
  have hothers : other first → Leads r Prod.snd other first :=
    leads_of_subset hfirst (fun _ => .inr)
  by_cases hmine : one first
  · have hsame := leads_unique h (leads_of_subset hfirst (fun _ => .inl) hmine)
    by_cases htheirs : other first
    · exact ⟨index, hsame ▸ hothers htheirs⟩
    · obtain ⟨copy, hcopy⟩ := hother htheirs
      rw [← hsame] at hcopy
      exact ⟨copy, hcopy⟩
  · have htheirs := hfirst.1.resolve_left hmine
    obtain ⟨copy, hcopy⟩ := hone hmine
    have hsame := congrArg Prod.fst (leads_unique h hcopy)
    exact ⟨first.2, by rw [show candidate = first.1 from hsame]; exact hothers htheirs⟩

/-- The candidates both ends select agree exactly when the first one is shared. Each end takes the
first of those safe to it, and the shared one is the first of those safe to either. -/
theorem select_eq_iff {options : AcousticSessionOptions} (direction : Direction)
    {observations : ℕ → AcousticProbeObservation}
    (hprobes : 1 ≤ options.calibration.probesPerDirection ∧
      options.calibration.probesPerDirection ≤ 4)
    (hlocale : Consistent (fun x y => (options.localeCompare x y : ℚ)))
    (haccepted : ∀ ordinal < totalProbes options,
      normalizeObservation (observations ordinal) = .ok (observations ordinal)) :
    select options (measuredLedger options direction observations) =
      select options (reportedLedger options direction observations) ↔
        FirstShared options observations := by
  have hmeasured := select_eq_some_iff hlocale observations
    (measuredLedger options direction observations)
    (fun index hindex => measuredLedger_safe_iff hprobes.1 hindex)
    (fun index hindex _ => by
      rw [observationsOf_measuredLedger, filter_ordinals hprobes.1 hindex, ownObservations])
  have hreported := select_eq_some_iff hlocale observations
    (reportedLedger options direction observations)
    (fun index hindex => reportedLedger_safe_iff hprobes haccepted hindex)
    (fun index hindex hsafe => by
      rw [observationsOf_unambiguous hprobes haccepted hindex hsafe.1, meanLatency_asReported])
  constructor
  · intro hsame first hfirst
    constructor
    · intro hunsafe
      have hmine := leads_of_subset hfirst (fun _ => .inl) (hfirst.1.resolve_right hunsafe)
      exact (hreported first.1).mp (hsame ▸ (hmeasured first.1).mpr ⟨first.2, hmine⟩)
    · intro hunsafe
      have htheirs := leads_of_subset hfirst (fun _ => .inr) (hfirst.1.resolve_left hunsafe)
      exact (hmeasured first.1).mp (hsame ▸ (hreported first.1).mpr ⟨first.2, htheirs⟩)
  · intro hshared
    have hexists : ∀ {entry : AcousticCandidate × ℕ},
        Listed options (Safe options observations) entry ∨
          Listed options (SafeWhenReported options observations) entry →
        ∃ first, First options observations (fun entry =>
          Listed options (Safe options observations) entry ∨
            Listed options (SafeWhenReported options observations) entry) first := by
      intro entry hentry
      have hunion : ∀ entry, (Listed options (Safe options observations) entry ∨
          Listed options (SafeWhenReported options observations) entry) =
          Listed options (fun index => Safe options observations index ∨
            SafeWhenReported options observations index) entry := by
        intro entry
        simp only [Listed, and_or_left]
      simp only [hunion] at hentry ⊢
      exact exists_leads hlocale observations hentry
    apply Option.ext
    intro candidate
    rw [hmeasured, hreported]
    constructor
    · rintro ⟨index, hleads⟩
      obtain ⟨first, hfirst⟩ := hexists (.inl hleads.1)
      exact leads_transfer hfirst (hshared first hfirst).1 (hshared first hfirst).2 hleads
    · rintro ⟨index, hleads⟩
      obtain ⟨first, hfirst⟩ := hexists (.inr hleads.1)
      have hswapped : Leads (Order options observations) Prod.snd (fun entry =>
          Listed options (SafeWhenReported options observations) entry ∨
            Listed options (Safe options observations) entry) first := by
        simp only [or_comm (a := Listed options (SafeWhenReported options observations) _)]
        exact hfirst
      exact leads_transfer hswapped (hshared first hfirst).2 (hshared first hfirst).1 hleads

/-- What a session selects depends on its candidates, calibration and collation only. -/
theorem select_congr {one other : AcousticSessionOptions}
    (hcandidates : one.candidates = other.candidates)
    (hcalibration : one.calibration = other.calibration)
    (hcollation : one.localeCompare = other.localeCompare)
    (entries : List AcousticProbeLedgerEntry) : select one entries = select other entries := by
  have hcompare : compareRanked one = compareRanked other := by
    funext left right
    unfold compareRanked
    rw [hcollation]
  have hrank : rank one entries = rank other entries := by
    funext candidate index
    unfold rank
    rw [hcalibration]
  unfold select
  simp only [hcandidates, hcompare, hrank]

/-- What is reported depends on the candidates and the calibration alone. -/
theorem reportedLedger_congr {one other : AcousticSessionOptions}
    (hcandidates : one.candidates = other.candidates)
    (hcalibration : one.calibration = other.calibration) (direction : Direction)
    (observations : ℕ → AcousticProbeObservation) :
    reportedLedger one direction observations = reportedLedger other direction observations := by
  have htotal : totalProbes one = totalProbes other := by
    unfold totalProbes
    rw [hcandidates, hcalibration]
  have hprobe : probeFor one direction = probeFor other direction := by
    funext ordinal
    unfold probeFor
    rw [hcandidates, hcalibration]
  have hdecode : decodeReport one = decodeReport other := by
    funext body
    unfold decodeReport
    rw [hcandidates, hcalibration]
  unfold reportedLedger
  rw [htotal, hprobe, hdecode]

/-- Both ends select the same candidate, or none, exactly when the first one is shared. -/
theorem completed_eq_iff (receiver sender : AdmittedOptions) (direction : Direction)
    (observations : ℕ → AcousticProbeObservation) (s t : AcousticSession)
    (h : Probed receiver.toAcousticSessionOptions sender.toAcousticSessionOptions direction
      observations s t) :
    completed receiver.toAcousticSessionOptions direction s =
      completed sender.toAcousticSessionOptions direction t ↔
        FirstShared receiver.toAcousticSessionOptions observations := by
  have hprobes := receiver.probes_bounds
  have hledger := reportedLedger_congr h.candidates h.calibration direction observations
  have htotal : totalProbes sender.toAcousticSessionOptions =
      totalProbes receiver.toAcousticSessionOptions := by
    unfold totalProbes
    rw [h.candidates, h.calibration]
  rw [completed_eq_select (by rw [h.measured, length_measuredLedger]) h.unselected.1,
    completed_eq_select (by
      rw [h.reported, hledger, htotal, length_reportedLedger direction hprobes h.accepted])
      h.unselected.2,
    h.measured, h.reported, select_congr h.candidates h.calibration h.collation, hledger]
  exact select_eq_iff direction hprobes h.consistent h.accepted

/-- A probe that arrived, decoded with a given confidence. -/
def benchObservation (confidence : ℚ) : AcousticProbeObservation :=
  ⟨true, true, false, false, false, false, some 5, none, none, confidence⟩

/-- The bench receiver once it has measured its probe. -/
def benchMeasured (confidence : ℚ) : AcousticSession :=
  { initialSession .b with
    calibration.ledger := measuredLedger (benchOptions .b) .aToB
      (fun _ => benchObservation confidence) }

/-- The bench sender once it has the report. -/
def benchReported (confidence : ℚ) : AcousticSession :=
  { initialSession .a with
    calibration.ledger := reportedLedger (benchOptions .a) .aToB
      (fun _ => benchObservation confidence) }

/-- Both ends of the example have probed the first direction. -/
theorem bench_probed (confidence : ℚ)
    (haccepted : normalizeObservation (benchObservation confidence) =
      .ok (benchObservation confidence))
    (hmeasured : ledgerOf .aToB (benchMeasured confidence) = measuredLedger (benchOptions .b) .aToB
      (fun _ => benchObservation confidence))
    (hreported : ledgerOf .aToB (benchReported confidence) = reportedLedger (benchOptions .a) .aToB
      (fun _ => benchObservation confidence)) :
    Probed (benchOptions .b) (benchOptions .a) .aToB (fun _ => benchObservation confidence)
      (benchMeasured confidence) (benchReported confidence) :=
  { candidates := rfl
    calibration := rfl
    collation := rfl
    consistent := ⟨by simp [benchOptions], by simp [benchOptions]⟩
    accepted := fun _ _ => haccepted
    measured := hmeasured
    reported := hreported
    unselected := ⟨rfl, rfl⟩ }

/-- They choose the same candidate where the confidence is on the grid. -/
theorem completed_bench :
    Probed (benchOptions .b) (benchOptions .a) .aToB (fun _ => benchObservation 1)
      (benchMeasured 1) (benchReported 1) ∧
    completed (benchOptions .b) .aToB (benchMeasured 1) =
      completed (benchOptions .a) .aToB (benchReported 1) := by
  have hprobed := bench_probed 1 (by decide +kernel) (by decide +kernel) (by decide +kernel)
  refine ⟨hprobed, (completed_eq_iff ⟨benchOptions .b, benchOptions_admitted .b⟩
    ⟨benchOptions .a, benchOptions_admitted .a⟩ .aToB _ _ _ hprobed).mpr ?_⟩
  have hsafe : Safe (benchOptions .b) (fun _ => benchObservation 1) 0 := by
    unfold Safe
    decide +kernel
  have hreported : SafeWhenReported (benchOptions .b) (fun _ => benchObservation 1) 0 := by
    unfold SafeWhenReported Unambiguous
    decide +kernel
  intro first hfirst
  have hmem : first ∈ (benchOptions .b).candidates.zipIdx := hfirst.1.elim (·.1) (·.1)
  obtain rfl : first = (benchCandidate, 0) := by simpa [benchOptions] using hmem
  exact ⟨fun hnot => absurd ⟨hmem, hreported⟩ hnot, fun hnot => absurd ⟨hmem, hsafe⟩ hnot⟩

/-- A confidence off the grid tips the balance at one end only. -/
theorem not_completed_eq : ¬∀ (receiver sender : AdmittedOptions) (direction : Direction)
    (observations : ℕ → AcousticProbeObservation) (s t : AcousticSession),
    Probed receiver.toAcousticSessionOptions sender.toAcousticSessionOptions direction
      observations s t →
    completed receiver.toAcousticSessionOptions direction s =
      completed sender.toAcousticSessionOptions direction t := by
  intro h
  have hsame := h ⟨benchOptions .b, benchOptions_admitted .b⟩
    ⟨benchOptions .a, benchOptions_admitted .a⟩ .aToB _ _ _
    (bench_probed (4996 / 10000) (by decide +kernel) (by decide +kernel) (by decide +kernel))
  revert hsame
  decide +kernel

end Agreement

end Fipwave.CandidateSelection
