import Fipwave.ReportValidation
import Fipwave.SessionDeadline
import Fipwave.BridgeRuns

/-!
# The two evaluators of the gate

A bridge judges its evidence while it builds a report, over the live session;
the merge judges the stored reports of both machines again. What the first
calls complete and passed, the second accepts and selects.
-/

namespace Fipwave.GateAgreement

open ThrowingMethod QualificationSession TransitionRun SessionChanges SessionOrder SessionDeadline
open BridgeReport BridgeTrial CorpusManifest ReportValidation

section Reasons

variable {code reason : String} {holds : Bool} {reasons : List String}

/-- A reason that was added stays. -/
theorem mem_addReasonIf_of_mem (h : code ∈ reasons) : code ∈ addReasonIf holds reason reasons := by
  unfold addReasonIf addReason
  split
  · split
    · exact h
    · exact List.mem_append_left _ h
  · exact h

/-- A reason that is not there was not there before, and its condition does not hold. -/
theorem not_mem_addReasonIf (h : code ∉ addReasonIf holds reason reasons) :
    code ∉ reasons ∧ (code = reason → holds = false) := by
  refine ⟨fun hmem => h (mem_addReasonIf_of_mem hmem), ?_⟩
  rintro rfl
  by_contra hholds
  rw [Bool.not_eq_false] at hholds
  apply h
  unfold addReasonIf addReason
  rw [if_pos hholds]
  split
  · next hmem => exact hmem
  · exact List.mem_append_right _ (List.mem_singleton_self _)

/-- Without its condition a reason is not added. -/
theorem addReasonIf_of_false (h : holds = false) : addReasonIf holds reason reasons = reasons := by
  subst h
  rfl

end Reasons

section Lines

/-- An observed line gives no reason against it. -/
structure Faultless (line : MachineResult) : Prop where
  /-- It is complete. -/
  complete : line.complete = true
  /-- It is not corrupt. -/
  corrupt : line.corrupt = false
  /-- No part is missing. -/
  missing : line.missing = 0
  /-- Nothing came twice. -/
  duplicates : line.duplicates = 0
  /-- It was delivered once. -/
  deliveryCount : line.deliveryCount = 1
  /-- Every byte arrived. -/
  bytePerfect : line.bytePerfect = true
  /-- It has the digest of its payload. -/
  digest : line.receivedSha256 = some line.expectedSha256

/-- Reasons are only added by the lines. -/
theorem mem_foldl_lineReasons {code : String} (lines : List MachineResult) {reasons : List String}
    (h : code ∈ reasons) : code ∈ lines.foldl lineReasons reasons := by
  induction lines generalizing reasons with
  | nil => exact h
  | cons line lines ih =>
    apply ih
    unfold lineReasons
    split
    · exact h
    · exact mem_addReasonIf_of_mem (mem_addReasonIf_of_mem (mem_addReasonIf_of_mem h))

/-- Lines that give no reason are faultless where they are observed. -/
theorem faultless_of_reasons (lines : List MachineResult) {reasons : List String}
    (hparts : "partial_evidence" ∉ lines.foldl lineReasons reasons)
    (hdigest : "bad_digest" ∉ lines.foldl lineReasons reasons)
    (hduplicate : "duplicate_case" ∉ lines.foldl lineReasons reasons) :
    ∀ line ∈ lines, line.observed = true → Faultless line := by
  induction lines generalizing reasons with
  | nil =>
    intro line hline
    cases hline
  | cons first lines ih =>
    intro line hline hobserved
    rcases List.mem_cons.mp hline with rfl | hrest
    · have hparts' : "partial_evidence" ∉ lineReasons reasons line :=
        fun hmem => hparts (mem_foldl_lineReasons lines hmem)
      have hdigest' : "bad_digest" ∉ lineReasons reasons line :=
        fun hmem => hdigest (mem_foldl_lineReasons lines hmem)
      have hduplicate' : "duplicate_case" ∉ lineReasons reasons line :=
        fun hmem => hduplicate (mem_foldl_lineReasons lines hmem)
      unfold lineReasons at hparts' hdigest' hduplicate'
      rw [hobserved, Bool.not_true, if_neg Bool.false_ne_true] at hparts' hdigest' hduplicate'
      have hwhole := (not_mem_addReasonIf hparts').2 rfl
      have hexact := (not_mem_addReasonIf (not_mem_addReasonIf hdigest').1).2 rfl
      have honce := (not_mem_addReasonIf
        (not_mem_addReasonIf (not_mem_addReasonIf hduplicate').1).1).2 rfl
      simp only [Bool.or_eq_false_iff, Bool.not_eq_false', decide_eq_false_iff_not, not_not, ne_eq]
        at hwhole hexact honce
      exact ⟨hwhole.1, hexact.2, by omega, by omega, honce.2, hexact.1.2, hexact.1.1⟩
    · exact ih hparts hdigest hduplicate line hrest hobserved

/-- What the evidence of a complete corpus satisfies. -/
structure CleanEvidence (corpus : List CorpusEntry) (e : Evidence) (lines : List MachineResult) :
    Prop where
  /-- The audio is as required. -/
  audio : audioPassed e.audio = true
  /-- There are enough short payloads. -/
  short : 19 ≤ ((lines.filter good).filter (·.size = 256)).length
  /-- There are enough long payloads. -/
  long : 5 ≤ ((lines.filter good).filter (·.size = 1536)).length
  /-- A cold case was received. -/
  cold : coldPassed corpus e (lines.filter good) = true
  /-- The time on air is short enough. -/
  airtime : (BridgeReport.p95 ((lines.filter good).map (·.airtimeMs))).all
    (· ≥ qualificationDeadLinkTimeoutMs / 3) = false
  /-- The queues kept their bounds. -/
  queues : queueBoundExceeded (queuesEvidence e) = false
  /-- There were no gaps. -/
  discontinuities : (queuesEvidence e).discontinuities = 0
  /-- Every observed line is faultless. -/
  faultless : ∀ line ∈ lines, line.observed = true → Faultless line

/-- A complete corpus has clean evidence. -/
theorem cleanEvidence_of_complete {corpus : List CorpusEntry} {e : Evidence}
    {lines : List MachineResult}
    (h : corpusComplete e (reportReasons corpus e lines) = true) : CleanEvidence corpus e lines := by
  unfold corpusComplete at h
  simp only [List.all_cons, List.all_nil, Bool.and_true, Bool.and_eq_true, decide_eq_true_eq] at h
  obtain ⟨⟨hcorpus, hdigest, hduplicate, hparts, hairtime, hcold, hbound, hgap⟩, haudio⟩ := h
  have hfaultless := faultless_of_reasons lines hparts hdigest hduplicate
  unfold reportReasons at hcorpus hairtime hcold hbound hgap
  dsimp only at hcorpus hairtime hcold hbound hgap
  replace hcorpus := fun hmem => hcorpus (mem_foldl_lineReasons lines hmem)
  replace hairtime := fun hmem => hairtime (mem_foldl_lineReasons lines hmem)
  replace hcold := fun hmem => hcold (mem_foldl_lineReasons lines hmem)
  replace hbound := fun hmem => hbound (mem_foldl_lineReasons lines hmem)
  replace hgap := fun hmem => hgap (mem_foldl_lineReasons lines hmem)
  have hnogap := (not_mem_addReasonIf hgap).2 rfl
  have hbounded := (not_mem_addReasonIf (not_mem_addReasonIf hbound).1).2 rfl
  have hquick := (not_mem_addReasonIf
    (not_mem_addReasonIf (not_mem_addReasonIf hairtime).1).1).2 rfl
  have hwarm := (not_mem_addReasonIf (not_mem_addReasonIf
    (not_mem_addReasonIf (not_mem_addReasonIf hcold).1).1).1).2 rfl
  have hwhole := (not_mem_addReasonIf (not_mem_addReasonIf (not_mem_addReasonIf
    (not_mem_addReasonIf (not_mem_addReasonIf hcorpus).1).1).1).1).2 rfl
  simp only [Bool.or_eq_false_iff, decide_eq_false_iff_not, not_lt] at hwhole hnogap
  have hsome : decide ((lines.filter good).length > 0) = true := by
    have hle := List.length_filter_le (fun line : MachineResult => decide (line.size = 256))
      (lines.filter good)
    rw [decide_eq_true_eq]
    omega
  rw [hsome, Bool.true_and] at hquick hwarm
  rw [Bool.not_eq_false'] at hwarm
  exact ⟨haudio, hwhole.1, hwhole.2, hwarm, hquick, hbounded, by omega, hfaultless⟩

end Lines

section Session

/-- What a published session says that was expired at the same time. -/
structure Reported (s : CyrinxSessionSnapshot) : Prop where
  /-- Its times follow the rules. -/
  timing : TimingRules s
  /-- Under Cyrinx it has started, and its fallback is available. -/
  cyrinx : s.codec = .cyrinx → s.startedAtMs ≠ none ∧ s.fallbackState = .available
  /-- Under Quiet its fallback is activated. -/
  quiet : s.codec = .quiet → s.stage = .quiet ∧ s.fallbackState = .activated

/-- Every session that operations lead to is reported so. -/
theorem reported_snapshot (corpus : List CorpusEntry) (role : RunnerRole)
    (operations : List SessionOperation) (epoch nowMs : ℕ) (hnow : nowMs ≤ maxSafeInteger)
    (hsafe : ∀ startedAtMs, (run (perform corpus role) {} operations).startedAtMs =
      some startedAtMs → startedAtMs + cyrinxDeadlineMs ≤ maxSafeInteger) :
    Reported (snapshot corpus role epoch nowMs
      (expire nowMs (run (perform corpus role) {} operations)).2).1 := by
  have hlawful : Lawful (run (perform corpus role) {} operations) := lawful_run operations
  have hpublished := hlawful.published hnow
  have hphases := hpublished.sound.phases
  refine ⟨snapshot_timing corpus role operations epoch nowMs hnow hsafe, ?_, ?_⟩
  · intro hcodec
    have hcyrinx : (lookAt nowMs (expire nowMs (run (perform corpus role) {} operations)).2).codec =
        .cyrinx := hcodec
    exact ⟨hphases.started hcyrinx, (hpublished.consistent.available hcyrinx).1⟩
  · intro hcodec
    have hquiet : (lookAt nowMs (expire nowMs (run (perform corpus role) {} operations)).2).codec =
        .quiet := hcodec
    have hconsistent := hpublished.consistent
    unfold Consistent at hconsistent
    simp only [hquiet, reduceCtorEq, false_and, true_and, false_or, or_false] at hconsistent
    exact ⟨hconsistent.1, hconsistent.2.1⟩

end Session

section Validation

/-- A requirement that holds is met. -/
theorem require_of_true {holds : Bool} {reasonCode : String} (h : holds = true) :
    require holds reasonCode = .ok () := by
  subst h
  rfl

/-- A text that passes is not blank. -/
theorem nonEmpty_of_notBlank {value reasonCode : String} (h : notBlank value = true) :
    nonEmpty value reasonCode = .ok () := require_of_true h

/-- A number that is safe meets the requirement for one. -/
theorem integerNonNegative_of_le {value : ℕ} {reasonCode : String} (h : value ≤ maxSafeInteger) :
    integerNonNegative value reasonCode = .ok () := require_of_true (decide_eq_true h)

/-- A corpus whose cases can be told apart and have proper names and digests. -/
structure WellFormedCorpus (corpus : List CorpusEntry) : Prop where
  /-- No two cases have the same name. -/
  nodup : (corpus.map (·.id)).Nodup
  /-- No name is blank. -/
  notBlank : ∀ entry ∈ corpus, notBlank entry.id = true
  /-- Every digest is one. -/
  digest : ∀ entry ∈ corpus, isDigest entry.sha256 = true

/-- The cases of the manifest are a well-formed corpus. -/
theorem wellFormed_manifestCases : WellFormedCorpus manifestCases := by
  refine ⟨nodup_ids, ?_, isDigest_sha256⟩
  intro entry hentry
  unfold ReportValidation.notBlank
  rw [notBlank_ids entry hentry]
  rfl

variable {corpus : List CorpusEntry} {role : RunnerRole} {e : Evidence} {entry : CorpusEntry}

/-- The line of a case names the case. -/
theorem canonicalResult_case (role : RunnerRole) (e : Evidence) (entry : CorpusEntry) :
    (canonicalResult role e entry).epoch = e.epoch ∧
    (canonicalResult role e entry).direction = expectedDirection role ∧
    (canonicalResult role e entry).caseId = entry.id ∧
    (canonicalResult role e entry).size = entry.size ∧
    (canonicalResult role e entry).expectedSha256 = entry.sha256 := by
  unfold canonicalResult
  split
  · exact ⟨rfl, rfl, rfl, rfl, rfl⟩
  · exact ⟨rfl, rfl, rfl, rfl, rfl⟩

/-- The line of a case without a result. -/
theorem canonicalResult_unobserved (h : (canonicalResult role e entry).observed = false) :
    (canonicalResult role e entry).receivedSha256 = none ∧
    (canonicalResult role e entry).deliveryCount = 0 ∧
    (canonicalResult role e entry).missing = 1 ∧
    (canonicalResult role e entry).duplicates = 0 := by
  unfold canonicalResult at h ⊢
  split
  · exact ⟨rfl, rfl, rfl, rfl⟩
  · next observed hlookup =>
    rw [hlookup] at h
    cases h

/-- A line of a report is accepted if it is faultless where it is observed. -/
theorem validateResult_ok (hcorpus : WellFormedCorpus corpus) (hentry : entry ∈ corpus)
    (hdirection : entry.direction = expectedDirection role)
    (hfaultless : (canonicalResult role e entry).observed = true →
      Faultless (canonicalResult role e entry)) :
    validateResult corpus true e.epoch (canonicalResult role e entry) = .ok () := by
  obtain ⟨hepoch, hline, hid, hsize, hsha⟩ := canonicalResult_case role e entry
  have hfields : (canonicalResult role e entry).receivedSha256.all isDigest = true ∧
      (canonicalResult role e entry).deliveryCount ≤ 1 ∧
      (canonicalResult role e entry).missing ≤ 1 ∧
      (canonicalResult role e entry).duplicates = 0 := by
    cases hobserved : (canonicalResult role e entry).observed with
    | true =>
      have hgood := hfaultless hobserved
      rw [hgood.digest, hgood.deliveryCount, hgood.missing, hgood.duplicates, hsha, Option.all_some]
      exact ⟨hcorpus.digest entry hentry, le_refl _, Nat.zero_le _, rfl⟩
    | false =>
      obtain ⟨hreceived, hcount, hmissing, hduplicates⟩ := canonicalResult_unobserved hobserved
      rw [hreceived, hcount, hmissing, hduplicates]
      exact ⟨rfl, Nat.zero_le _, le_refl _, rfl⟩
  obtain ⟨hdigest, hcount, hmissing, hduplicates⟩ := hfields
  have hexact : 1 ≤ maxSafeInteger := by decide
  unfold validateResult
  rw [hid, manifestCase_of_mem hcorpus.nodup hentry]
  dsimp only
  rw [hepoch, hline, hsize, hsha, require_of_true (decide_eq_true rfl),
    nonEmpty_of_notBlank (hcorpus.notBlank entry hentry),
    require_of_true (decide_eq_true hdirection), integerNonNegative_of_le (hcount.trans hexact),
    require_of_true (decide_eq_true rfl), require_of_true (decide_eq_true rfl),
    require_of_true hdigest, integerNonNegative_of_le (hmissing.trans hexact), hduplicates,
    integerNonNegative_of_le (Nat.zero_le _)]
  rfl

/-- The times of a published session are accepted. -/
theorem validateDeadline_ok {q : QualificationRecord} {s : CyrinxSessionSnapshot}
    (h : TimingRules s) (hstarted : q.startedAtMs = s.startedAtMs)
    (hdeadline : q.deadlineAtMs = s.deadlineAtMs) (helapsed : q.elapsedMs = s.elapsedMs) :
    validateDeadline q = .ok () := by
  unfold validateDeadline
  rw [hstarted, hdeadline, helapsed]
  rcases h.stamped with ⟨hnone, hnone', hnone''⟩ |
    ⟨startedAtMs, elapsedMs, hsome, hsome', hsome'', hsafe, hexact⟩
  · rw [hnone, hnone', hnone'']
    rfl
  · rw [hsome, hsome', hsome'']
    have hstart : startedAtMs ≤ maxSafeInteger := by omega
    dsimp only [Option.getD_some]
    rw [integerNonNegative_of_le hstart, integerNonNegative_of_le hsafe,
      integerNonNegative_of_le hexact, require_of_true (decide_eq_true rfl)]
    rfl

/-- The fallback of a certified report is accepted as it is stored. -/
theorem validateFallback_ok {q : QualificationRecord} {s : CyrinxSessionSnapshot}
    (h : TimingRules s) (hstarted : q.startedAtMs = s.startedAtMs)
    (hdeadline : q.deadlineAtMs = s.deadlineAtMs) (helapsed : q.elapsedMs = s.elapsedMs)
    (hstate : q.fallbackState = s.fallbackState) (hreason : q.reasonCode = s.reasonCode) :
    validateFallback q = .ok () := by
  have hfree : (!(decide (s.fallbackState = .available) && decide (s.reasonCode ≠ none))) =
      true := by
    by_cases hstate : s.fallbackState = .available
    · have hnone := h.available.mp hstate
      simp [hnone]
    · simp [hstate]
  have hused : (!(decide (s.fallbackState ≠ .available) && decide (s.reasonCode = none))) =
      true := by
    by_cases hnone : s.reasonCode = none
    · have hstate := h.available.mpr hnone
      simp [hstate]
    · simp [hnone]
  unfold validateFallback
  rw [hstarted, hdeadline, helapsed, hstate, hreason]
  dsimp only
  rw [require_of_true hfree, require_of_true hused]
  have hexpired := h.expired
  rcases h.stamped with ⟨hnone, hnone', hnone''⟩ |
    ⟨startedAtMs, elapsedMs, hsome, hsome', hsome'', hsafe, hexact⟩
  · have hstate : s.fallbackState = .available := by
      by_contra hne
      exact h.used hne hnone
    rw [hnone, hnone', hnone'', hstate]
    rfl
  · have hstamped : (!(decide (s.fallbackState ≠ .available) &&
        !([some startedAtMs, some (startedAtMs + cyrinxDeadlineMs), some elapsedMs].all
          (·.isSome)))) = true := by
      simp
    have helapsed : (if s.reasonCode = some .deadlineExpired then
        decide (elapsedMs ≥ cyrinxDeadlineMs) else !decide (elapsedMs ≥ cyrinxDeadlineMs)) =
        true := by
      rw [hsome''] at hexpired
      by_cases hreason : s.reasonCode = some .deadlineExpired
      · obtain ⟨value, hvalue, hlate⟩ := hexpired.mp hreason
        rw [if_pos hreason, Option.some.inj hvalue]
        exact decide_eq_true hlate
      · have hearly : ¬elapsedMs ≥ cyrinxDeadlineMs :=
          fun hlate => hreason (hexpired.mpr ⟨elapsedMs, rfl, hlate⟩)
        rw [if_neg hreason, decide_eq_false hearly]
        rfl
    rw [hsome, hsome', hsome'', require_of_true hstamped]
    dsimp only [Option.getD_some]
    rw [require_of_true helapsed]
    rfl

end Validation

section Texts

/-- A text with a character that is no space is not blank. -/
theorem notBlank_ofList (chars : List Char) (h : chars.all isSpace = false) :
    notBlank (String.ofList chars) = true := by
  unfold notBlank
  rw [String.toList_ofList, h]
  rfl

/-- A text the bridge takes is not blank. -/
theorem notBlank_of_asText {value : Option Json} {name text : String}
    (h : asText value name = .ok text) : notBlank text = true := by
  unfold asText at h
  split at h
  · split at h
    · cases h
    · next hblank =>
      rw [← Except.ok.inj h]
      unfold notBlank
      rw [Bool.not_eq_true] at hblank
      rw [hblank]
      rfl
  · cases h

/-- The texts of audio settings the bridge takes are not blank. -/
theorem notBlank_of_parseBrowserAudio {payload : List (String × Json)} {audio : BrowserAudio}
    (h : parseBrowserAudio payload = .ok audio) :
    notBlank audio.browserVersion = true ∧ notBlank audio.microphoneLabel = true ∧
      notBlank audio.contextState = true := by
  unfold parseBrowserAudio at h
  split at h
  · cases h
  · obtain ⟨browserVersion, hversion, h⟩ := bind_ok h
    obtain ⟨microphoneLabel, hlabel, h⟩ := bind_ok h
    obtain ⟨contextState, hstate, h⟩ := bind_ok h
    obtain ⟨inputDeviceSampleRate, -, h⟩ := bind_ok h
    obtain ⟨inputDeviceChannels, -, h⟩ := bind_ok h
    obtain ⟨contextSampleRate, -, h⟩ := bind_ok h
    obtain ⟨captureSampleRate, -, h⟩ := bind_ok h
    obtain ⟨channels, -, h⟩ := bind_ok h
    obtain ⟨echoCancellation, -, h⟩ := bind_ok h
    obtain ⟨noiseSuppression, -, h⟩ := bind_ok h
    obtain ⟨autoGainControl, -, h⟩ := bind_ok h
    rw [← Except.ok.inj h]
    exact ⟨notBlank_of_asText hversion, notBlank_of_asText hlabel, notBlank_of_asText hstate⟩

/-- Reasons that are not blank. -/
def Proper (reasons : List String) : Prop := ∀ reason ∈ reasons, notBlank reason = true

/-- A reason that is not blank joins the others, once. -/
theorem Proper.addReason {reason : String} {reasons : List String} (h : Proper reasons)
    (hreason : notBlank reason = true) : Proper (addReason reason reasons) := by
  unfold BridgeReport.addReason
  split
  · exact h
  · intro other hother
    rcases List.mem_append.mp hother with hmem | hnew
    · exact h other hmem
    · rw [List.mem_singleton.mp hnew]
      exact hreason

/-- So does one that is added on a condition. -/
theorem Proper.addReasonIf {holds : Bool} {reason : String} {reasons : List String}
    (h : Proper reasons) (hreason : notBlank reason = true) :
    Proper (addReasonIf holds reason reasons) := by
  unfold BridgeReport.addReasonIf
  split
  · exact h.addReason hreason
  · exact h

/-- The code of a reason is not blank. -/
theorem notBlank_code (reason : CyrinxFallbackReason) : notBlank reason.code = true := by
  cases reason <;> exact notBlank_ofList _ rfl

/-- The reasons of a report are not blank if those of its bridge are not. -/
theorem proper_withReason {reasons : List String} (h : Proper reasons)
    (fallback : Option CyrinxFallbackReason) :
    Proper (match fallback with
      | none => reasons
      | some reason => addReason reason.code reasons) := by
  cases fallback with
  | none => exact h
  | some reason => exact h.addReason (notBlank_code _)

/-- All the reasons of a report are proper. -/
theorem proper_reportReasons (corpus : List CorpusEntry) {e : Evidence}
    (h : Proper e.failureReasons) (lines : List MachineResult) :
    Proper (reportReasons corpus e lines) := by
  have hlines : ∀ (lines : List MachineResult) {reasons : List String}, Proper reasons →
      Proper (lines.foldl lineReasons reasons) := by
    intro lines
    induction lines with
    | nil => exact fun hproper => hproper
    | cons line lines ih =>
      intro reasons hproper
      apply ih
      unfold lineReasons
      split
      · exact hproper
      · exact ((hproper.addReasonIf (notBlank_ofList _ rfl)).addReasonIf
          (notBlank_ofList _ rfl)).addReasonIf (notBlank_ofList _ rfl)
  have hfallback := proper_withReason h e.snapshot.reasonCode
  unfold reportReasons
  apply hlines
  exact (((((hfallback.addReasonIf (notBlank_ofList _ rfl)).addReasonIf
    (notBlank_ofList _ rfl)).addReasonIf (notBlank_ofList _ rfl)).addReasonIf
    (notBlank_ofList _ rfl)).addReasonIf (notBlank_ofList _ rfl)).addReasonIf
    (notBlank_ofList _ rfl)

/-- A hexadecimal digit is no white space. -/
theorem not_isSpace_of_isLowerHexDigit {c : Char} (h : isLowerHexDigit c = true) :
    isSpace c = false := by
  have hbounds : 48 ≤ c.toNat ∧ c.toNat ≤ 102 := by
    unfold isLowerHexDigit at h
    simp only [Bool.or_eq_true, Bool.and_eq_true, decide_eq_true_eq] at h
    rcases h with hdigit | ⟨hlow, hhigh⟩
    · unfold Char.isDigit at hdigit
      simp only [Bool.and_eq_true, decide_eq_true_eq] at hdigit
      have hlow : 48 ≤ c.toNat := hdigit.1
      have hhigh : c.toNat ≤ 57 := hdigit.2
      omega
    · have hlow' : 97 ≤ c.toNat := hlow
      have hhigh' : c.toNat ≤ 102 := hhigh
      omega
  unfold isSpace
  simp only [List.mem_cons, List.not_mem_nil, or_false, Bool.or_eq_false_iff,
    decide_eq_false_iff_not, Bool.and_eq_false_iff]
  omega

/-- The commit of a build is not blank. -/
theorem notBlank_of_isCommit {commit : String} (h : isCommit commit = true) :
    notBlank commit = true := by
  unfold isCommit at h
  rw [Bool.and_eq_true, decide_eq_true_eq, List.all_eq_true] at h
  obtain ⟨hlength, hdigits⟩ := h
  unfold notBlank
  rw [Bool.not_eq_true', Bool.eq_false_iff, ne_eq, List.all_eq_true]
  intro hblank
  obtain ⟨c, hc⟩ := List.exists_mem_of_length_pos (l := commit.toList) (by omega)
  have hspace := hblank c hc
  rw [not_isSpace_of_isLowerHexDigit (hdigits c hc)] at hspace
  cases hspace

end Texts

section Acceptance

variable {config : RunnerQualificationConfig} {authority : RunnerReportAuthority}
variable {corpus : List CorpusEntry} {e : Evidence} {tunEvidence : TunEvidence}

/-- The lines of a report. -/
def linesOf (corpus : List CorpusEntry) (role : RunnerRole) (e : Evidence) : List MachineResult :=
  (expectedCorpus corpus role).map (canonicalResult role e)

/-- A runner in open air, with its fields filled in and the commit of its build. -/
structure RunnerFields (config : RunnerQualificationConfig) (authority : RunnerReportAuthority) :
    Prop where
  /-- The evidence is physical. -/
  openAir : config.evidenceClass = .openAir
  /-- The machine has a name. -/
  machineId : notBlank config.machineId = true
  /-- The report has a target. -/
  reportTarget : config.reportTarget ≠ ""
  /-- The operating system is named. -/
  os : notBlank authority.os = true
  /-- So is the architecture. -/
  architecture : notBlank authority.architecture = true
  /-- The build has a commit. -/
  commit : isCommit authority.commit = true

/-- What a bridge takes into its evidence. -/
structure Taken (e : Evidence) : Prop where
  /-- The epoch is exact. -/
  epoch : e.epoch ≤ maxSafeInteger
  /-- The audio settings were parsed. -/
  audio : ∀ audio, e.audio = some audio → ∃ payload, parseBrowserAudio payload = .ok audio
  /-- No reason is blank. -/
  reasons : Proper e.failureReasons
  /-- The session was published after its expiry. -/
  reported : Reported e.snapshot

/-- What a complete report in open air rests on. -/
structure Certified (config : RunnerQualificationConfig) (corpus : List CorpusEntry)
    (e : Evidence) : Prop where
  /-- The evidence is clean. -/
  clean : CleanEvidence (expectedCorpus corpus config.role) e (linesOf corpus config.role e)
  /-- The gate is passed. -/
  gate : physicalGate config (expectedCorpus corpus config.role) e
    (linesOf corpus config.role e) = (true, .passed)
  /-- Cyrinx is complete and was received cold, or the Quiet fallback is activated. -/
  stage : (e.snapshot.codec = .cyrinx ∧ e.snapshot.stage = .complete ∧
      e.coldReceivePassed = true) ∨ e.snapshot.codec = .quiet

/-- A complete report in open air is certified. -/
theorem certified_of_complete (hclass : config.evidenceClass = .openAir)
    (h : (buildReport config authority corpus e).complete = true) : Certified config corpus e := by
  have hcomplete : (physicalGate config (expectedCorpus corpus config.role) e
      (linesOf corpus config.role e)).1 = true := h
  have hboth := hcomplete
  unfold physicalGate at hboth
  dsimp only at hboth
  rw [hclass, decide_eq_false (not_not.mpr rfl), Bool.false_or, Bool.and_eq_true] at hboth
  obtain ⟨hwhole, hstage⟩ := hboth
  have hgate : physicalGate config (expectedCorpus corpus config.role) e
      (linesOf corpus config.role e) = (true, .passed) := by
    unfold physicalGate
    dsimp only
    rw [hclass, decide_eq_false (not_not.mpr rfl), Bool.false_or, hwhole, hstage]
    rfl
  refine ⟨cleanEvidence_of_complete hwhole, hgate, ?_⟩
  unfold stageAuthorityPassed at hstage
  split at hstage
  · next hcodec =>
    rw [Bool.and_eq_true, decide_eq_true_eq] at hstage
    exact .inl ⟨hcodec, hstage⟩
  · next hcodec => exact .inr hcodec
  · rw [hclass] at hstage
    cases hstage

/-- A certified report carries the qualification of its session. -/
theorem qualification_of_certified (authority : RunnerReportAuthority)
    (h : Certified config corpus e) :
    (buildReport config authority corpus e).qualification =
      { deadLinkTimeoutMs := qualificationDeadLinkTimeoutMs
        cyrinxDeadlineMs := QualificationSession.cyrinxDeadlineMs
        startedAtMs := e.snapshot.startedAtMs
        deadlineAtMs := e.snapshot.deadlineAtMs
        elapsedMs := e.snapshot.elapsedMs
        physicalGate := .passed
        fallbackState := e.snapshot.fallbackState
        reasonCode := e.snapshot.reasonCode
        stage := e.snapshot.stage
        coldReceivePassed := e.coldReceivePassed } := by
  have hqualification : (buildReport config authority corpus e).qualification =
      reportQualification config e (physicalGate config (expectedCorpus corpus config.role) e
        (linesOf corpus config.role e)).2 := rfl
  rw [hqualification, h.gate]
  unfold reportQualification
  rcases h.stage with ⟨hcodec, -⟩ | hcodec
  · rw [hcodec]
  · rw [hcodec]

/-- A certified report names the codec of its session. -/
theorem codec_of_certified (authority : RunnerReportAuthority) (h : Certified config corpus e) :
    (e.snapshot.codec = .cyrinx ∧ (buildReport config authority corpus e).codec = cyrinxCodec) ∨
    (e.snapshot.codec = .quiet ∧ (buildReport config authority corpus e).codec = quietCodec) := by
  have hcodec : (buildReport config authority corpus e).codec = reportCodec config e := rfl
  rw [hcodec]
  unfold reportCodec
  rcases h.stage with ⟨hcyrinx, -⟩ | hquiet
  · rw [hcyrinx]
    exact .inl ⟨rfl, rfl⟩
  · rw [hquiet]
    exact .inr ⟨rfl, rfl⟩

/-- A line of a report is that of a case in the direction of the role. -/
theorem case_of_line {role : RunnerRole} {line : MachineResult}
    (h : line ∈ linesOf corpus role e) : ∃ entry ∈ corpus,
      entry.direction = expectedDirection role ∧ line = canonicalResult role e entry := by
  unfold linesOf expectedCorpus at h
  obtain ⟨entry, hentry, rfl⟩ := List.mem_map.mp h
  rw [List.mem_filter, decide_eq_true_eq] at hentry
  exact ⟨entry, hentry.1, hentry.2, rfl⟩

/-- Checking every item succeeds if each check does. -/
theorem forM_of_ok {α ε : Type} {f : α → Except ε Unit} {items : List α}
    (h : ∀ item ∈ items, f item = .ok ()) : items.forM f = .ok () := by
  induction items with
  | nil => rfl
  | cons first items ih =>
    have hstep : (first :: items).forM f = (f first >>= fun _ => items.forM f) := rfl
    rw [hstep, h first List.mem_cons_self]
    exact ih (fun item hitem => h item (List.mem_cons_of_mem _ hitem))

/-- The lines of a certified report are accepted. -/
theorem validateLines_ok (hcorpus : WellFormedCorpus corpus) (h : Certified config corpus e) :
    (linesOf corpus config.role e).forM (validateResult corpus true e.epoch) = .ok () := by
  apply forM_of_ok
  intro line hline
  have hfaultless := h.clean.faultless line hline
  obtain ⟨entry, hentry, hdirection, rfl⟩ := case_of_line hline
  exact validateResult_ok hcorpus hentry hdirection hfaultless

/-- The audio of a certified report is accepted. -/
theorem validateAudio_ok (authority : RunnerReportAuthority) (tunEvidence : TunEvidence)
    (htaken : Taken e) (h : Certified config corpus e) :
    notBlank (buildReport config authority corpus e).browserVersion = true ∧
    validateAudio true (stored (buildReport config authority corpus e) tunEvidence).audio =
      .ok () := by
  have haudio := h.clean.audio
  obtain ⟨audio, hsome⟩ : ∃ audio, e.audio = some audio := by
    cases hnone : e.audio with
    | none =>
      rw [hnone] at haudio
      cases haudio
    | some audio => exact ⟨audio, rfl⟩
  obtain ⟨payload, hparsed⟩ := htaken.audio audio hsome
  obtain ⟨hversion, hlabel, hstate⟩ := notBlank_of_parseBrowserAudio hparsed
  have hreport : (buildReport config authority corpus e).browserVersion =
      (e.audio.getD unavailableAudio).browserVersion := rfl
  have hrecord : (stored (buildReport config authority corpus e) tunEvidence).audio.device =
      some ⟨(e.audio.getD unavailableAudio).microphoneLabel,
        (e.audio.getD unavailableAudio).contextState,
        (e.audio.getD unavailableAudio).inputDeviceSampleRate,
        (e.audio.getD unavailableAudio).inputDeviceChannels⟩ := rfl
  rw [hreport, hsome, Option.getD_some]
  refine ⟨hversion, ?_⟩
  unfold validateAudio
  rw [hrecord, hsome, Option.getD_some]
  dsimp only
  rw [nonEmpty_of_notBlank hlabel, nonEmpty_of_notBlank hstate]
  rfl

/-- The codec of a certified report is one of two, with all its fields. -/
theorem validateCodec_ok (authority : RunnerReportAuthority) (h : Certified config corpus e) :
    notBlank (buildReport config authority corpus e).codec.commit = true ∧
    notBlank (buildReport config authority corpus e).codec.profile = true ∧
    notBlank (buildReport config authority corpus e).codec.id = true ∧
    0 < (buildReport config authority corpus e).codec.advertisedMtu := by
  rcases codec_of_certified authority h with ⟨-, hcodec⟩ | ⟨-, hcodec⟩
  · rw [hcodec]
    exact ⟨notBlank_ofList _ rfl, notBlank_ofList _ rfl, notBlank_ofList _ rfl, by decide⟩
  · rw [hcodec]
    exact ⟨notBlank_ofList _ rfl, notBlank_ofList _ rfl, notBlank_ofList _ rfl, by decide⟩

/-- The qualification of a certified report is accepted. -/
theorem validateQualification_ok (authority : RunnerReportAuthority) (htaken : Taken e)
    (h : Certified config corpus e) :
    validateQualification (some (buildReport config authority corpus e).qualification) =
      .ok () := by
  have htiming := htaken.reported.timing
  rw [qualification_of_certified authority h]
  unfold validateQualification
  dsimp only
  rw [validateDeadline_ok htiming rfl rfl rfl, validateFallback_ok htiming rfl rfl rfl rfl rfl]
  rfl

/-- A certified report of a runner with all its fields is accepted as it is stored. -/
theorem validateMachineReport_ok (tunEvidence : TunEvidence) (hcorpus : WellFormedCorpus corpus)
    (hrunner : RunnerFields config authority) (htaken : Taken e) (h : Certified config corpus e) :
    validateMachineReport corpus (stored (buildReport config authority corpus e) tunEvidence) =
      .ok (stored (buildReport config authority corpus e) tunEvidence) := by
  obtain ⟨hversion, haudio⟩ := validateAudio_ok authority tunEvidence htaken h
  obtain ⟨hcommit, hprofile, hid, hmtu⟩ := validateCodec_ok authority h
  have hqualification := validateQualification_ok authority htaken h
  have hlines := validateLines_ok hcorpus h
  have hreasons : (buildReport config authority corpus e).reasonCodes.all notBlank = true :=
    List.all_eq_true.mpr (proper_reportReasons _ htaken.reasons _)
  have hmachine : validateMachine (stored (buildReport config authority corpus e)
      tunEvidence).machine = .ok () := by
    have hname : notBlank (buildReport config authority corpus e).hostName = true :=
      hrunner.machineId
    have hos : notBlank (buildReport config authority corpus e).os = true := hrunner.os
    have harchitecture : notBlank (buildReport config authority corpus e).architecture = true :=
      hrunner.architecture
    have hbuild : notBlank (buildReport config authority corpus e).commit = true :=
      notBlank_of_isCommit hrunner.commit
    unfold validateMachine stored
    dsimp only
    rw [nonEmpty_of_notBlank hname, nonEmpty_of_notBlank hos, nonEmpty_of_notBlank harchitecture,
      nonEmpty_of_notBlank hversion, nonEmpty_of_notBlank hbuild]
    rfl
  have hphysical : decide ((stored (buildReport config authority corpus e)
      tunEvidence).evidenceClass = .openAir) = true := decide_eq_true hrunner.openAir
  have hschema : require (decide ((stored (buildReport config authority corpus e)
      tunEvidence).schemaVersion = 1)) "schema_unsupported" = .ok () := rfl
  have hepoch : integerNonNegative (stored (buildReport config authority corpus e)
      tunEvidence).epoch "epoch_invalid" = .ok () := integerNonNegative_of_le htaken.epoch
  have hcodecCommit : nonEmpty (stored (buildReport config authority corpus e)
      tunEvidence).codec.commit "codec_commit_required" = .ok () := nonEmpty_of_notBlank hcommit
  have hcodecProfile : nonEmpty (stored (buildReport config authority corpus e)
      tunEvidence).codec.profile "codec_profile_required" = .ok () := nonEmpty_of_notBlank hprofile
  have hcodecMtu : require (decide (0 < (stored (buildReport config authority corpus e)
      tunEvidence).codec.advertisedMtu)) "advertised_mtu_invalid" = .ok () :=
    require_of_true (decide_eq_true hmtu)
  have hreasonCodes : require ((stored (buildReport config authority corpus e)
      tunEvidence).reasonCodes.all (·.all notBlank)) "reason_codes_invalid" = .ok () :=
    require_of_true hreasons
  have hbuild : require (isCommit (stored (buildReport config authority corpus e)
      tunEvidence).machine.commit) "build_identity_invalid" = .ok () :=
    require_of_true hrunner.commit
  have hcodecId : nonEmpty (stored (buildReport config authority corpus e)
      tunEvidence).codec.id "codec_id_required" = .ok () := nonEmpty_of_notBlank hid
  have hrecord : validateQualification (stored (buildReport config authority corpus e)
      tunEvidence).qualification = .ok () := hqualification
  have hresults : (stored (buildReport config authority corpus e) tunEvidence).results.forM
      (validateResult corpus true (stored (buildReport config authority corpus e)
        tunEvidence).epoch) = .ok () := hlines
  unfold validateMachineReport
  dsimp only
  rw [hphysical, hschema, hmachine, hepoch, hcodecCommit, hcodecProfile, hcodecMtu, haudio,
    hreasonCodes, if_pos rfl, hbuild, hcodecId, hrecord, hresults]
  rfl

end Acceptance

section Selection

variable {config : RunnerQualificationConfig} {authority : RunnerReportAuthority}
variable {corpus : List CorpusEntry} {e : Evidence} {tunEvidence : TunEvidence}

/-- Evidence that a host has shown its TUN device to work. -/
structure ExactHost (tunEvidence : TunEvidence) : Prop where
  /-- It is valid. -/
  valid : validateTunEvidence tunEvidence = .ok tunEvidence
  /-- It was taken on the host itself. -/
  source : tunEvidence.source = .exactHost
  /-- It passed. -/
  status : tunEvidence.status = .passed

/-- All checks of such evidence passed. -/
theorem ExactHost.checks (h : ExactHost tunEvidence) :
    tunEvidenceChecks.any (fun check => tunEvidence.checks check ≠ .passed) = false := by
  have hvalid := h.valid
  unfold validateTunEvidence at hvalid
  obtain ⟨_, -, hvalid⟩ := bind_ok hvalid
  obtain ⟨_, -, hvalid⟩ := bind_ok hvalid
  obtain ⟨_, -, hvalid⟩ := bind_ok hvalid
  obtain ⟨_, -, hvalid⟩ := bind_ok hvalid
  obtain ⟨_, -, hvalid⟩ := bind_ok hvalid
  obtain ⟨_, -, hvalid⟩ := bind_ok hvalid
  obtain ⟨_, -, hvalid⟩ := bind_ok hvalid
  obtain ⟨_, -, hvalid⟩ := bind_ok hvalid
  obtain ⟨_, -, hvalid⟩ := bind_ok hvalid
  obtain ⟨_, hconsistent, -⟩ := bind_ok hvalid
  unfold require at hconsistent
  split at hconsistent
  · next hpassed =>
    rw [h.status, h.source, decide_eq_true rfl, Bool.true_and, Bool.not_eq_true',
      Bool.or_eq_false_iff, Bool.or_eq_false_iff] at hpassed
    exact hpassed.1.1
  · cases hconsistent

/-- A line that is new and faultless where it is observed gives no reason. -/
theorem mergeLine_of_faultless {keys reasons : List String} {line : MachineResult}
    (hfresh : line.caseId ∉ keys) (hfaultless : line.observed = true → Faultless line) :
    mergeLine (keys, reasons) line = (line.caseId :: keys, reasons) := by
  have honce : (decide (line.caseId ∈ keys) || line.observed &&
      (decide (line.duplicates > 0) || decide (line.deliveryCount ≠ 1))) = false := by
    cases hobserved : line.observed with
    | false => simp [hfresh]
    | true =>
      have hgood := hfaultless hobserved
      simp [hfresh, hgood.duplicates, hgood.deliveryCount]
  have hexact : (line.observed && (decide (line.receivedSha256 ≠ some line.expectedSha256) ||
      !line.bytePerfect || line.corrupt)) = false := by
    cases hobserved : line.observed with
    | false => rfl
    | true =>
      have hgood := hfaultless hobserved
      simp [hgood.digest, hgood.bytePerfect, hgood.corrupt]
  have hwhole : (line.observed && (!line.complete || decide (line.missing > 0))) = false := by
    cases hobserved : line.observed with
    | false => rfl
    | true =>
      have hgood := hfaultless hobserved
      simp [hgood.complete, hgood.missing]
  unfold mergeLine
  dsimp only
  rw [addReasonIf_of_false honce, addReasonIf_of_false hexact, addReasonIf_of_false hwhole]

/-- Lines of different cases that are faultless where they are observed give no reason. -/
theorem foldl_mergeLine (lines : List MachineResult) (keys reasons : List String)
    (hnodup : (lines.map (·.caseId)).Nodup)
    (hfaultless : ∀ line ∈ lines, line.observed = true → Faultless line)
    (hfresh : ∀ line ∈ lines, line.caseId ∉ keys) :
    (lines.foldl mergeLine (keys, reasons)).2 = reasons := by
  induction lines generalizing keys with
  | nil => rfl
  | cons line lines ih =>
    rw [List.map_cons, List.nodup_cons] at hnodup
    rw [List.foldl_cons, mergeLine_of_faultless (hfresh line List.mem_cons_self)
      (hfaultless line List.mem_cons_self)]
    refine ih _ hnodup.2 (fun other hother => hfaultless other (List.mem_cons_of_mem _ hother)) ?_
    intro other hother hmem
    rcases List.mem_cons.mp hmem with heq | hold
    · apply hnodup.1
      rw [← heq]
      exact List.mem_map_of_mem hother
    · exact hfresh other (List.mem_cons_of_mem _ hother) hold

/-- The lines of a report have different cases. -/
theorem nodup_linesOf (hcorpus : WellFormedCorpus corpus) (role : RunnerRole) (e : Evidence) :
    ((linesOf corpus role e).map (·.caseId)).Nodup := by
  have hids : (linesOf corpus role e).map (·.caseId) =
      (expectedCorpus corpus role).map (·.id) := by
    unfold linesOf
    rw [List.map_map]
    apply List.map_congr_left
    intro entry _
    exact (canonicalResult_case role e entry).2.2.1
  rw [hids]
  exact hcorpus.nodup.sublist (List.filter_sublist.map _)

/-- The lines of a certified report give no reason against it. -/
theorem corpusReasons_of_certified (authority : RunnerReportAuthority) (tunEvidence : TunEvidence)
    (hcorpus : WellFormedCorpus corpus) (h : Certified config corpus e) {selected : Option CodecId}
    (hselected : selected ≠ some .cyrinx → e.snapshot.codec = .quiet) (reasons : List String) :
    corpusReasons corpus selected (expectedDirection config.role)
      (stored (buildReport config authority corpus e) tunEvidence) reasons = reasons := by
  have hclean := h.clean
  have hlines : (stored (buildReport config authority corpus e) tunEvidence).results =
      linesOf corpus config.role e := rfl
  have hdirection : ∀ line ∈ linesOf corpus config.role e,
      line.direction = expectedDirection config.role := by
    intro line hline
    obtain ⟨entry, -, -, rfl⟩ := case_of_line hline
    exact (canonicalResult_case config.role e entry).2.1
  have hsame : (linesOf corpus config.role e).filter
      (fun line => decide (line.direction = expectedDirection config.role)) =
      linesOf corpus config.role e :=
    List.filter_eq_self.mpr (fun line hline => decide_eq_true (hdirection line hline))
  have hcases : corpus.filter (fun entry => decide (entry.direction =
      expectedDirection config.role)) = expectedCorpus corpus config.role := rfl
  have hqualifying : qualifying = good := rfl
  have hforeign : (linesOf corpus config.role e).any
      (fun line => decide (line.direction ≠ expectedDirection config.role)) = false := by
    rw [List.any_eq_false]
    intro line hline
    simp [hdirection line hline]
  have hmissing : (decide ((linesOf corpus config.role e).length ≠
      (expectedCorpus corpus config.role).length) ||
      (expectedCorpus corpus config.role).any (fun entry =>
        !(linesOf corpus config.role e).any (fun line => decide (line.caseId = entry.id)))) =
      false := by
    have hlength : (linesOf corpus config.role e).length =
        (expectedCorpus corpus config.role).length := List.length_map _
    rw [hlength, Bool.or_eq_false_iff, List.any_eq_false]
    refine ⟨decide_eq_false (not_not.mpr rfl), ?_⟩
    intro entry hentry
    rw [Bool.not_eq_true, Bool.not_eq_false', List.any_eq_true]
    exact ⟨canonicalResult config.role e entry, List.mem_map_of_mem hentry,
      decide_eq_true (canonicalResult_case config.role e entry).2.2.1⟩
  have henough : (decide ((((linesOf corpus config.role e).filter good).filter
      (fun line => decide (line.size = 256))).length < 19) ||
      decide ((((linesOf corpus config.role e).filter good).filter
        (fun line => decide (line.size = 1536))).length < 5)) = false := by
    rw [Bool.or_eq_false_iff]
    exact ⟨decide_eq_false (not_lt.mpr hclean.short), decide_eq_false (not_lt.mpr hclean.long)⟩
  have hcold : (decide (selected ≠ some .cyrinx) &&
      !(expectedCorpus corpus config.role).head?.any (fun cold =>
        ((linesOf corpus config.role e).filter good).any (fun line =>
          decide (line.caseId = cold.id) && line.coldAcquired))) = false := by
    by_cases hcyrinx : selected = some .cyrinx
    · rw [hcyrinx]
      rfl
    · have hpassed := hclean.cold
      have hother : e.snapshot.codec ≠ .cyrinx := by
        rw [hselected hcyrinx]
        decide
      unfold coldPassed at hpassed
      rw [if_neg hother] at hpassed
      rw [hpassed, Bool.not_true, Bool.and_false]
  have hrecord : (stored (buildReport config authority corpus e) tunEvidence).qualification =
      some (buildReport config authority corpus e).qualification := rfl
  have hqualification := qualification_of_certified authority h
  have hairtime : (qualificationOr true (stored (buildReport config authority corpus e)
      tunEvidence) (fun q => decide (q.deadLinkTimeoutMs ≠ qualificationDeadLinkTimeoutMs)) ||
      (ReportValidation.p95 (((linesOf corpus config.role e).filter good).map (·.airtimeMs))).all
        (fun value => decide (value ≥ qualificationDeadLinkTimeoutMs / 3))) = false := by
    rw [Bool.or_eq_false_iff]
    refine ⟨?_, hclean.airtime⟩
    unfold qualificationOr
    rw [hrecord, hqualification]
    exact decide_eq_false (not_not.mpr rfl)
  have hgate : (qualificationOr true (stored (buildReport config authority corpus e)
      tunEvidence) (fun q => decide (q.physicalGate ≠ .passed)) ||
      !(stored (buildReport config authority corpus e) tunEvidence).complete) = false := by
    have hcomplete : (stored (buildReport config authority corpus e) tunEvidence).complete =
        (physicalGate config (expectedCorpus corpus config.role) e
          (linesOf corpus config.role e)).1 := rfl
    rw [Bool.or_eq_false_iff, hcomplete, h.gate]
    refine ⟨?_, rfl⟩
    unfold qualificationOr
    rw [hrecord, hqualification]
    exact decide_eq_false (not_not.mpr rfl)
  have hkeys := foldl_mergeLine (linesOf corpus config.role e) [] reasons
    (nodup_linesOf hcorpus config.role e) hclean.faultless (fun _ _ hmem => by cases hmem)
  unfold corpusReasons
  dsimp only
  rw [hlines, hsame, hcases, hqualifying, addReasonIf_of_false hforeign,
    addReasonIf_of_false hmissing, hkeys, addReasonIf_of_false henough,
    addReasonIf_of_false hcold, addReasonIf_of_false hairtime, addReasonIf_of_false hgate]

/-- A stored report whose host, audio and queues are fit. -/
structure Fit (report : StoredReport) : Prop where
  /-- The evidence is physical. -/
  openAir : report.evidenceClass = .openAir
  /-- The runner's stamp belongs to it. -/
  runner : runnerUnfit report = false
  /-- The audio is as required. -/
  audio : audioUnfit report.audio = false
  /-- The queues kept their bounds. -/
  queues : queuesUnfit report.queues = false
  /-- There were no gaps. -/
  discontinuities : report.queues.discontinuities = 0
  /-- The host has shown its TUN device to work. -/
  tun : tunUnfit report = false

/-- A certified report of an exact host is fit. -/
theorem fit_of_certified (hrunner : RunnerFields config authority) (hhost : ExactHost tunEvidence)
    (h : Certified config corpus e) :
    Fit (stored (buildReport config authority corpus e) tunEvidence) := by
  refine ⟨hrunner.openAir, ?_, ?_, h.clean.queues, h.clean.discontinuities, ?_⟩
  · have htarget : (buildReport config authority corpus e).reportTarget ≠ "" :=
      hrunner.reportTarget
    unfold runnerUnfit stored
    simp [htarget]
  · have haudio := h.clean.audio
    cases hsome : e.audio with
    | none =>
      rw [hsome] at haudio
      cases haudio
    | some audio =>
      have hrecord : (buildReport config authority corpus e).audio =
          e.audio.getD unavailableAudio := rfl
      rw [hsome] at haudio
      unfold audioPassed at haudio
      rw [Option.any_some] at haudio
      simp only [Bool.and_eq_true, decide_eq_true_eq, Bool.or_eq_true, Bool.not_eq_true'] at haudio
      obtain ⟨⟨⟨⟨⟨⟨⟨⟨⟨hlabel, hstate⟩, hrate⟩, hchannels⟩, hcontext⟩, hcapture⟩, hmono⟩, hecho⟩,
        hnoise⟩, hgain⟩ := haudio
      unfold audioUnfit stored
      rw [hrecord, hsome, Option.getD_some]
      simp only [Option.all_some, hlabel, hstate, hcontext, hcapture, hmono, hecho, hnoise, hgain,
        Bool.or_eq_false_iff, Bool.and_eq_false_iff, decide_eq_false_iff_not, ne_eq, not_not,
        not_true, not_false_eq_true, and_self, and_true, true_and]
      exact ⟨hrate, hchannels⟩
  · unfold tunUnfit stored
    dsimp only
    rw [hhost.valid]
    dsimp only
    rw [hhost.checks, hhost.source, hhost.status]
    rfl

/-- The record of a codec. -/
def recordOf : CodecId → CodecRecord
  | .quiet => quietCodec
  | .cyrinx => cyrinxCodec

/-- The codec of a record is read back from it. -/
theorem exactCodec_recordOf (codec : CodecId) : exactCodec (recordOf codec) = some codec := by
  cases codec
  · decide
  · decide

/-- A stored report whose qualification allows the selection of its codec. -/
structure Eligible (codec : CodecId) (report : StoredReport) : Prop where
  /-- It names the codec. -/
  record : report.codec = recordOf codec
  /-- Its times are there, and the stage and the fallback are those for the codec. -/
  qualification : ∃ q, report.qualification = some q ∧ q.startedAtMs ≠ none ∧
    q.deadlineAtMs ≠ none ∧ q.elapsedMs ≠ none ∧
    (codec = .quiet → q.fallbackState = .activated ∧ q.reasonCode ≠ none ∧ q.stage = .quiet) ∧
    (codec = .cyrinx → q.fallbackState = .available ∧ q.reasonCode = none ∧ q.stage = .complete ∧
      q.coldReceivePassed = true)

/-- A certified report is eligible for the codec of its session. -/
theorem eligible_of_certified (authority : RunnerReportAuthority) (tunEvidence : TunEvidence)
    (htaken : Taken e) (h : Certified config corpus e) :
    (e.snapshot.codec = .cyrinx ∧
      Eligible .cyrinx (stored (buildReport config authority corpus e) tunEvidence)) ∨
    (e.snapshot.codec = .quiet ∧
      Eligible .quiet (stored (buildReport config authority corpus e) tunEvidence)) := by
  have hreported := htaken.reported
  have hrecord : (stored (buildReport config authority corpus e) tunEvidence).qualification =
      some (buildReport config authority corpus e).qualification := rfl
  rw [qualification_of_certified authority h] at hrecord
  have hstamped : e.snapshot.startedAtMs ≠ none → e.snapshot.deadlineAtMs ≠ none ∧
      e.snapshot.elapsedMs ≠ none := by
    intro hne
    rcases hreported.timing.stamped with ⟨hnone, -⟩ | ⟨startedAtMs, elapsedMs, -, hsome, hsome', -⟩
    · exact absurd hnone hne
    · rw [hsome, hsome']
      exact ⟨Option.some_ne_none _, Option.some_ne_none _⟩
  rcases codec_of_certified authority h with ⟨hcodec, hname⟩ | ⟨hcodec, hname⟩
  · obtain ⟨hstarted, hstate⟩ := hreported.cyrinx hcodec
    obtain ⟨hdeadline, helapsed⟩ := hstamped hstarted
    have hreason := hreported.timing.available.mp hstate
    rcases h.stage with ⟨-, hstage, hcold⟩ | hquiet
    · refine .inl ⟨hcodec, hname, _, hrecord, hstarted, hdeadline, helapsed, ?_, ?_⟩
      · intro heq
        cases heq
      · exact fun _ => ⟨hstate, hreason, hstage, hcold⟩
    · rw [hcodec] at hquiet
      cases hquiet
  · obtain ⟨hstage, hstate⟩ := hreported.quiet hcodec
    have hused : e.snapshot.fallbackState ≠ .available := by
      rw [hstate]
      decide
    have hstarted := hreported.timing.used hused
    obtain ⟨hdeadline, helapsed⟩ := hstamped hstarted
    have hreason : e.snapshot.reasonCode ≠ none :=
      fun hnone => hused (hreported.timing.available.mpr hnone)
    refine .inr ⟨hcodec, hname, _, hrecord, hstarted, hdeadline, helapsed, ?_, ?_⟩
    · exact fun _ => ⟨hstate, hreason, hstage⟩
    · intro heq
      cases heq

variable {a b : StoredReport}

/-- Two fit reports of the expected hosts and roles, built of one commit, give no reason. -/
theorem identityReasons_of_fit {expectedHosts : String × String} (ha : Fit a) (hb : Fit b)
    (hdistinct : expectedHosts.1 ≠ expectedHosts.2)
    (hhosts : a.machine.hostName = expectedHosts.1 ∧ b.machine.hostName = expectedHosts.2)
    (hroles : a.runner.map (·.role) = some .a ∧ b.runner.map (·.role) = some .b)
    (hcommit : a.machine.commit = b.machine.commit) (reasons : List String) :
    identityReasons expectedHosts a b reasons = reasons := by
  unfold identityReasons
  dsimp only
  simp only [List.any_cons, List.any_nil, ha.openAir, hb.openAir, ha.runner, hb.runner, hhosts,
    hroles, hcommit, hdistinct, ne_eq, not_true, decide_false, Bool.or_self, addReasonIf_of_false]

/-- Two fit reports give no reason about their evidence. -/
theorem evidenceReasons_of_fit (ha : Fit a) (hb : Fit b) (reasons : List String) :
    evidenceReasons [a, b] reasons = reasons := by
  unfold evidenceReasons
  dsimp only
  simp only [List.any_cons, List.any_nil, List.foldl_cons, List.foldl_nil, ha.audio, hb.audio,
    ha.queues, hb.queues, ha.discontinuities, hb.discontinuities, ha.tun, hb.tun, ne_eq, not_true,
    decide_false, Bool.or_self, addReasonIf_of_false]

/-- Two reports eligible for a codec give no reason against it. -/
theorem codecReasons_of_eligible {codec : CodecId} (ha : Eligible codec a) (hb : Eligible codec b)
    (reasons : List String) : codecReasons (recordOf codec) [a, b] reasons = reasons := by
  obtain ⟨hcodecA, qa, hqa, hstartA, hdeadlineA, helapsedA, hquietA, hcyrinxA⟩ := ha
  obtain ⟨hcodecB, qb, hqb, hstartB, hdeadlineB, helapsedB, hquietB, hcyrinxB⟩ := hb
  have hsame : a.codec = recordOf codec ∧ b.codec = recordOf codec := ⟨hcodecA, hcodecB⟩
  have hprofile : (recordOf codec).audible = true ∧ ¬(recordOf codec).advertisedMtu < 1357 := by
    cases codec
    · decide
    · decide
  unfold codecReasons qualificationOr
  dsimp only
  rw [exactCodec_recordOf]
  cases codec with
  | quiet =>
    obtain ⟨hstateA, hreasonA, hstageA⟩ := hquietA rfl
    obtain ⟨hstateB, hreasonB, hstageB⟩ := hquietB rfl
    simp only [List.any_cons, List.any_nil, hqa, hqb, hsame, hprofile, hstartA, hstartB,
      hdeadlineA, hdeadlineB, helapsedA, helapsedB, hstateA, hstateB, hreasonA, hreasonB, hstageA,
      hstageB, reduceCtorEq, Option.some.injEq, ne_eq, not_true, decide_false, decide_true,
      Bool.not_true, Bool.or_self, Bool.and_false, Bool.false_and, addReasonIf_of_false]
  | cyrinx =>
    obtain ⟨hstateA, hreasonA, hstageA, hcoldA⟩ := hcyrinxA rfl
    obtain ⟨hstateB, hreasonB, hstageB, hcoldB⟩ := hcyrinxB rfl
    simp only [List.any_cons, List.any_nil, hqa, hqb, hsame, hprofile, hstartA, hstartB,
      hdeadlineA, hdeadlineB, helapsedA, helapsedB, hstateA, hstateB, hreasonA, hreasonB, hstageA,
      hstageB, hcoldA, hcoldB, reduceCtorEq, Option.some.injEq, ne_eq, not_true, decide_false,
      decide_true, Bool.not_true, Bool.or_self, Bool.and_false, Bool.false_and,
      addReasonIf_of_false]

/-- Certified reports with equal codec records are eligible for one codec, which their sessions
have. -/
theorem eligible_of_equal_codec {configA configB : RunnerQualificationConfig}
    {authorityA authorityB : RunnerReportAuthority} {evidenceA evidenceB : Evidence}
    (tunA tunB : TunEvidence) (htakenA : Taken evidenceA) (htakenB : Taken evidenceB)
    (hA : Certified configA corpus evidenceA) (hB : Certified configB corpus evidenceB)
    (hcodec : (buildReport configA authorityA corpus evidenceA).codec =
      (buildReport configB authorityB corpus evidenceB).codec) :
    ∃ codec, Eligible codec (stored (buildReport configA authorityA corpus evidenceA) tunA) ∧
      Eligible codec (stored (buildReport configB authorityB corpus evidenceB) tunB) ∧
      (some codec ≠ some .cyrinx → evidenceA.snapshot.codec = .quiet) ∧
      (some codec ≠ some .cyrinx → evidenceB.snapshot.codec = .quiet) := by
  have hdifferent : cyrinxCodec ≠ quietCodec := by decide
  rcases eligible_of_certified authorityA tunA htakenA hA with
    ⟨hcodecA, heligibleA⟩ | ⟨hcodecA, heligibleA⟩
  · rcases eligible_of_certified authorityB tunB htakenB hB with
      ⟨hcodecB, heligibleB⟩ | ⟨hcodecB, heligibleB⟩
    · exact ⟨.cyrinx, heligibleA, heligibleB, fun hne => absurd rfl hne, fun hne => absurd rfl hne⟩
    · have hrecordA : (buildReport configA authorityA corpus evidenceA).codec = cyrinxCodec :=
        heligibleA.record
      have hrecordB : (buildReport configB authorityB corpus evidenceB).codec = quietCodec :=
        heligibleB.record
      rw [hrecordA, hrecordB] at hcodec
      exact absurd hcodec hdifferent
  · rcases eligible_of_certified authorityB tunB htakenB hB with
      ⟨hcodecB, heligibleB⟩ | ⟨hcodecB, heligibleB⟩
    · have hrecordA : (buildReport configA authorityA corpus evidenceA).codec = quietCodec :=
        heligibleA.record
      have hrecordB : (buildReport configB authorityB corpus evidenceB).codec = cyrinxCodec :=
        heligibleB.record
      rw [hrecordA, hrecordB] at hcodec
      exact absurd hcodec.symm hdifferent
    · exact ⟨.quiet, heligibleA, heligibleB, fun _ => hcodecA, fun _ => hcodecB⟩

/-- Two reports that are accepted, fit and eligible for one codec, whose lines give no reason,
select the codec. -/
theorem mergeSelection_selected {codec : CodecId} {expectedHosts : String × String}
    (hvalidA : validateMachineReport corpus a = .ok a)
    (hvalidB : validateMachineReport corpus b = .ok b) (hfitA : Fit a) (hfitB : Fit b)
    (heligibleA : Eligible codec a) (heligibleB : Eligible codec b)
    (hdistinct : expectedHosts.1 ≠ expectedHosts.2)
    (hhosts : a.machine.hostName = expectedHosts.1 ∧ b.machine.hostName = expectedHosts.2)
    (hroles : a.runner.map (·.role) = some .a ∧ b.runner.map (·.role) = some .b)
    (hcommit : a.machine.commit = b.machine.commit)
    (hlinesA : corpusReasons corpus (some codec) .bToA a [] = [])
    (hlinesB : corpusReasons corpus (some codec) .aToB b [] = []) :
    mergeSelection corpus expectedHosts a b =
      .ok ⟨expectedHosts, .selected codec, [], (a, b)⟩ := by
  have hselected : exactCodec a.codec = some codec := by
    rw [heligibleA.record]
    exact exactCodec_recordOf codec
  have hcodecs : codecReasons a.codec [a, b] [] = [] := by
    rw [heligibleA.record]
    exact codecReasons_of_eligible heligibleA heligibleB []
  have hphysical : (decide (a.evidenceClass ≠ .openAir) || decide (b.evidenceClass ≠ .openAir)) =
      false := by
    rw [hfitA.openAir, hfitB.openAir]
    rfl
  have hbind : ∀ (report : StoredReport) (rest : StoredReport → Except String SelectionReport),
      ((Except.ok report : Except String StoredReport) >>= rest) = rest report :=
    fun _ _ => rfl
  unfold mergeSelection
  rw [hvalidA, hbind, hvalidB, hbind]
  dsimp only
  rw [identityReasons_of_fit hfitA hfitB hdistinct hhosts hroles hcommit,
    evidenceReasons_of_fit hfitA hfitB, hcodecs, hselected, hlinesA, hlinesB, hphysical]
  rfl

end Selection

section Agreement

/-- What a bridge has recorded: its session is one that operations lead to, with times that are
exact, its audio settings were parsed and its reasons are not blank. -/
structure Recorded (corpus : List CorpusEntry) (role : RunnerRole) (t : Trial) : Prop where
  /-- The session comes from operations. -/
  session : ∃ operations, t.session = run (perform corpus role) {} operations
  /-- Its deadline is exact. -/
  start : ∀ startedAtMs, t.session.startedAtMs = some startedAtMs →
    startedAtMs + cyrinxDeadlineMs ≤ maxSafeInteger
  /-- The audio settings were parsed. -/
  audio : ∀ audio, t.audio = some audio → ∃ payload, parseBrowserAudio payload = .ok audio
  /-- No reason is blank. -/
  reasons : Proper t.failureReasons

/-- The build of a report in open air. -/
structure OpenAirBuild where
  /-- Configuration of the runner. -/
  config : RunnerQualificationConfig
  /-- What the runner vouches for. -/
  authority : RunnerReportAuthority
  /-- What the bridge has recorded. -/
  trial : Trial
  /-- Epoch. -/
  epoch : ℕ
  /-- Acoustic frames lost. -/
  discontinuities : ℕ
  /-- Time of the build. -/
  nowMs : ℕ
  /-- The fields of the runner are filled in. -/
  runner : RunnerFields config authority
  /-- The bridge recorded what it can. -/
  recorded : Recorded manifestCases config.role trial
  /-- The epoch is one the bridge reaches. -/
  epoch_le : epoch ≤ 0xffffffff
  /-- The time is exact. -/
  nowMs_le : nowMs ≤ maxSafeInteger

/-- The report that is built, after expiry at the same time. -/
def OpenAirBuild.report (build : OpenAirBuild) : Option MachineReport :=
  (reportNow ⟨some build.config, some build.authority, manifestCases⟩ build.epoch
    build.discontinuities build.nowMs (settleExpiry build.nowMs build.trial).2).1

/-- The evidence it is built of. -/
def OpenAirBuild.evidence (build : OpenAirBuild) : Evidence :=
  let t := (settleExpiry build.nowMs build.trial).2
  let (published, session) := snapshot manifestCases build.config.role build.epoch build.nowMs
    t.session
  evidenceOf build.epoch build.discontinuities published { t with session }

theorem OpenAirBuild.report_eq (build : OpenAirBuild) : build.report =
    some (buildReport build.config build.authority manifestCases build.evidence) := rfl

/-- Expiry leaves the session that expired, the audio, and reasons that are not blank. -/
theorem settleExpiry_recorded (nowMs : ℕ) {t : Trial} (h : Proper t.failureReasons) :
    (settleExpiry nowMs t).2.session = (expire nowMs t.session).2 ∧
    (settleExpiry nowMs t).2.audio = t.audio ∧ Proper (settleExpiry nowMs t).2.failureReasons := by
  unfold settleExpiry
  split
  · next session hexpire =>
    rw [hexpire]
    exact ⟨rfl, rfl, h⟩
  · next session hexpire =>
    rw [hexpire]
    exact ⟨rfl, rfl, h.addReason (notBlank_ofList _ rfl)⟩

/-- The evidence of a build is what a bridge takes. -/
theorem OpenAirBuild.taken (build : OpenAirBuild) : Taken build.evidence := by
  obtain ⟨hsession, haudio, hreasons⟩ :=
    settleExpiry_recorded build.nowMs build.recorded.reasons
  obtain ⟨operations, hoperations⟩ := build.recorded.session
  have hstart := build.recorded.start
  rw [hoperations] at hsession hstart
  have hsafe : 0xffffffff ≤ maxSafeInteger := by decide
  refine ⟨build.epoch_le.trans hsafe, ?_, hreasons, ?_⟩
  · intro audio hsome
    have htrial : (settleExpiry build.nowMs build.trial).2.audio = some audio := hsome
    rw [haudio] at htrial
    exact build.recorded.audio audio htrial
  · have hreported := reported_snapshot manifestCases build.config.role operations build.epoch
      build.nowMs build.nowMs_le hstart
    rw [← hsession] at hreported
    exact hreported

/-- The two evaluators of the gate agree. When two bridges of the roles A and B, on the two
expected hosts, with builds of one commit, valid evidence of their hosts and equal codec records,
both build a complete report, each report is accepted as it is stored and the merge selects their
codec without a reason against it. -/
theorem gates_agree (a b : OpenAirBuild) (reportA reportB : MachineReport)
    (tunA tunB : TunEvidence) (expectedHosts : String × String)
    (hreports : a.report = some reportA ∧ b.report = some reportB)
    (hroles : a.config.role = .a ∧ b.config.role = .b)
    (hdistinct : expectedHosts.1 ≠ expectedHosts.2)
    (hhosts : a.config.machineId = expectedHosts.1 ∧ b.config.machineId = expectedHosts.2)
    (hcommit : a.authority.commit = b.authority.commit)
    (htun : ExactHost tunA ∧ ExactHost tunB) (hcodec : reportA.codec = reportB.codec)
    (hcomplete : reportA.complete = true ∧ reportB.complete = true) :
    validateMachineReport manifestCases (stored reportA tunA) = .ok (stored reportA tunA) ∧
    validateMachineReport manifestCases (stored reportB tunB) = .ok (stored reportB tunB) ∧
    ∃ codec, recordOf codec = reportA.codec ∧
      mergeSelection manifestCases expectedHosts (stored reportA tunA) (stored reportB tunB) =
        .ok ⟨expectedHosts, .selected codec, [], (stored reportA tunA, stored reportB tunB)⟩ := by
  obtain ⟨hreportA, hreportB⟩ := hreports
  rw [OpenAirBuild.report_eq, Option.some.injEq] at hreportA hreportB
  subst hreportA hreportB
  have hcertifiedA := certified_of_complete a.runner.openAir hcomplete.1
  have hcertifiedB := certified_of_complete b.runner.openAir hcomplete.2
  have hvalidA := validateMachineReport_ok tunA wellFormed_manifestCases a.runner a.taken
    hcertifiedA
  have hvalidB := validateMachineReport_ok tunB wellFormed_manifestCases b.runner b.taken
    hcertifiedB
  refine ⟨hvalidA, hvalidB, ?_⟩
  have hfitA := fit_of_certified a.runner htun.1 hcertifiedA
  have hfitB := fit_of_certified b.runner htun.2 hcertifiedB
  obtain ⟨codec, heligibleA, heligibleB, hquietA, hquietB⟩ :=
    eligible_of_equal_codec tunA tunB a.taken b.taken hcertifiedA hcertifiedB hcodec
  have hlinesA := corpusReasons_of_certified a.authority tunA wellFormed_manifestCases hcertifiedA
    hquietA []
  have hlinesB := corpusReasons_of_certified b.authority tunB wellFormed_manifestCases hcertifiedB
    hquietB []
  rw [hroles.1] at hlinesA
  rw [hroles.2] at hlinesB
  exact ⟨codec, heligibleA.record.symm, mergeSelection_selected hvalidA hvalidB hfitA hfitB
    heligibleA heligibleB hdistinct hhosts ⟨congrArg some hroles.1, congrArg some hroles.2⟩
    hcommit hlinesA hlinesB⟩

end Agreement

section Bench

/-- A flawless result the browser reports of a case on the bench. -/
def benchBrowserResult (entry : CorpusEntry) : BrowserResult where
  epoch := 1
  caseId := entry.id
  receivedSha256 := some entry.sha256
  acquisitionMs := 10
  airtimeMs := 2000
  deliveryCount := 1
  bytePerfect := true
  coldAcquired := true
  complete := true
  corrupt := false
  missing := 0
  duplicates := 0
  queues := {}

/-- A flawless result of the native worker. Its longest frame has 2048 samples, so its high-water
mark is no whole number of milliseconds. -/
def benchNativeResult (entry : CorpusEntry) : CyrinxWorker.CyrinxResult String where
  epoch := 1
  direction := entry.direction
  caseId := entry.id
  digest := some entry.sha256
  acquisitionMs := 4031
  airtimeMs := 2000
  complete := true
  corrupt := false
  missing := 0
  duplicates := 0
  deliveryCount := 1
  bytePerfect := true
  coldAcquired := true
  queues :=
    { captureHighWaterBytes := 8232
      captureHighWaterMs :=
        CyrinxWorker.sampleCount (List.replicate 8192 0) / CyrinxWorker.cyrinxSampleRate *
          (1000 : ℕ) }

/-- What a bridge on the bench keeps of a case under a codec. -/
def benchRecord (codec : CodecId) (entry : CorpusEntry) : RecordedResult :=
  match codec with
  | .quiet => ⟨benchBrowserResult entry, .browser .quiet⟩
  | .cyrinx =>
    ⟨BridgeMethods.nativeResult 1 (corpusCase entry) (benchNativeResult entry), .native .cyrinx⟩

/-- The operations of a session that ends under a codec: the fallback at once, or every case
accepted, completed and acknowledged. -/
def benchOperations (codec : CodecId) (role : RunnerRole) : List SessionOperation :=
  match codec with
  | .quiet => [.start 0, .failCurrent 1]
  | .cyrinx => [.start 0, .completeBuild 1, .completeDigital 1] ++
    (orderedCases manifestCases).flatMap (fun value =>
      [.acceptInstruction value.id value.direction 1,
        .completeAccepted (actionFor role value.direction) 1, .acknowledgeAcceptedCompletion])

/-- Audio settings on the bench, as JSON. -/
def benchAudio : List (String × Json) :=
  [("browserVersion", .str "Browser 1"), ("microphoneLabel", .str "Microphone"),
    ("contextState", .str "running"), ("inputDeviceSampleRate", .num 48000),
    ("inputDeviceChannels", .num 1), ("contextSampleRate", .num 48000),
    ("captureSampleRate", .num 48000), ("channels", .num 1), ("echoCancellation", .bool false),
    ("noiseSuppression", .bool false), ("autoGainControl", .bool false)]

/-- What a bridge on the bench has recorded under a codec. -/
def benchTrial (codec : CodecId) (role : RunnerRole) : Trial where
  session := run (perform manifestCases role) {} (benchOperations codec role)
  audio := (parseBrowserAudio benchAudio).toOption
  results := (expectedCorpus manifestCases role).map
    (fun entry => (entry.id, benchRecord codec entry))

/-- The trial of the example began at the time zero. -/
theorem startedAtMs_benchTrial (codec : CodecId) (role : RunnerRole) :
    (benchTrial codec role).session.startedAtMs = some 0 := by
  cases codec
  · cases role
    · decide +kernel
    · decide +kernel
  · cases role
    · decide +kernel
    · decide +kernel

/-- It has recorded what its session has achieved. -/
theorem recorded_benchTrial (codec : CodecId) (role : RunnerRole) :
    Recorded manifestCases role (benchTrial codec role) := by
  refine ⟨⟨_, rfl⟩, ?_, ?_, ?_⟩
  · intro startedAtMs hsome
    rw [startedAtMs_benchTrial, Option.some.injEq] at hsome
    rw [← hsome, Nat.zero_add]
    exact cyrinxDeadlineMs_le
  · intro audio hsome
    have htaken : (parseBrowserAudio benchAudio).toOption = some audio := hsome
    cases hparsed : parseBrowserAudio benchAudio with
    | error refusal =>
      rw [hparsed] at htaken
      cases htaken
    | ok parsed =>
      rw [hparsed] at htaken
      exact ⟨benchAudio, hparsed.trans (congrArg Except.ok (Option.some.inj htaken))⟩
  · intro reason hreason
    cases hreason

/-- A build in open air on the bench. -/
def benchBuild (codec : CodecId) (role : RunnerRole) (machineId : String)
    (hname : notBlank machineId = true) : OpenAirBuild where
  config := { BridgeMoves.benchConfig with machineId, role }
  authority := ⟨String.ofList (List.replicate 40 'a'), "os", "architecture"⟩
  trial := benchTrial codec role
  epoch := 1
  discontinuities := 0
  nowMs := 1
  runner :=
    { openAir := rfl
      machineId := hname
      reportTarget := fun hempty => absurd hempty (by decide : "report" ≠ "")
      os := notBlank_ofList _ rfl
      architecture := notBlank_ofList _ rfl
      commit := by decide +kernel }
  recorded := recorded_benchTrial codec role
  epoch_le := by decide
  nowMs_le := by decide

/-- The build of the left machine, which is role A. -/
def benchLeft (codec : CodecId) : OpenAirBuild :=
  benchBuild codec .a "left" (notBlank_ofList _ rfl)

/-- The build of the right machine, which is role B. -/
def benchRight (codec : CodecId) : OpenAirBuild :=
  benchBuild codec .b "right" (notBlank_ofList _ rfl)

/-- Evidence of a host on the bench. -/
def benchTun : TunEvidence where
  schemaVersion := 1
  source := .exactHost
  status := .passed
  image := "alpine:3.21.3@sha256:" ++ String.ofList (List.replicate 64 'a')
  interfaceName := "fips-preflight0"
  ipv6Address := "fd42:6677:6677::1/64"
  authorities :=
    { devices := ["/dev/net/tun"]
      capabilities := ["NET_ADMIN"]
      securityOptions := ["no-new-privileges:true"]
      privileged := false
      networkMode := "none"
      publishedPorts := [] }
  checks := fun _ => .passed
  errors := []

/-- The host of the example is exact. -/
theorem exactHost_benchTun : ExactHost benchTun := by
  refine ⟨?_, rfl, rfl⟩
  have himage : imagePinned benchTun.image = true := by decide +kernel
  unfold validateTunEvidence
  rw [himage]
  rfl

/-- The reports of two builds are valid, and they select a codec. -/
def Selects (a b : OpenAirBuild) (codec : CodecId) : Prop :=
  ∃ reportA reportB, a.report = some reportA ∧ b.report = some reportB ∧
    validateMachineReport manifestCases (stored reportA benchTun) =
      .ok (stored reportA benchTun) ∧
    validateMachineReport manifestCases (stored reportB benchTun) =
      .ok (stored reportB benchTun) ∧
    recordOf codec = reportA.codec ∧
    mergeSelection manifestCases ("left", "right") (stored reportA benchTun)
      (stored reportB benchTun) =
      .ok ⟨("left", "right"), .selected codec, [],
        (stored reportA benchTun, stored reportB benchTun)⟩

/-- Two bridges on the bench that fell back to Quiet select it, and two that completed the cases
under Cyrinx select that, with a high-water mark of `128 / 3` milliseconds. -/
theorem gates_agree_bench :
    Selects (benchLeft .quiet) (benchRight .quiet) .quiet ∧
      Selects (benchLeft .cyrinx) (benchRight .cyrinx) .cyrinx ∧
      (benchLeft .cyrinx).report.map (·.queues.captureHighWaterMs) = some (128 / 3) := by
  have hselects : ∀ codec : CodecId,
      (buildReport (benchLeft codec).config (benchLeft codec).authority manifestCases
        (benchLeft codec).evidence).codec = recordOf codec ∧
      (buildReport (benchRight codec).config (benchRight codec).authority manifestCases
        (benchRight codec).evidence).codec = recordOf codec ∧
      (buildReport (benchLeft codec).config (benchLeft codec).authority manifestCases
        (benchLeft codec).evidence).complete = true ∧
      (buildReport (benchRight codec).config (benchRight codec).authority manifestCases
        (benchRight codec).evidence).complete = true →
      Selects (benchLeft codec) (benchRight codec) codec := by
    intro codec ⟨hcodecA, hcodecB, hcompleteA, hcompleteB⟩
    obtain ⟨hvalidA, hvalidB, chosen, hrecord, hmerge⟩ :=
      gates_agree (benchLeft codec) (benchRight codec) _ _ benchTun benchTun ("left", "right")
        ⟨OpenAirBuild.report_eq _, OpenAirBuild.report_eq _⟩ ⟨rfl, rfl⟩ (by decide) ⟨rfl, rfl⟩ rfl
        ⟨exactHost_benchTun, exactHost_benchTun⟩ (hcodecA.trans hcodecB.symm)
        ⟨hcompleteA, hcompleteB⟩
    have hchosen : chosen = codec := by
      have hexact := congrArg exactCodec (hrecord.trans hcodecA)
      rw [exactCodec_recordOf, exactCodec_recordOf] at hexact
      exact Option.some.inj hexact
    subst hchosen
    exact ⟨_, _, OpenAirBuild.report_eq _, OpenAirBuild.report_eq _, hvalidA, hvalidB, hrecord,
      hmerge⟩
  refine ⟨hselects .quiet ?_, hselects .cyrinx ?_, ?_⟩
  · decide +kernel
  · decide +kernel
  · decide +kernel

end Bench

end Fipwave.GateAgreement
