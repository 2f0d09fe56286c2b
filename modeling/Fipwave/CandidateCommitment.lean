import Fipwave.AcousticLink

/-!
# Candidates that can be committed

The constructor of a session and the canonical form of settings check the same
fields of a candidate with checks of their own. They agree except on the gain:
only thousandths have a canonical form. Canonical bytes determine the settings,
so equal digests of settings mean equal settings.
-/

namespace Fipwave.CandidateCommitment

open ByteWords ScriptIntegers ThrowingMethod AcousticProtocol SettingsCommitment
open AcousticHandshake AcousticState AcousticNegotiation AcousticLink

/-- The audible profile resolves. -/
theorem resolveAcousticProfile_quietAudibleId :
    ∃ profile, resolveAcousticProfile quietAudibleId = .ok profile :=
  ⟨⟨quietAudibleId, .quietClient, .quietClient⟩, rfl⟩

/-- Canonical settings of one direction have canonical bytes. -/
theorem canonicalizeDirection_of_canonical {direction : DirectionalSettings}
    (h : direction.Canonical) : ∃ bytes, canonicalizeDirection direction = .ok bytes := by
  obtain ⟨profile, hprofile⟩ := resolveAcousticProfile_quietAudibleId
  refine ⟨[lowByte direction.profileId.length] ++ direction.profileId ++
    directionFields direction, ?_⟩
  unfold canonicalizeDirection assertInteger
  have hlength : direction.profileId.length = 19 := by
    rw [h.profileId]
    rfl
  rw [h.profileId, hprofile, ok_bind, ← h.profileId]
  simp only [check_bind_ok_iff, fas1MaxBodyBytes, not_or, not_lt, not_not, ne_eq, gt_iff_lt,
    check_ok_iff]
  have hpayload := h.payloadBytes
  have hrepetition := h.repetition
  have hguard := h.guardMs
  have htimeout := h.ackTimeoutMs
  have hname : 1 ≤ direction.profileId.length ∧ direction.profileId.length ≤ 63 := by omega
  exact ⟨hname, hpayload.2, hpayload.1, hrepetition.2, hrepetition.1, hguard.2, hguard.1,
    ⟨h.gainUnits, h.gainRange.1, h.gainRange.2⟩, htimeout.2, htimeout.1, trivial⟩

/-- Settings have canonical bytes exactly if both directions are canonical. -/
theorem canonicalizeSettings_isOk_iff {settings : AcousticSettings} :
    (∃ bytes, canonicalizeSettings settings = .ok bytes) ↔
      settings.aToB.Canonical ∧ settings.bToA.Canonical := by
  constructor
  · rintro ⟨bytes, h⟩
    obtain ⟨aToB, haToB, hrest⟩ := bind_ok h
    obtain ⟨bToA, hbToA, -⟩ := bind_ok hrest
    exact ⟨(canonicalizeDirection_ok haToB).1, (canonicalizeDirection_ok hbToA).1⟩
  · rintro ⟨haToB, hbToA⟩
    obtain ⟨aToB, haToB⟩ := canonicalizeDirection_of_canonical haToB
    obtain ⟨bToA, hbToA⟩ := canonicalizeDirection_of_canonical hbToA
    refine ⟨[lowByte settingsVersion] ++ aToB ++ bToA, ?_⟩
    unfold canonicalizeSettings
    rw [haToB, ok_bind, hbToA, ok_bind]
    rfl

/-- What the constructor has checked of a candidate. -/
theorem candidate_of_admitted (options : AdmittedOptions) :
    validRange options.ranges = true ∧ ∀ candidate ∈ options.candidates,
      candidateInvalid options.toAcousticSessionOptions candidate = false ∧
        ∃ profile, resolveAcousticProfile candidate.profileId = .ok profile := by
  obtain ⟨s, hs⟩ := options.admitted
  unfold construct at hs
  split at hs
  · cases hs
  · next hvalid =>
    simp only [not_or] at hvalid
    refine ⟨by simpa using hvalid.2.2.2.1, ?_⟩
    intro candidate hmem
    obtain ⟨_, -, hs⟩ := bind_ok hs
    obtain ⟨_, hcandidates, -⟩ := bind_ok hs
    have hone := forM_ok hcandidates candidate hmem
    by_cases hinvalid : candidateInvalid options.toAcousticSessionOptions candidate = true
    · rw [if_pos hinvalid] at hone
      cases hone
    · rw [if_neg hinvalid] at hone
      obtain ⟨profile, hprofile, -⟩ := bind_ok hone
      exact ⟨Bool.eq_false_iff.mpr hinvalid, profile, hprofile⟩

/-- A candidate the constructor accepted is canonical exactly if its gain is in thousandths. -/
theorem canonical_iff_of_admitted (options : AdmittedOptions) {candidate : AcousticCandidate}
    (hmem : candidate ∈ options.candidates) :
    (toSettings candidate).Canonical ↔ (candidate.playbackGain * 1000).den = 1 := by
  obtain ⟨hrange, hcandidates⟩ := candidate_of_admitted options
  obtain ⟨hvalid, profile, hprofile⟩ := hcandidates candidate hmem
  constructor
  · intro h
    exact h.gainUnits
  · intro hunits
    simp only [validRange, validInteger, Bool.and_eq_true, decide_eq_true_eq] at hrange
    simp only [candidateInvalid, Bool.or_eq_false_iff, validInteger, Bool.not_eq_false',
      decide_eq_true_eq, decide_eq_false_iff_not, not_lt] at hvalid
    obtain ⟨⟨⟨⟨⟨⟨-, hlow⟩, hhigh⟩, hpayload⟩, hrepetition⟩, hguard⟩, htimeout⟩ := hvalid
    have hpayload' : 1 ≤ candidate.payloadBytes ∧ candidate.payloadBytes ≤ 217 := by omega
    exact ⟨resolveAcousticProfile_ok hprofile, hpayload', hrepetition, hguard, hunits,
      ⟨hlow, hhigh⟩, htimeout⟩

/-- Two candidates the constructor accepted can be committed exactly if both gains are in
thousandths. -/
theorem committable_iff (options : AdmittedOptions) {aToB bToA : AcousticCandidate}
    (haToB : aToB ∈ options.candidates) (hbToA : bToA ∈ options.candidates) :
    (∃ bytes, canonicalizeSettings ⟨toSettings aToB, toSettings bToA⟩ = .ok bytes) ↔
      (aToB.playbackGain * 1000).den = 1 ∧ (bToA.playbackGain * 1000).den = 1 := by
  rw [canonicalizeSettings_isOk_iff, ← canonical_iff_of_admitted options haToB,
    ← canonical_iff_of_admitted options hbToA]

/-- The candidate of the bench can be committed. -/
theorem committable_bench :
    benchCandidate ∈ (benchOptions .a).candidates ∧
      ∃ bytes, canonicalizeSettings ⟨toSettings benchCandidate, toSettings benchCandidate⟩ =
        .ok bytes := by
  have hmem : benchCandidate ∈ (benchOptions .a).candidates := List.mem_singleton.mpr rfl
  have hunits : (benchCandidate.playbackGain * 1000).den = 1 := by
    norm_num [benchCandidate]
  exact ⟨hmem, (committable_iff ⟨benchOptions .a, benchOptions_admitted .a⟩ hmem hmem).mpr
    ⟨hunits, hunits⟩⟩

/-- A candidate with a gain of 1.0005. -/
def fineGainCandidate : AcousticCandidate := { benchCandidate with playbackGain := 2001 / 2000 }

/-- The constructor accepts the candidate, and its settings have no canonical bytes. -/
theorem not_committable_fineGain :
    ¬∀ (options : AdmittedOptions), ∀ aToB ∈ options.candidates, ∀ bToA ∈ options.candidates,
      ∃ bytes, canonicalizeSettings ⟨toSettings aToB, toSettings bToA⟩ = .ok bytes := by
  intro h
  have hadmitted : ∃ s, construct { benchOptions .a with candidates := [fineGainCandidate] } =
      .ok s := ⟨initialSession .a, by decide +kernel⟩
  obtain ⟨bytes, hbytes⟩ := h ⟨{ benchOptions .a with candidates := [fineGainCandidate] },
    hadmitted⟩ fineGainCandidate (List.mem_singleton.mpr rfl) fineGainCandidate
    (List.mem_singleton.mpr rfl)
  have hcanonical := (canonicalizeSettings_isOk_iff.mp ⟨bytes, hbytes⟩).1
  have hunits := hcanonical.gainUnits
  norm_num [toSettings, fineGainCandidate] at hunits

/-- Equal canonical bytes come from equal settings, and so do equal digests when the digest has no
collision on them. -/
theorem settings_of_digest (options : AcousticSessionOptions) :
    (∀ x y bytes, canonicalizeSettings x = .ok bytes → canonicalizeSettings y = .ok bytes → x = y) ∧
      ∀ x y digest, (∀ first second, canonicalizeSettings x = .ok first →
        canonicalizeSettings y = .ok second →
          options.sha256 first = options.sha256 second → first = second) →
        digestSettings options x = .ok digest → digestSettings options y = .ok digest → x = y := by
  refine ⟨fun x y bytes hx hy => canonicalizeSettings_injective hx hy, ?_⟩
  intro x y digest hcollision hx hy
  obtain ⟨first, hfirst, hdigest⟩ := bind_ok hx
  obtain ⟨second, hsecond, hdigest'⟩ := bind_ok hy
  have hsame : options.sha256 first = options.sha256 second :=
    (Except.ok.inj hdigest).trans (Except.ok.inj hdigest').symm
  have hbytes : first = second := hcollision first second hfirst hsecond hsame
  rw [← hbytes] at hsecond
  exact canonicalizeSettings_injective hfirst hsecond

end Fipwave.CandidateCommitment
