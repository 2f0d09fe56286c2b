import Fipwave.AcousticProtocol
import Fipwave.ThrowingMethod

/-!
# Directional settings and their canonical bytes

Calibration ends in one settings record for each direction. Both peers turn
the pair into canonical bytes and commit to the digest of those bytes; the
bytes determine the settings, so equal digests mean equal settings.
-/

namespace Fipwave.SettingsCommitment

open ByteWords ScriptIntegers ThrowingMethod AcousticProtocol

/-- Executable modem paths a profile may name. -/
inductive ModemImplementation where
  | quietClient
  deriving DecidableEq, Repr

/-- A negotiable profile. -/
structure AcousticProfile where
  /-- Negotiated name. -/
  id : Text
  /-- Path that transmits the profile. -/
  transmitImplementation : ModemImplementation
  /-- Path that receives the profile. -/
  receiveImplementation : ModemImplementation
  deriving DecidableEq, Repr

/-- The bytes of `quiet-audible-7k-v1`. -/
def quietAudibleId : Text :=
  [0x71, 0x75, 0x69, 0x65, 0x74, 0x2d, 0x61, 0x75, 0x64, 0x69, 0x62, 0x6c, 0x65, 0x2d, 0x37, 0x6b,
    0x2d, 0x76, 0x31]

/-- Every profile with an executable modem path. -/
def acousticProfiles : List AcousticProfile := [⟨quietAudibleId, .quietClient, .quietClient⟩]

/-- Look a profile up by name. -/
def resolveAcousticProfile (profileId : Text) : Except String AcousticProfile :=
  match acousticProfiles.find? (fun entry => entry.id = profileId) with
  | none => fail "profile ID is unsupported"
  | some profile =>
    if profile.transmitImplementation ≠ profile.receiveImplementation then
      fail "profile ID is unsupported"
    else .ok profile

/-- Settings of one direction. -/
structure DirectionalSettings where
  /-- Negotiated profile. -/
  profileId : Text
  /-- Largest DATA body of the direction. -/
  payloadBytes : ℕ
  /-- Copies the modem plays of every unit. -/
  repetition : ℕ
  /-- Silence between turns. -/
  guardMs : ℕ
  /-- Playback gain as an exact rational. -/
  playbackGain : ℚ
  /-- Time to wait for an ACK. -/
  ackTimeoutMs : ℕ
  deriving DecidableEq, Repr

/-- Settings of both directions. -/
structure AcousticSettings where
  /-- Settings of units from A to B. -/
  aToB : DirectionalSettings
  /-- Settings of units from B to A. -/
  bToA : DirectionalSettings
  deriving DecidableEq, Repr

/-- Version byte of the canonical form. -/
def settingsVersion : ℕ := 1

/-- The fixed-width fields after the profile name. -/
def directionFields (direction : DirectionalSettings) : Bytes :=
  writeWord 2 direction.payloadBytes ++ writeWord 1 direction.repetition ++
    writeWord 2 direction.guardMs ++ writeWord 2 (roundNumber (direction.playbackGain * 1000)).toNat ++
    writeWord 2 direction.ackTimeoutMs

/-- Canonical bytes of one direction. -/
def canonicalizeDirection (direction : DirectionalSettings) : Except String Bytes := do
  let _ ← resolveAcousticProfile direction.profileId
  if direction.profileId.length < 1 ∨ direction.profileId.length > 63 then
    fail "profile ID length is invalid"
  else
    assertInteger direction.payloadBytes fas1MaxBodyBytes "payload bytes"
    if direction.payloadBytes < 1 then fail "payload bytes are invalid"
    else
      assertInteger direction.repetition 3 "repetition"
      if direction.repetition < 1 then fail "repetition is invalid"
      else
        assertInteger direction.guardMs 5000 "guard milliseconds"
        if direction.guardMs < 1 then fail "guard milliseconds are invalid"
        else if (direction.playbackGain * 1000).den ≠ 1 ∨ direction.playbackGain < 1 ∨
            direction.playbackGain > 2 then
          fail "playback gain is invalid"
        else
          assertInteger direction.ackTimeoutMs 15000 "ack timeout"
          if direction.ackTimeoutMs < 4000 then fail "ack timeout is invalid"
          else
            .ok ([lowByte direction.profileId.length] ++ direction.profileId ++
              directionFields direction)

/-- Stable binary commitment: version, A to B record, then B to A record. -/
def canonicalizeSettings (settings : AcousticSettings) : Except String Bytes := do
  let aToB ← canonicalizeDirection settings.aToB
  let bToA ← canonicalizeDirection settings.bToA
  return [lowByte settingsVersion] ++ aToB ++ bToA

/-- What canonical settings of one direction satisfy. -/
structure DirectionalSettings.Canonical (direction : DirectionalSettings) : Prop where
  /-- The only profile there is. -/
  profileId : direction.profileId = quietAudibleId
  /-- Payload fits one body. -/
  payloadBytes : 1 ≤ direction.payloadBytes ∧ direction.payloadBytes ≤ 217
  /-- One to three copies. -/
  repetition : 1 ≤ direction.repetition ∧ direction.repetition ≤ 3
  /-- A bounded guard. -/
  guardMs : 1 ≤ direction.guardMs ∧ direction.guardMs ≤ 5000
  /-- A gain in thousandths. -/
  gainUnits : (direction.playbackGain * 1000).den = 1
  /-- A gain between one and two. -/
  gainRange : 1 ≤ direction.playbackGain ∧ direction.playbackGain ≤ 2
  /-- A bounded ACK timeout. -/
  ackTimeoutMs : 4000 ≤ direction.ackTimeoutMs ∧ direction.ackTimeoutMs ≤ 15000

/-- Only the one executable profile resolves. -/
theorem resolveAcousticProfile_ok {profileId : Text} {profile : AcousticProfile}
    (h : resolveAcousticProfile profileId = .ok profile) : profileId = quietAudibleId := by
  by_contra hne
  have hnone : acousticProfiles.find? (fun entry => entry.id = profileId) = none := by
    simp [acousticProfiles, Ne.symm hne]
  simp [resolveAcousticProfile, hnone, fail] at h

/-- Canonicalization succeeds only on canonical settings, with the canonical layout. -/
theorem canonicalizeDirection_ok {direction : DirectionalSettings} {bytes : Bytes}
    (h : canonicalizeDirection direction = .ok bytes) :
    direction.Canonical ∧
      bytes = [lowByte direction.profileId.length] ++ direction.profileId ++
        directionFields direction := by
  unfold canonicalizeDirection assertInteger at h
  cases hr : resolveAcousticProfile direction.profileId with
  | error e => simp [hr, Bind.bind, Except.bind] at h
  | ok profile =>
    rw [hr, ok_bind] at h
    simp only [check_bind_ok_iff, check_ok_iff, fas1MaxBodyBytes, not_or, not_lt, not_not, ne_eq,
      gt_iff_lt] at h
    obtain ⟨-, hp1, hp2, hr1, hr2, hg1, hg2, ⟨hden, hlow, hhigh⟩, ha1, ha2, hbytes⟩ := h
    exact ⟨⟨resolveAcousticProfile_ok hr, ⟨hp2, hp1⟩, ⟨hr2, hr1⟩, ⟨hg2, hg1⟩, hden,
      ⟨hlow, hhigh⟩, ⟨ha2, ha1⟩⟩, (Except.ok.inj hbytes).symm⟩

/-- A gain in thousandths is its rounded number of thousandths. -/
theorem roundNumber_of_den {value : ℚ} (h : value.den = 1) : (roundNumber value : ℚ) = value := by
  have hv : value = (value.num : ℚ) := by
    conv_lhs => rw [← Rat.num_div_den value, h]
    simp
  have hround : roundNumber value = value.num := by
    unfold roundNumber
    rw [Int.floor_eq_iff, ← hv]
    constructor <;> linarith
  rw [hround, ← hv]

/-- The fixed-width fields of canonical settings determine them. Gains are compared in thousandths,
which canonical gains are. -/
theorem directionFields_injective {x y : DirectionalSettings} (hx : x.Canonical)
    (hy : y.Canonical) (h : directionFields x = directionFields y) : x = y := by
  have hgain : ∀ {z : DirectionalSettings}, z.Canonical →
      ((roundNumber (z.playbackGain * 1000)).toNat : ℚ) = z.playbackGain * 1000 ∧
        (roundNumber (z.playbackGain * 1000)).toNat < 256 ^ 2 := by
    intro z hz
    have hround := roundNumber_of_den hz.gainUnits
    have hbounds := hz.gainRange
    have hlow : (0 : ℚ) ≤ roundNumber (z.playbackGain * 1000) := by linarith
    have hhigh : (roundNumber (z.playbackGain * 1000) : ℚ) ≤ 2000 := by linarith
    have hlow' : 0 ≤ roundNumber (z.playbackGain * 1000) := by exact_mod_cast hlow
    have hhigh' : roundNumber (z.playbackGain * 1000) ≤ 2000 := by exact_mod_cast hhigh
    refine ⟨?_, by omega⟩
    calc ((roundNumber (z.playbackGain * 1000)).toNat : ℚ)
        = (roundNumber (z.playbackGain * 1000) : ℚ) := by
          exact_mod_cast Int.toNat_of_nonneg hlow'
      _ = z.playbackGain * 1000 := hround
  obtain ⟨hgx, hgxlt⟩ := hgain hx
  obtain ⟨hgy, hgylt⟩ := hgain hy
  simp only [directionFields, List.append_assoc] at h
  obtain ⟨h1, h⟩ := List.append_inj h (by simp)
  obtain ⟨h2, h⟩ := List.append_inj h (by simp)
  obtain ⟨h3, h⟩ := List.append_inj h (by simp)
  obtain ⟨h4, h5⟩ := List.append_inj h (by simp)
  have hpx := hx.payloadBytes; have hpy := hy.payloadBytes
  have hrx := hx.repetition; have hry := hy.repetition
  have hgx' := hx.guardMs; have hgy' := hy.guardMs
  have hax := hx.ackTimeoutMs; have hay := hy.ackTimeoutMs
  have e1 := writeWord_injective (by omega) (by omega) h1
  have e2 := writeWord_injective (by omega) (by omega) h2
  have e3 := writeWord_injective (by omega) (by omega) h3
  have e4 := writeWord_injective hgxlt hgylt h4
  have e5 := writeWord_injective (by omega) (by omega) h5
  have e4' : x.playbackGain = y.playbackGain := by
    have : (x.playbackGain * 1000) = y.playbackGain * 1000 := by rw [← hgx, ← hgy, e4]
    linarith
  have e0 : x.profileId = y.profileId := hx.profileId.trans hy.profileId.symm
  cases x
  cases y
  simp_all

/-- Canonical bytes of a direction are self-delimiting and determine the settings. -/
theorem canonicalizeDirection_injective {x y : DirectionalSettings} {bx bby restx resty : Bytes}
    (hx : canonicalizeDirection x = .ok bx) (hy : canonicalizeDirection y = .ok bby)
    (h : bx ++ restx = bby ++ resty) : x = y ∧ restx = resty := by
  obtain ⟨hcx, rfl⟩ := canonicalizeDirection_ok hx
  obtain ⟨hcy, rfl⟩ := canonicalizeDirection_ok hy
  rw [hcx.profileId, hcy.profileId] at h
  simp only [List.append_assoc] at h
  obtain ⟨-, h⟩ := List.append_inj h rfl
  obtain ⟨-, h⟩ := List.append_inj h rfl
  obtain ⟨hf, hr⟩ := List.append_inj h (by simp [directionFields])
  exact ⟨directionFields_injective hcx hcy hf, hr⟩

/-- Canonical bytes determine the settings of both directions. -/
theorem canonicalizeSettings_injective {x y : AcousticSettings} {bytes : Bytes}
    (hx : canonicalizeSettings x = .ok bytes) (hy : canonicalizeSettings y = .ok bytes) :
    x = y := by
  have hsplit : ∀ {z : AcousticSettings}, canonicalizeSettings z = .ok bytes →
      ∃ a b, canonicalizeDirection z.aToB = .ok a ∧ canonicalizeDirection z.bToA = .ok b ∧
        bytes = [lowByte settingsVersion] ++ a ++ b := by
    intro z hz
    unfold canonicalizeSettings at hz
    cases ha : canonicalizeDirection z.aToB with
    | error e => simp [ha, Bind.bind, Except.bind] at hz
    | ok a =>
      cases hb : canonicalizeDirection z.bToA with
      | error e => simp [ha, hb, Bind.bind, Except.bind] at hz
      | ok b =>
        refine ⟨a, b, rfl, rfl, ?_⟩
        simp only [ha, hb] at hz
        exact (Except.ok.inj hz).symm
  obtain ⟨ax, bx, hax, hbx, hbytes⟩ := hsplit hx
  obtain ⟨ay, by_, hay, hby, hbytes'⟩ := hsplit hy
  rw [hbytes, List.append_assoc, List.append_assoc] at hbytes'
  obtain ⟨-, hrest⟩ := List.append_inj hbytes' rfl
  obtain ⟨hab, hrest⟩ := canonicalizeDirection_injective hax hay hrest
  have hba := (canonicalizeDirection_injective hbx hby (congrArg (· ++ []) hrest)).1
  cases x
  cases y
  simp_all

end Fipwave.SettingsCommitment
