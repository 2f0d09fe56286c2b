import Mathlib.Data.List.TakeWhile
import Fipwave.AttestationParsing
import Fipwave.DoubleRounding
import Fipwave.PingPatterns

/-!
# The result of a ping from the bridge to the browser

The bridge reads the numbers of a finished ping from its output, the browser
bounds each of them. A result is shown when the exit code is at most two or no
byte, and when each number found is within the bound of the browser or so
large that it becomes infinite, which is sent as no number at all.
-/

namespace Fipwave.PingResult

open ByteWords TextPatterns PingPatterns DoubleRounding
open IsolationAttestation (Json isDigit isLower isUpper isSafeInteger)
open AttestationParsing (Members get)

section Numbers

/-- The number digits stand for. -/
def digitsValue (text : Units) : ℕ := text.foldl (fun value x => value * 10 + (x.toNat - 0x30)) 0

/-- The value of a text of digits and dots, if it is a number. -/
def decimalValue (text : Units) : Option ℚ :=
  let whole := text.takeWhile PingPatterns.isDigit
  match text.dropWhile PingPatterns.isDigit with
  | [] => some (digitsValue whole)
  | dot :: fraction =>
    if dot = 0x2e ∧ fraction.all PingPatterns.isDigit ∧ ¬ (whole = [] ∧ fraction = []) then
      some (digitsValue whole + digitsValue fraction / 10 ^ fraction.length)
    else none

/-- `Number(text)` of a text of digits and dots. -/
def numberOf (text : Units) : Number :=
  match decimalValue text with
  | none => .nan
  | some value => ofRational value

/-- `Number(group)`; a group that is missing is no number. -/
def numberOfGroup : Option Units → Number
  | none => .nan
  | some text => numberOf text

/-- A number after `JSON.stringify` and `JSON.parse`. -/
def jsonNumber : Number → Json
  | .finite value => .number value
  | _ => .null

end Numbers

section Bridge

/-- A finished ping. -/
structure RawPingResult where
  /-- Exit code. -/
  exitCode : Number
  /-- Standard output. -/
  stdout : Units
  /-- Standard error. -/
  stderr : Units

/-- What the bridge sends of it. -/
structure PublicPingResult where
  /-- Exit code. -/
  exitCode : Number
  /-- Packets received. -/
  sequence : Option Number
  /-- Time of the round trip. -/
  latencyMs : Option Number
  /-- Packets lost, in percent. -/
  lossPercent : Option Number
  /-- Why it failed. -/
  safeReason : Option String

/-- The exit code that is sent. -/
def projectExitCode : Number → ℚ
  | .finite value => if value.den = 1 ∧ 0 ≤ value ∧ value ≤ 255 then value else 2
  | _ => 2

/-- What is sent of a finished ping. -/
def projectSoundProofResult (raw : RawPingResult) : PublicPingResult :=
  let packet := exec packetPattern raw.stdout
  let latency := exec latencyPattern raw.stdout
  let exitCode := projectExitCode raw.exitCode
  { exitCode := .finite exitCode
    sequence := packet.map (fun groups => numberOfGroup (groups.lookup 2))
    latencyMs := latency.map (fun groups =>
      numberOfGroup ((groups.lookup 1).or (groups.lookup 2)))
    lossPercent := packet.map (fun groups => numberOfGroup (groups.lookup 3))
    safeReason :=
      if exitCode = 0 then none else if exitCode = 1 then some "ping_no_reply"
      else some "ping_failed" }

/-- Bytes of a text of ASCII characters. -/
def ascii (text : String) : Bytes := text.toList.map (fun c => c.val.toUInt8)

/-- The result after `JSON.stringify` and `JSON.parse`. -/
def PublicPingResult.roundTrip (result : PublicPingResult) : Json :=
  .object [("exitCode", jsonNumber result.exitCode),
    ("sequence", (result.sequence.map jsonNumber).getD .null),
    ("latencyMs", (result.latencyMs.map jsonNumber).getD .null),
    ("lossPercent", (result.lossPercent.map jsonNumber).getD .null),
    ("safeReason", (result.safeReason.map (fun reason => Json.text (ascii reason))).getD .null)]

end Bridge

section Browser

/-- What the browser shows of a ping. -/
structure ProofOutcome where
  /-- Exit code. -/
  exitCode : Fin 3
  /-- Packets received. -/
  sequence : Option ℚ
  /-- Time of the round trip. -/
  latencyMs : Option ℚ
  /-- Packets lost, in percent. -/
  lossPercent : Option ℚ
  /-- Why it failed. -/
  safeReason : Option Bytes

/-- The object has exactly these members. -/
def exact (fields : Members) (keys : List String) : Bool :=
  fields.length = keys.length && keys.all (fun key => (get fields key).isSome)

/-- An exit code of a ping. -/
def parseExitCode : Option Json → Option (Fin 3)
  | some (.number value) =>
    if value = 0 then some 0 else if value = 1 then some 1 else if value = 2 then some 2 else none
  | _ => none

/-- No number, or a whole number from 0 to a thousand million. -/
def nullableCount : Option Json → Option (Option ℚ)
  | some .null => some none
  | some (.number value) =>
    if isSafeInteger value ∧ 0 ≤ value ∧ value ≤ 1000000000 then some (some value) else none
  | _ => none

/-- No number, or a number from 0 to a maximum. -/
def nullableWithin (maximum : ℚ) : Option Json → Option (Option ℚ)
  | some .null => some none
  | some (.number value) => if 0 ≤ value ∧ value ≤ maximum then some (some value) else none
  | _ => none

/-- A character of a plain text: `[A-Za-z0-9:._-]`. -/
def isPlain (byte : UInt8) : Bool :=
  isUpper byte || isLower byte || isDigit byte || byte ∈ ascii ":._-"

/-- No text, or a plain text of at most so many characters. -/
def nullableText (maximum : ℕ) : Option Json → Option (Option Bytes)
  | some .null => some none
  | some (.text value) =>
    if 0 < value.length ∧ value.length ≤ maximum ∧ value.all isPlain then some (some value)
    else none
  | _ => none

/-- The result that is shown, unless it is refused. -/
def parseResult : Json → Option ProofOutcome
  | .object fields =>
    if exact fields ["exitCode", "sequence", "latencyMs", "lossPercent", "safeReason"] then do
      let exitCode ← parseExitCode (get fields "exitCode")
      let sequence ← nullableCount (get fields "sequence")
      let latencyMs ← nullableWithin 120000 (get fields "latencyMs")
      let lossPercent ← nullableWithin 100 (get fields "lossPercent")
      let safeReason ← nullableText 80 (get fields "safeReason")
      some ⟨exitCode, sequence, latencyMs, lossPercent, safeReason⟩
    else none
  | _ => none

end Browser

section Limits

variable {x : ℚ}

/-- The value is at most a limit or becomes infinite. -/
def Shown (limit value : ℚ) : Prop := value ≤ limit ∨ overflow - 2 ^ 970 ≤ value

/-- The values whose rounding is at most a hundred. -/
theorem rounded_le_hundred (hx : 0 ≤ x) : rounded x ≤ 100 ↔ x ≤ 100 + 1 / 2 ^ 47 := by
  have h := rounded_le_iff (m := 100 * 2 ^ 46) (e := -46) hx (by norm_num) (by norm_num)
    (by norm_num) (by norm_num)
  have hlimit : (((100 * 2 ^ 46 : ℤ) : ℚ)) * 2 ^ (-46 : ℤ) = 100 := by norm_num
  have hmiddle : (((100 * 2 ^ 46 : ℤ) : ℚ) + 1 / 2) * 2 ^ (-46 : ℤ) = 100 + 1 / 2 ^ 47 := by
    norm_num
  rwa [hlimit, hmiddle] at h

/-- The values whose rounding is at most two minutes. -/
theorem rounded_le_twoMinutes (hx : 0 ≤ x) : rounded x ≤ 120000 ↔ x ≤ 120000 + 1 / 2 ^ 37 := by
  have h := rounded_le_iff (m := 120000 * 2 ^ 36) (e := -36) hx (by norm_num) (by norm_num)
    (by norm_num) (by norm_num)
  have hlimit : (((120000 * 2 ^ 36 : ℤ) : ℚ)) * 2 ^ (-36 : ℤ) = 120000 := by norm_num
  have hmiddle : (((120000 * 2 ^ 36 : ℤ) : ℚ) + 1 / 2) * 2 ^ (-36 : ℤ) =
      120000 + 1 / 2 ^ 37 := by
    norm_num
  rwa [hlimit, hmiddle] at h

/-- The whole numbers whose rounding is at most a thousand million. -/
theorem rounded_le_count (n : ℕ) : rounded n ≤ 1000000000 ↔ (n : ℚ) ≤ 1000000000 := by
  have h := rounded_le_iff (x := n) (m := 1000000000 * 2 ^ 23) (e := -23) n.cast_nonneg
    (by norm_num) (by norm_num) (by norm_num) (by norm_num)
  have hlimit : (((1000000000 * 2 ^ 23 : ℤ) : ℚ)) * 2 ^ (-23 : ℤ) = 1000000000 := by norm_num
  have hmiddle : (((1000000000 * 2 ^ 23 : ℤ) : ℚ) + 1 / 2) * 2 ^ (-23 : ℤ) =
      1000000000 + 1 / 2 ^ 24 := by
    norm_num
  rw [hlimit, hmiddle] at h
  rw [h]
  constructor
  · intro hle
    have hlt : (n : ℚ) < 1000000001 := lt_of_le_of_lt hle (by norm_num)
    have hnat : n < 1000000001 := by exact_mod_cast hlt
    have hle : n ≤ 1000000000 := by omega
    exact_mod_cast hle
  · intro hle
    exact hle.trans (by norm_num)

/-- A value is accepted within a maximum when its rounding is, or when it became infinite. -/
theorem nullableWithin_isSome {maximum limit : ℚ} (hx : 0 ≤ x)
    (h : rounded x ≤ maximum ↔ x ≤ limit) :
    (nullableWithin maximum (some (jsonNumber (ofRational x)))).isSome = true ↔
      Shown limit x := by
  unfold Shown
  rw [← overflow_le_rounded_iff hx, ← h]
  by_cases hover : overflow ≤ rounded x
  · simp [ofRational, hover, jsonNumber, nullableWithin]
  · have hnonneg := rounded_nonneg hx
    by_cases hmax : rounded x ≤ maximum
    · simp [ofRational, hover, jsonNumber, nullableWithin, hnonneg, hmax]
    · simp [ofRational, hover, jsonNumber, nullableWithin, hmax]

/-- A whole number is accepted as a count up to the maximum, or when it became infinite. -/
theorem nullableCount_isSome (n : ℕ) :
    (nullableCount (some (jsonNumber (ofRational n)))).isSome = true ↔ Shown 1000000000 n := by
  unfold Shown
  rw [← overflow_le_rounded_iff n.cast_nonneg, ← rounded_le_count]
  by_cases hover : overflow ≤ rounded n
  · simp [ofRational, hover, jsonNumber, nullableCount]
  have hnumber : ofRational n = .finite (rounded n) := by simp [ofRational, hover]
  rw [hnumber]
  by_cases hmax : rounded n ≤ 1000000000
  · have hcast := (rounded_le_count n).mp hmax
    have hnat : n ≤ 1000000000 := by exact_mod_cast hcast
    have hexact : rounded n = n := rounded_natCast (by omega)
    have hsafe : isSafeInteger (n : ℚ) = true := by
      have hlow : (-9007199254740991 : ℚ) ≤ n := le_trans (by norm_num) n.cast_nonneg
      have hhigh : (n : ℚ) ≤ 9007199254740991 := hcast.trans (by norm_num)
      simp [isSafeInteger, hlow, hhigh]
    rw [hexact]
    simp [jsonNumber, nullableCount, hsafe, hcast]
  · simp [jsonNumber, nullableCount, hmax, hover]

end Limits

section Values

/-- Values of texts are not negative. -/
theorem decimalValue_nonneg {text : Units} {value : ℚ} (h : decimalValue text = some value) :
    0 ≤ value := by
  unfold decimalValue at h
  dsimp only at h
  split at h
  · have hvalue := Option.some.inj h
    rw [← hvalue]
    positivity
  · split at h
    · have hvalue := Option.some.inj h
      rw [← hvalue]
      positivity
    · simp at h

/-- The value of digits is the number they stand for. -/
theorem decimalValue_digits {text : Units} (h : Digits text) :
    decimalValue text = some (digitsValue text : ℚ) := by
  have hdrop : text.dropWhile PingPatterns.isDigit = [] := List.dropWhile_eq_nil_iff.mpr h.2
  have htake : text.takeWhile PingPatterns.isDigit = text := List.takeWhile_eq_self_iff.mpr h.2
  unfold decimalValue
  rw [hdrop, htake]

/-- A number of a text is accepted within a maximum when its value is shown. -/
theorem nullableWithin_numberOf {maximum limit : ℚ} {text : Units}
    (h : ∀ {x : ℚ}, 0 ≤ x → (rounded x ≤ maximum ↔ x ≤ limit)) :
    (nullableWithin maximum (some (jsonNumber (numberOf text)))).isSome = true ↔
      ∀ value, decimalValue text = some value → Shown limit value := by
  cases hvalue : decimalValue text with
  | none => simp [numberOf, hvalue, jsonNumber, nullableWithin]
  | some value =>
    have hnonneg := decimalValue_nonneg hvalue
    have hnumber : numberOf text = ofRational value := by simp [numberOf, hvalue]
    rw [hnumber, nullableWithin_isSome hnonneg (h hnonneg)]
    simp

end Values

section Display

variable {raw : RawPingResult}

/-- The condition under which a finished ping is shown. -/
structure Displayable (raw : RawPingResult) : Prop where
  /-- The exit code is no byte above two. -/
  exitCode : ∀ value, raw.exitCode = .finite value → value.den = 1 → value < 3 ∨ 255 < value
  /-- The first summary counts at most a thousand million packets received. -/
  sequence : ∀ reading, First PacketSummary raw.stdout reading →
    Shown 1000000000 (digitsValue reading.received)
  /-- The first summary has at most a hundred percent of packets lost. -/
  lossPercent : ∀ reading, First PacketSummary raw.stdout reading →
    ∀ value, decimalValue reading.loss = some value → Shown (100 + 1 / 2 ^ 47) value
  /-- The first time of the round trip is at most two minutes. -/
  latencyMs : ∀ reading, First RoundTripTime raw.stdout reading →
    ∀ value, decimalValue reading.time = some value → Shown (120000 + 1 / 2 ^ 37) value

/-- The exit code is accepted when it is no byte above two. What is no byte at all was projected to
two. -/
theorem parseExitCode_isSome (code : Number) :
    (parseExitCode (some (jsonNumber (.finite (projectExitCode code))))).isSome = true ↔
      ∀ value, code = .finite value → value.den = 1 → value < 3 ∨ 255 < value := by
  have htwo : (parseExitCode (some (.number 2))).isSome = true := by decide
  cases code with
  | nan => simp [projectExitCode, jsonNumber, htwo]
  | infinity => simp [projectExitCode, jsonNumber, htwo]
  | negativeInfinity => simp [projectExitCode, jsonNumber, htwo]
  | finite value =>
    by_cases hkept : value.den = 1 ∧ 0 ≤ value ∧ value ≤ 255
    · obtain ⟨hwhole, hlow, hhigh⟩ := hkept
      have hvalue : value = (value.num : ℚ) := (Rat.den_eq_one_iff value).mp hwhole |>.symm
      have hcode : projectExitCode (.finite value) = value := by
        simp [projectExitCode, hwhole, hlow, hhigh]
      have hpositive : (0 : ℤ) ≤ value.num := Rat.num_nonneg.mpr hlow
      have hsame : ∀ n : ℤ, value = n ↔ value.num = n := by
        intro n
        constructor
        · intro h
          rw [h]
          exact Rat.num_intCast n
        · intro h
          rw [hvalue, h]
      have hsmall : value < 3 ↔ value.num < 3 := by
        rw [hvalue]
        exact_mod_cast Iff.rfl
      have haccepted : (parseExitCode (some (.number value))).isSome = true ↔
          value = 0 ∨ value = 1 ∨ value = 2 := by
        by_cases hzero : value = 0
        · simp [parseExitCode, hzero]
        by_cases hone : value = 1
        · simp [parseExitCode, hone]
        by_cases htwo : value = 2
        · simp [parseExitCode, htwo]
        · simp [parseExitCode, hzero, hone, htwo]
      have hlist : value = 0 ∨ value = 1 ∨ value = 2 ↔ value < 3 := by
        have hzero : value = 0 ↔ value.num = 0 := by exact_mod_cast hsame 0
        have hone : value = 1 ↔ value.num = 1 := by exact_mod_cast hsame 1
        have htwo : value = 2 ↔ value.num = 2 := by exact_mod_cast hsame 2
        rw [hzero, hone, htwo, hsmall]
        omega
      rw [hcode]
      refine haccepted.trans (hlist.trans ⟨?_, ?_⟩)
      · intro hless other hother _
        have hsame : value = other := Number.finite.inj hother
        exact Or.inl (hsame ▸ hless)
      · intro hall
        cases hall value rfl hwhole with
        | inl hless => exact hless
        | inr hmore => exact absurd hmore (not_lt.mpr hhigh)
    · have hcode : projectExitCode (.finite value) = 2 := by
        simp only [projectExitCode, if_neg hkept]
      rw [hcode]
      refine iff_of_true htwo ?_
      rintro other hother hwhole
      have hsame : value = other := Number.finite.inj hother
      rw [← hsame] at hwhole ⊢
      by_contra hnot
      have hbounds : 3 ≤ value ∧ value ≤ 255 := by
        constructor
        · exact not_lt.mp (fun h => hnot (Or.inl h))
        · exact not_lt.mp (fun h => hnot (Or.inr h))
      exact hkept ⟨hwhole, le_trans (by norm_num) hbounds.1, hbounds.2⟩

/-- The reason is accepted. -/
theorem nullableText_isSome (result : PublicPingResult)
    (h : result.safeReason = none ∨ result.safeReason = some "ping_no_reply" ∨
      result.safeReason = some "ping_failed") :
    (nullableText 80 (some ((result.safeReason.map
      (fun reason => Json.text (ascii reason))).getD .null))).isSome = true := by
  rcases h with h | h | h
  · rw [h]
    rfl
  · rw [h]
    decide
  · rw [h]
    decide

/-- The result is accepted when each of its members is. -/
theorem parseResult_isSome (result : PublicPingResult) :
    (parseResult result.roundTrip).isSome = true ↔
      (parseExitCode (some (jsonNumber result.exitCode))).isSome = true ∧
      (nullableCount (some ((result.sequence.map jsonNumber).getD .null))).isSome = true ∧
      (nullableWithin 120000 (some ((result.latencyMs.map jsonNumber).getD .null))).isSome =
        true ∧
      (nullableWithin 100 (some ((result.lossPercent.map jsonNumber).getD .null))).isSome = true ∧
      (nullableText 80 (some ((result.safeReason.map
        (fun reason => Json.text (ascii reason))).getD .null))).isSome = true := by
  have hresult : parseResult result.roundTrip =
      (parseExitCode (some (jsonNumber result.exitCode))).bind (fun exitCode =>
      (nullableCount (some ((result.sequence.map jsonNumber).getD .null))).bind (fun sequence =>
      (nullableWithin 120000 (some ((result.latencyMs.map jsonNumber).getD .null))).bind
        (fun latencyMs =>
      (nullableWithin 100 (some ((result.lossPercent.map jsonNumber).getD .null))).bind
        (fun lossPercent =>
      (nullableText 80 (some ((result.safeReason.map
        (fun reason => Json.text (ascii reason))).getD .null))).bind (fun safeReason =>
      some ⟨exitCode, sequence, latencyMs, lossPercent, safeReason⟩))))) := rfl
  rw [hresult]
  simp only [Option.isSome_iff_exists, Option.bind_eq_some_iff, Option.some_inj]
  constructor
  · rintro ⟨outcome, exitCode, hexit, sequence, hsequence, latency, hlatency, loss, hloss, reason,
      hreason, -⟩
    exact ⟨⟨exitCode, hexit⟩, ⟨sequence, hsequence⟩, ⟨latency, hlatency⟩, ⟨loss, hloss⟩, reason,
      hreason⟩
  · rintro ⟨⟨exitCode, hexit⟩, ⟨sequence, hsequence⟩, ⟨latency, hlatency⟩, ⟨loss, hloss⟩, reason,
      hreason⟩
    exact ⟨_, exitCode, hexit, sequence, hsequence, latency, hlatency, loss, hloss, reason,
      hreason, rfl⟩

/-- The count of the first summary is accepted when it is shown. -/
theorem sequence_isSome (raw : RawPingResult) :
    (nullableCount (some (((projectSoundProofResult raw).sequence.map jsonNumber).getD
      .null))).isSome = true ↔
      ∀ reading, First PacketSummary raw.stdout reading →
        Shown 1000000000 (digitsValue reading.received) := by
  rcases exec_packetPattern raw.stdout with ⟨hexec, hnone⟩ | ⟨reading, hexec, honly⟩
  · simp [projectSoundProofResult, hexec, nullableCount, hnone]
  · have hdigits : Digits reading.received := by
      obtain ⟨before, after, -, hsummary, -⟩ := (honly reading).mpr rfl
      obtain ⟨_, _, _, _, _, _, _, -, hreceived, -⟩ := hsummary
      exact hreceived
    have hnumber : numberOf reading.received = ofRational (digitsValue reading.received) := by
      simp [numberOf, decimalValue_digits hdigits]
    have hsequence : (projectSoundProofResult raw).sequence =
        some (numberOf reading.received) := by
      simp only [projectSoundProofResult, hexec]
      rfl
    rw [hsequence, hnumber]
    simp only [Option.map_some, Option.getD_some, honly, forall_eq]
    exact nullableCount_isSome (digitsValue reading.received)

/-- The share of packets lost of the first summary is accepted when it is shown. -/
theorem lossPercent_isSome (raw : RawPingResult) :
    (nullableWithin 100 (some (((projectSoundProofResult raw).lossPercent.map jsonNumber).getD
      .null))).isSome = true ↔
      ∀ reading, First PacketSummary raw.stdout reading →
        ∀ value, decimalValue reading.loss = some value → Shown (100 + 1 / 2 ^ 47) value := by
  rcases exec_packetPattern raw.stdout with ⟨hexec, hnone⟩ | ⟨reading, hexec, honly⟩
  · simp [projectSoundProofResult, hexec, nullableWithin, hnone]
  · have hloss : (projectSoundProofResult raw).lossPercent = some (numberOf reading.loss) := by
      simp only [projectSoundProofResult, hexec]
      rfl
    rw [hloss]
    simp only [Option.map_some, Option.getD_some, honly, forall_eq]
    exact nullableWithin_numberOf rounded_le_hundred

/-- The first time of the round trip is accepted when it is shown. -/
theorem latencyMs_isSome (raw : RawPingResult) :
    (nullableWithin 120000 (some (((projectSoundProofResult raw).latencyMs.map jsonNumber).getD
      .null))).isSome = true ↔
      ∀ reading, First RoundTripTime raw.stdout reading →
        ∀ value, decimalValue reading.time = some value →
          Shown (120000 + 1 / 2 ^ 37) value := by
  rcases exec_latencyPattern raw.stdout with ⟨hexec, hnone⟩ | ⟨reading, hexec, honly⟩
  · simp [projectSoundProofResult, hexec, nullableWithin, hnone]
  · have hlatency : (projectSoundProofResult raw).latencyMs = some (numberOf reading.time) := by
      simp only [projectSoundProofResult, hexec]
      cases reading with
      | single time => rfl
      | average time => rfl
    rw [hlatency]
    simp only [Option.map_some, Option.getD_some, honly, forall_eq]
    exact nullableWithin_numberOf rounded_le_twoMinutes

/-- The reason that is sent is one of two texts or none. -/
theorem safeReason_cases (raw : RawPingResult) :
    (projectSoundProofResult raw).safeReason = none ∨
      (projectSoundProofResult raw).safeReason = some "ping_no_reply" ∨
      (projectSoundProofResult raw).safeReason = some "ping_failed" := by
  unfold projectSoundProofResult
  dsimp only
  split_ifs
  · exact Or.inl rfl
  · exact Or.inr (Or.inl rfl)
  · exact Or.inr (Or.inr rfl)

/-- The browser accepts the result of a finished ping exactly when the exit code and the numbers
of its output are within the bounds of the browser or left out. -/
theorem ping_displayed_iff (raw : RawPingResult) :
    (parseResult (projectSoundProofResult raw).roundTrip).isSome = true ↔ Displayable raw := by
  rw [parseResult_isSome, sequence_isSome, latencyMs_isSome, lossPercent_isSome]
  have hexit := parseExitCode_isSome raw.exitCode
  have hreason := nullableText_isSome (projectSoundProofResult raw) (safeReason_cases raw)
  constructor
  · rintro ⟨hcode, hsequence, hlatency, hloss, -⟩
    exact ⟨hexit.mp hcode, hsequence, hloss, hlatency⟩
  · intro h
    exact ⟨hexit.mpr h.exitCode, h.sequence, h.latencyMs, h.lossPercent, hreason⟩

/-- A ping whose program was not found. -/
def notFound : RawPingResult := ⟨.finite 127, [], []⟩

/-- Not every result of a ping is accepted: the exit code of a program that was not found. -/
theorem not_ping_displayed :
    ¬ ∀ raw : RawPingResult,
      (parseResult (projectSoundProofResult raw).roundTrip).isSome = true := by
  intro h
  have hrefused : (parseResult (projectSoundProofResult notFound).roundTrip).isSome = false := by
    decide
  rw [h notFound] at hrefused
  exact absurd hrefused (by simp)

end Display

end Fipwave.PingResult
