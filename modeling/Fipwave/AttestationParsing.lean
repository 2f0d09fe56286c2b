import Fipwave.CyrinxMetadata
import Fipwave.IsolationAttestation
import Fipwave.ThrowingMethod

/-!
# Parsing an attestation

An attestation that arrives is any JSON value. The parser counts its members,
applies the check of a snapshot to them, builds the canonical text anew and
compares its digest. It returns the members it was given, except for the
schema version, which it never reads. An answer of the responder comes back as
it was sent.
-/

namespace Fipwave.AttestationParsing

open ByteWords ThrowingMethod TransitionRun IsolationAttestation

section Values

/-- Members of an object, in their order. -/
abbrev Members := List (String × Json)

/-- A member of an object. -/
def get (fields : Members) (key : String) : Option Json := fields.lookup key

/-- A member of a value; a value that is no object has none of the names read here. -/
def property (value : Option Json) (key : String) : Option Json :=
  match value with
  | some (.object fields) => get fields key
  | _ => none

/-- Set a member: in its place, or at the end. -/
def assign : Members → String → Json → Members
  | [], key, value => [(key, value)]
  | (name, old) :: rest, key, value =>
    if name = key then (name, value) :: rest else (name, old) :: assign rest key value

/-- `{ ...base, ...more }`. -/
def spread (base more : Members) : Members :=
  more.foldl (fun fields entry => assign fields entry.1 entry.2) base

/-- A value that counts as true. -/
def truthy : Option Json → Bool
  | none => false
  | some .null => false
  | some (.text value) => value ≠ []
  | some (.number value) => value ≠ 0
  | some (.flag value) => value
  | some (.array _) => true
  | some (.object _) => true

/-- The value is this text. -/
def isText (value : Option Json) (expected : Bytes) : Bool :=
  match value with
  | some (.text actual) => actual = expected
  | _ => false

/-- `value === true`. -/
def isTrue : Option Json → Bool
  | some (.flag value) => value
  | _ => false

/-- `Number.isSafeInteger(value)`. -/
def isSafe : Option Json → Bool
  | some (.number value) => isSafeInteger value
  | _ => false

/-- The number a value is; only numbers are compared. -/
def numeric : Option Json → ℚ
  | some (.number value) => value
  | _ => 0

/-- `typeof value === 'string' && value.length > 0`. -/
def isNonEmpty : Option Json → Bool
  | some (.text value) => value ≠ []
  | _ => false

/-- Texts that are equal; the other values compared here fail an earlier check or are different
objects. -/
def sameText (first second : Option Json) : Bool :=
  match first, second with
  | some (.text left), some (.text right) => left = right
  | _, _ => false

variable (numberText : ℚ → Bytes)

mutual

/-- `String(value)`; an object with a member `toString` has no text, it throws. -/
def textOf : Json → Option Bytes
  | .null => some [0x6e, 0x75, 0x6c, 0x6c]
  | .text value => some value
  | .number value => some (numberText value)
  | .flag true => some [0x74, 0x72, 0x75, 0x65]
  | .flag false => some [0x66, 0x61, 0x6c, 0x73, 0x65]
  | .array items => (itemTexts items).map (List.intercalate [0x2c])
  | .object fields =>
    if fields.any (fun entry => entry.1 = "toString") then none
    else some [0x5b, 0x6f, 0x62, 0x6a, 0x65, 0x63, 0x74, 0x20, 0x4f, 0x62, 0x6a, 0x65, 0x63, 0x74,
      0x5d]

/-- The texts that are joined for an array. -/
def itemTexts : List Json → Option (List Bytes)
  | [] => some []
  | .null :: items => (itemTexts items).map ([] :: ·)
  | item :: items => do
    let first ← textOf item
    let rest ← itemTexts items
    return first :: rest

end

end Values

section Model

/-- What is thrown. -/
inductive Failure where
  /-- An error with a code. -/
  | code (code : String)
  /-- An object has no text. -/
  | typeError
  deriving DecidableEq, Repr

/-- Fail when a condition holds. -/
def failWhen (condition : Bool) (code : String) : Except Failure Unit :=
  if condition then .error (.code code) else .ok ()

/-- The functions of the platform and `String(value)` of a number. -/
structure Platform extends IsolationResponderOptions where
  /-- `String(value)` of a number. -/
  numberText : ℚ → Bytes

variable (platform : Platform)

/-- Fail unless the text of a value matches a pattern; no pattern matches `undefined`. -/
def failUnlessMatch (pattern : Bytes → Bool) (value : Option Json) : Except Failure Unit :=
  match value with
  | none => .error (.code "snapshot_invalid")
  | some value =>
    match textOf platform.numberText value with
    | none => .error .typeError
    | some text => failWhen (!pattern text) "snapshot_invalid"

/-- The checks of `snapshot`. -/
def checkSnapshot (fields : Members) (now : ℚ) : Except Failure Unit := do
  failWhen (!truthy (get fields "transport") || !truthy (get fields "link")) "snapshot_invalid"
  failUnlessMatch platform isPublicKey (get fields "expectedPeerPublicKey")
  failUnlessMatch platform isUniqueLocal (get fields "targetIpv6")
  failUnlessMatch platform isBuild (get fields "build")
  failWhen (!isSafe (get fields "epoch") || numeric (get fields "epoch") < 0) "snapshot_invalid"
  failWhen (!isNonEmpty (get fields "settingsId")) "snapshot_invalid"
  failWhen (!isSafe (get fields "observedAtMs")) "snapshot_invalid"
  failWhen (now - numeric (get fields "observedAtMs") > windowMs ||
    numeric (get fields "observedAtMs") > now + 1000) "snapshot_invalid"
  failWhen (!isText (property (get fields "transport") "type") [0x73, 0x6f, 0x75, 0x6e, 0x64] ||
    !isText (property (get fields "transport") "state") [0x61, 0x63, 0x74, 0x69, 0x76, 0x65] ||
    !isTrue (property (get fields "transport") "workerUp") ||
    !isTrue (property (get fields "transport") "acousticReady") ||
    !isSafe (property (get fields "transport") "transportId")) "snapshot_invalid"
  failWhen (!isSafe (property (get fields "link") "linkId") ||
    !sameText (property (get fields "link") "peerPublicKey") (get fields "expectedPeerPublicKey"))
    "snapshot_invalid"

/-- `{ ...value }` of an object: the same members. -/
def copyOf : Option Json → Json
  | some (.object fields) => .object fields
  | _ => .object []

/-- `snapshot`. -/
def snapshot (fields : Members) (now : ℚ) : Except Failure Members := do
  checkSnapshot platform fields now
  return spread fields [("transport", copyOf (get fields "transport")),
    ("link", copyOf (get fields "link"))]

/-- The members of an object literal; those without a value are not serialized. -/
def members (keys : List String) (value : String → Option Json) : Members :=
  keys.flatMap (fun key => (value key).toList.map (fun found => (key, found)))

/-- Names in the canonical text. -/
def canonicalKeys : List String :=
  ["build", "challenge", "epoch", "expectedPeerPublicKey", "link", "observedAtMs", "schemaVersion",
    "settingsId", "targetIpv6", "transport"]

/-- `canonical`. -/
def canonicalOf (fields : Members) : Json :=
  .object (members canonicalKeys
    (fun key => if key = "schemaVersion" then some (.number 1) else get fields key))

/-- The digest of a snapshot with a challenge. -/
def digestOf (fields : Members) : Bytes := platform.sha256 (platform.stringify (canonicalOf fields))

/-- Sixty-four hexadecimal digits with small letters. -/
def isDigestText (text : Bytes) : Bool :=
  text.length = 64 && text.all (fun byte => isDigit byte || (0x61 ≤ byte && byte ≤ 0x66))

/-- Names in an attestation. -/
def attestationKeys : List String :=
  ["schemaVersion", "challenge", "expectedPeerPublicKey", "targetIpv6", "build", "epoch",
    "settingsId", "observedAtMs", "transport", "link", "snapshotDigest"]

/-- Names in a snapshot. -/
def snapshotKeys : List String :=
  ["expectedPeerPublicKey", "targetIpv6", "build", "epoch", "settingsId", "observedAtMs",
    "transport", "link"]

/-- `Number(value)`; what it gives for a value that is no number is never compared. -/
def numberOf : Option Json → Except Failure ℚ
  | some (.number value) => .ok value
  | some value =>
    match textOf platform.numberText value with
    | none => .error .typeError
    | some _ => .ok 0
  | none => .ok 0

/-- `challengeText`. -/
def challengeText : Option Json → Except Failure Bytes
  | some (.text value) =>
    if challengeValid ⟨true, value⟩ then .ok value else .error (.code "attestation_invalid")
  | _ => .error (.code "attestation_invalid")

/-- The digest an attestation states. -/
def statedDigest : Option Json → Except Failure Bytes
  | some (.text value) =>
    if isDigestText value then .ok value else .error (.code "attestation_invalid")
  | _ => .error (.code "attestation_invalid")

/-- The request an answer belongs to. -/
def request (challenge : Bytes) : Members :=
  [("schemaVersion", .number 1), ("challenge", .text challenge)]

/-- `parseIsolationAttestation`. -/
def parseIsolationAttestation (value : Json) : Except Failure Members :=
  match value with
  | .object fields => do
    failWhen (fields.length ≠ attestationKeys.length ||
      attestationKeys.any (fun key => (get fields key).isNone)) "attestation_invalid"
    let stated ← statedDigest (get fields "snapshotDigest")
    let now ← numberOf platform (get fields "observedAtMs")
    let base ← snapshot platform fields now
    let challenge ← challengeText (get fields "challenge")
    let digest := digestOf platform (spread base (request challenge))
    failWhen (digest ≠ stated) "attestation_invalid"
    return assign (spread base (request challenge)) "snapshotDigest" (.text digest)
  | _ => .error (.code "attestation_invalid")

end Model

section Lookup

variable {fields : Members} {key : String} {value : Json}

theorem get_cons (name : String) (value : Json) (fields : Members) (key : String) :
    get ((name, value) :: fields) key = if key = name then some value else get fields key := by
  unfold get
  rw [List.lookup_cons]
  by_cases h : key = name
  · rw [if_pos h, beq_iff_eq.mpr h]
  · rw [if_neg h, beq_eq_false_iff_ne.mpr h]

/-- A member that is assigned takes the place of the one of its name, or the last place. -/
theorem get_assign (fields : Members) (key : String) (value : Json) (other : String) :
    get (assign fields key value) other = if other = key then some value else get fields other := by
  induction fields with
  | nil => exact get_cons key value [] other
  | cons entry rest ih =>
    obtain ⟨name, old⟩ := entry
    unfold assign
    by_cases hname : name = key
    · rw [if_pos hname, get_cons, get_cons, hname]
      by_cases h : other = key
      · rw [if_pos h, if_pos h]
      · rw [if_neg h, if_neg h, if_neg h]
    · rw [if_neg hname, get_cons, get_cons, ih]
      by_cases h : other = name
      · have hne : other ≠ key := fun heq => hname (h.symm.trans heq)
        rw [if_pos h, if_neg hne, if_pos h]
      · rw [if_neg h, if_neg h]

/-- A member that is set to what it was. -/
theorem assign_same (h : get fields key = some value) : assign fields key value = fields := by
  induction fields with
  | nil => cases h
  | cons entry rest ih =>
    obtain ⟨name, old⟩ := entry
    unfold assign
    rw [get_cons] at h
    by_cases hname : name = key
    · rw [if_pos hname.symm] at h
      rw [if_pos hname, Option.some.inj h]
    · have hne : key ≠ name := fun heq => hname heq.symm
      rw [if_neg hne] at h
      rw [if_neg hname, ih h]

end Lookup

section Checks

variable {platform : Platform} {fields : Members} {now : ℚ}

/-- A check passes if its condition is false. -/
theorem failWhen_ok_iff {condition : Bool} {code : String} :
    failWhen condition code = .ok () ↔ condition = false := by
  cases condition <;> simp [failWhen]

/-- What the checks of a snapshot require at any time. -/
structure Checked (platform : Platform) (fields : Members) : Prop where
  /-- The key of the peer. -/
  key : failUnlessMatch platform isPublicKey (get fields "expectedPeerPublicKey") = .ok ()
  /-- The address. -/
  address : failUnlessMatch platform isUniqueLocal (get fields "targetIpv6") = .ok ()
  /-- The build. -/
  build : failUnlessMatch platform isBuild (get fields "build") = .ok ()
  /-- The epoch. -/
  epoch : isSafe (get fields "epoch") = true ∧ 0 ≤ numeric (get fields "epoch")
  /-- The settings. -/
  settings : isNonEmpty (get fields "settingsId") = true
  /-- The time of the observation. -/
  observed : isSafe (get fields "observedAtMs") = true
  /-- The transport. -/
  transport : isText (property (get fields "transport") "type") [0x73, 0x6f, 0x75, 0x6e, 0x64] =
      true ∧
    isText (property (get fields "transport") "state") [0x61, 0x63, 0x74, 0x69, 0x76, 0x65] = true ∧
    isTrue (property (get fields "transport") "workerUp") = true ∧
    isTrue (property (get fields "transport") "acousticReady") = true ∧
    isSafe (property (get fields "transport") "transportId") = true
  /-- The link. -/
  link : isSafe (property (get fields "link") "linkId") = true ∧
    sameText (property (get fields "link") "peerPublicKey")
      (get fields "expectedPeerPublicKey") = true

/-- Only an object has a member that is a number. -/
theorem exists_object_of_isSafe {value : Option Json} {key : String}
    (h : isSafe (property value key) = true) : ∃ fields, value = some (.object fields) := by
  unfold property at h
  split at h
  · exact ⟨_, rfl⟩
  · cases h

/-- The transport of a checked snapshot is an object, since its identifier was read. -/
theorem Checked.transportObject (h : Checked platform fields) :
    ∃ inner, get fields "transport" = some (.object inner) :=
  exists_object_of_isSafe h.transport.2.2.2.2

/-- So is its link. -/
theorem Checked.linkObject (h : Checked platform fields) :
    ∃ inner, get fields "link" = some (.object inner) := exists_object_of_isSafe h.link.1

/-- The checks pass when the members are as required and the observation is recent. -/
theorem checkSnapshot_ok_iff :
    checkSnapshot platform fields now = .ok () ↔ Checked platform fields ∧
      now - numeric (get fields "observedAtMs") ≤ windowMs ∧
      numeric (get fields "observedAtMs") ≤ now + 1000 := by
  unfold checkSnapshot
  simp only [bind_unit_ok_iff, failWhen_ok_iff, Bool.or_eq_false_iff, Bool.not_eq_false',
    decide_eq_false_iff_not, not_lt, gt_iff_lt]
  constructor
  · rintro ⟨-, hkey, haddress, hbuild, hepoch, hsettings, hobserved, hrecent, htransport, hlink⟩
    exact ⟨⟨hkey, haddress, hbuild, hepoch, hsettings, hobserved,
      ⟨htransport.1.1.1.1, htransport.1.1.1.2, htransport.1.1.2, htransport.1.2, htransport.2⟩,
      hlink⟩, hrecent⟩
  · rintro ⟨h, hrecent⟩
    obtain ⟨transport, htransport⟩ := h.transportObject
    obtain ⟨link, hlink⟩ := h.linkObject
    have hfields := h.transport
    refine ⟨⟨?_, ?_⟩, h.key, h.address, h.build, h.epoch, h.settings, h.observed, hrecent,
      ⟨⟨⟨⟨hfields.1, hfields.2.1⟩, hfields.2.2.1⟩, hfields.2.2.2.1⟩, hfields.2.2.2.2⟩, h.link⟩
    · rw [htransport]
      rfl
    · rw [hlink]
      rfl

/-- A snapshot that passes is returned as it is. -/
theorem snapshot_ok_iff {base : Members} :
    snapshot platform fields now = .ok base ↔
      checkSnapshot platform fields now = .ok () ∧ base = fields := by
  unfold snapshot
  rw [bind_unit_ok_iff]
  refine and_congr_right (fun hcheck => ?_)
  obtain ⟨h, -⟩ := checkSnapshot_ok_iff.mp hcheck
  obtain ⟨transport, htransport⟩ := h.transportObject
  obtain ⟨link, hlink⟩ := h.linkObject
  have hsame : spread fields [("transport", copyOf (get fields "transport")),
      ("link", copyOf (get fields "link"))] = fields := by
    have hfirst : assign fields "transport" (copyOf (get fields "transport")) = fields := by
      rw [htransport]
      exact assign_same htransport
    have hsecond : assign fields "link" (copyOf (get fields "link")) = fields := by
      rw [hlink]
      exact assign_same hlink
    unfold spread
    rw [List.foldl_cons, List.foldl_cons, List.foldl_nil, hfirst, hsecond]
  rw [hsame]
  constructor
  · intro heq
    exact (Except.ok.inj heq).symm
  · rintro rfl
    rfl

/-- The checks read the names of a snapshot. -/
theorem Checked.congr {others : Members} (h : Checked platform fields)
    (hsame : ∀ key ∈ snapshotKeys, get others key = get fields key) : Checked platform others := by
  have hkey := hsame "expectedPeerPublicKey" (by decide)
  have haddress := hsame "targetIpv6" (by decide)
  have hbuild := hsame "build" (by decide)
  have hepoch := hsame "epoch" (by decide)
  have hsettings := hsame "settingsId" (by decide)
  have hobserved := hsame "observedAtMs" (by decide)
  have htransport := hsame "transport" (by decide)
  have hlink := hsame "link" (by decide)
  constructor
  · rw [hkey]
    exact h.key
  · rw [haddress]
    exact h.address
  · rw [hbuild]
    exact h.build
  · rw [hepoch]
    exact h.epoch
  · rw [hsettings]
    exact h.settings
  · rw [hobserved]
    exact h.observed
  · rw [htransport]
    exact h.transport
  · rw [hlink, hkey]
    exact h.link

/-- The canonical text reads every name but the schema version. -/
theorem canonicalOf_congr {others : Members}
    (hsame : ∀ key ∈ canonicalKeys, key ≠ "schemaVersion" → get others key = get fields key) :
    canonicalOf others = canonicalOf fields := by
  unfold canonicalOf members
  congr 1
  refine List.flatMap_congr (fun key hkey => ?_)
  dsimp only
  by_cases hversion : key = "schemaVersion"
  · rw [if_pos hversion, if_pos hversion]
  · rw [if_neg hversion, if_neg hversion, hsame key hkey hversion]

end Checks

section Parsing

variable {platform : Platform} {fields : Members}

/-- What is required of the members of an attestation. -/
structure Attested (platform : Platform) (fields : Members) : Prop where
  /-- There are as many as names. -/
  count : fields.length = attestationKeys.length
  /-- Every name is there. -/
  present : ∀ key ∈ attestationKeys, ∃ value, get fields key = some value
  /-- The members of the snapshot pass. -/
  checked : Checked platform fields
  /-- The challenge. -/
  challenge : ∃ challenge, get fields "challenge" = some (.text challenge) ∧
    challengeValid ⟨true, challenge⟩ = true
  /-- The digest is that of the canonical text. -/
  digest : get fields "snapshotDigest" = some (.text (digestOf platform fields))
  /-- The digest is one. -/
  digits : isDigestText (digestOf platform fields) = true

/-- The digest that is stated is a text of sixty-four hexadecimal digits. -/
theorem statedDigest_ok_iff {value : Option Json} {stated : Bytes} :
    statedDigest value = .ok stated ↔ value = some (.text stated) ∧ isDigestText stated = true := by
  unfold statedDigest
  split
  · next text =>
    by_cases h : isDigestText text = true
    · rw [if_pos h]
      constructor
      · intro heq
        cases heq
        exact ⟨rfl, h⟩
      · rintro ⟨heq, -⟩
        cases heq
        rfl
    · rw [if_neg h]
      constructor
      · intro heq
        cases heq
      · rintro ⟨heq, hdigits⟩
        cases heq
        exact absurd hdigits h
  · next hother =>
    constructor
    · intro heq
      cases heq
    · rintro ⟨heq, -⟩
      exact absurd heq (hother stated)

/-- The challenge that is stated is a text in the alphabet of challenges. -/
theorem challengeText_ok_iff {value : Option Json} {challenge : Bytes} :
    challengeText value = .ok challenge ↔
      value = some (.text challenge) ∧ challengeValid ⟨true, challenge⟩ = true := by
  unfold challengeText
  split
  · next text =>
    by_cases h : challengeValid ⟨true, text⟩ = true
    · rw [if_pos h]
      constructor
      · intro heq
        cases heq
        exact ⟨rfl, h⟩
      · rintro ⟨heq, -⟩
        cases heq
        rfl
    · rw [if_neg h]
      constructor
      · intro heq
        cases heq
      · rintro ⟨heq, hvalid⟩
        cases heq
        exact absurd hvalid h
  · next hother =>
    constructor
    · intro heq
      cases heq
    · rintro ⟨heq, -⟩
      exact absurd heq (hother challenge)

/-- The members of the request win over those of the snapshot. -/
theorem get_spread_request (fields : Members) (challenge : Bytes) (key : String) :
    get (spread fields (request challenge)) key =
      if key = "challenge" then some (.text challenge)
      else if key = "schemaVersion" then some (.number 1) else get fields key := by
  unfold spread request
  rw [List.foldl_cons, List.foldl_cons, List.foldl_nil, get_assign, get_assign]

/-- The request does not change the digest of members with its challenge. -/
theorem digestOf_spread_request {challenge : Bytes}
    (h : get fields "challenge" = some (.text challenge)) :
    digestOf platform (spread fields (request challenge)) = digestOf platform fields := by
  have hcanonical : canonicalOf (spread fields (request challenge)) = canonicalOf fields := by
    refine canonicalOf_congr (fun key _ hversion => ?_)
    rw [get_spread_request, if_neg hversion]
    by_cases hkey : key = "challenge"
    · rw [if_pos hkey, hkey, h]
    · rw [if_neg hkey]
  unfold digestOf
  rw [hcanonical]

/-- What is returned has the schema version 1 and is otherwise what was given. -/
theorem returned_eq {challenge digest : Bytes}
    (hchallenge : get fields "challenge" = some (.text challenge))
    (hdigest : get fields "snapshotDigest" = some (.text digest)) :
    assign (spread fields (request challenge)) "snapshotDigest" (.text digest) =
      assign fields "schemaVersion" (.number 1) := by
  have hkept : assign (assign fields "schemaVersion" (.number 1)) "challenge" (.text challenge) =
      assign fields "schemaVersion" (.number 1) := by
    refine assign_same ?_
    rw [get_assign, if_neg (by decide)]
    exact hchallenge
  have hspread : spread fields (request challenge) = assign fields "schemaVersion" (.number 1) := by
    unfold spread request
    rw [List.foldl_cons, List.foldl_cons, List.foldl_nil, hkept]
  rw [hspread]
  refine assign_same ?_
  rw [get_assign, if_neg (by decide)]
  exact hdigest

/-- An answer is accepted exactly if it is an attestation, and returned with its schema version set
to one. The source never compares that member. -/
theorem parse_ok_iff {result : Members} :
    parseIsolationAttestation platform (.object fields) = .ok result ↔
      Attested platform fields ∧ result = assign fields "schemaVersion" (.number 1) := by
  unfold parseIsolationAttestation
  dsimp only
  rw [bind_unit_ok_iff, failWhen_ok_iff, Bool.or_eq_false_iff, decide_eq_false_iff_not, not_not,
    List.any_eq_false]
  constructor
  · rintro ⟨⟨hcount, hpresent⟩, h⟩
    obtain ⟨stated, hstatedOk, hafter⟩ := bind_ok h
    obtain ⟨now, -, hchecked⟩ := bind_ok hafter
    obtain ⟨base, hbase, hrest⟩ := bind_ok hchecked
    obtain ⟨challenge, hchallengeOk, hlast⟩ := bind_ok hrest
    obtain ⟨hcheck, hbaseEq⟩ := snapshot_ok_iff.mp hbase
    obtain ⟨hstated, hdigits⟩ := statedDigest_ok_iff.mp hstatedOk
    obtain ⟨hchallenge, hvalid⟩ := challengeText_ok_iff.mp hchallengeOk
    rw [hbaseEq, digestOf_spread_request hchallenge, bind_unit_ok_iff, failWhen_ok_iff,
      decide_eq_false_iff_not, not_not] at hlast
    obtain ⟨hsame, hresult⟩ := hlast
    rw [← hsame] at hstated hdigits
    rw [returned_eq hchallenge hstated] at hresult
    refine ⟨⟨hcount, fun key hkey => ?_, (checkSnapshot_ok_iff.mp hcheck).1,
      ⟨challenge, hchallenge, hvalid⟩, hstated, hdigits⟩, (Except.ok.inj hresult).symm⟩
    cases hget : get fields key with
    | none => exact absurd (by rw [hget]; rfl) (hpresent key hkey)
    | some value => exact ⟨value, rfl⟩
  · rintro ⟨h, rfl⟩
    obtain ⟨challenge, hchallenge, hvalid⟩ := h.challenge
    have hstated := statedDigest_ok_iff.mpr ⟨h.digest, h.digits⟩
    have hnow : numberOf platform (get fields "observedAtMs") =
        .ok (numeric (get fields "observedAtMs")) := by
      have hsafe := h.checked.observed
      unfold isSafe at hsafe
      split at hsafe
      · next value heq =>
        rw [heq]
        rfl
      · cases hsafe
    have hwindow : (0 : ℚ) ≤ windowMs := by decide +kernel
    have hsnapshot : snapshot platform fields (numeric (get fields "observedAtMs")) = .ok fields := by
      refine snapshot_ok_iff.mpr ⟨checkSnapshot_ok_iff.mpr ⟨h.checked, ?_, ?_⟩, rfl⟩
      · rw [sub_self]
        exact hwindow
      · linarith
    refine ⟨⟨h.count, fun key hkey => ?_⟩, ?_⟩
    · obtain ⟨value, hvalue⟩ := h.present key hkey
      rw [hvalue]
      exact Bool.false_ne_true
    · rw [hstated, ok_bind, hnow, ok_bind, hsnapshot, ok_bind,
        challengeText_ok_iff.mpr ⟨hchallenge, hvalid⟩, ok_bind, digestOf_spread_request hchallenge,
        bind_unit_ok_iff, failWhen_ok_iff, decide_eq_false_iff_not, not_not]
      exact ⟨rfl, by rw [returned_eq hchallenge h.digest]; rfl⟩

end Parsing

section Answers

variable {platform : Platform} {fields response : Members} {challenge : Bytes} {now : ℚ}

/-- Members are looked up in the front part first. -/
theorem get_append (front back : Members) (key : String) :
    get (front ++ back) key = (get front key).or (get back key) := List.lookup_append

/-- A member whose name is there has a value. -/
theorem exists_get {key : String} (h : key ∈ fields.map Prod.fst) :
    ∃ value, get fields key = some value := by
  induction fields with
  | nil => cases h
  | cons entry rest ih =>
    obtain ⟨name, value⟩ := entry
    rw [get_cons]
    by_cases hname : key = name
    · exact ⟨value, if_pos hname⟩
    · rw [if_neg hname]
      exact ih (List.mem_of_ne_of_mem hname h)

/-- The members of an answer. -/
structure Answer (platform : Platform) (fields : Members) (challenge : Bytes)
    (response : Members) : Prop where
  /-- The snapshot passes. -/
  checked : Checked platform fields
  /-- The request, the snapshot and the digest. -/
  members : response = request challenge ++ fields ++
    [("snapshotDigest", .text (digestOf platform (spread fields (request challenge))))]

variable (hanswer : Answer platform fields challenge response)

include hanswer

/-- The members of an answer are those of the snapshot it was made from. -/
theorem Answer.get_snapshot {key : String} (hkey : key ∈ snapshotKeys)
    (hpresent : ∃ value, get fields key = some value) : get response key = get fields key := by
  obtain ⟨value, hvalue⟩ := hpresent
  have hrequest : get (request challenge) key = none := by
    have hversion : key ≠ "schemaVersion" := fun heq => absurd (heq ▸ hkey) (by decide)
    have hchallenge : key ≠ "challenge" := fun heq => absurd (heq ▸ hkey) (by decide)
    unfold request
    rw [get_cons, if_neg hversion, get_cons, if_neg hchallenge]
    rfl
  rw [hanswer.members, get_append, get_append, hrequest, hvalue]
  rfl

/-- An answer the responder builds is an attestation: its members are the declared ones, and its
digest is taken of the snapshot spread with the request. -/
theorem Answer.attested (hnames : (fields.map Prod.fst).Perm snapshotKeys)
    (hvalid : challengeValid ⟨true, challenge⟩ = true)
    (hdigits : ∀ text, isDigestText (platform.sha256 text) = true) :
    Attested platform response := by
  have hpresent : ∀ key ∈ snapshotKeys, ∃ value, get fields key = some value := fun key hkey =>
    exists_get (hnames.mem_iff.mpr hkey)
  have hversion : get response "schemaVersion" = some (.number 1) := by
    rw [hanswer.members]
    rfl
  have hchallenge : get response "challenge" = some (.text challenge) := by
    rw [hanswer.members]
    rfl
  have hdigest : get response "snapshotDigest" =
      some (.text (digestOf platform (spread fields (request challenge)))) := by
    have hfields : get fields "snapshotDigest" = none := by
      unfold get
      rw [List.lookup_eq_none_iff]
      intro entry hentry
      have hmem := hnames.mem_iff.mp (List.mem_map_of_mem hentry)
      have hne : "snapshotDigest" ≠ entry.1 := fun heq => absurd (heq ▸ hmem) (by decide)
      exact bne_iff_ne.mpr hne
    rw [hanswer.members, get_append, get_append, hfields]
    rfl
  have hcanonical : canonicalOf response = canonicalOf (spread fields (request challenge)) := by
    refine canonicalOf_congr (fun key hkey hne => ?_)
    rw [get_spread_request, if_neg hne]
    by_cases hname : key = "challenge"
    · rw [if_pos hname, hname, hchallenge]
    · have hmem : key ∈ snapshotKeys := by
        simp only [canonicalKeys, snapshotKeys, List.mem_cons, List.not_mem_nil, or_false]
          at hkey hname hne ⊢
        tauto
      rw [if_neg hname, hanswer.get_snapshot hmem (hpresent key hmem)]
  have hsame : digestOf platform response =
      digestOf platform (spread fields (request challenge)) := by
    unfold digestOf
    rw [hcanonical]
  have hlength : fields.length = snapshotKeys.length := by
    rw [← List.length_map (f := Prod.fst), hnames.length_eq]
  refine ⟨?_, fun key hkey => ?_, ?_, ⟨challenge, hchallenge, hvalid⟩, ?_, hdigits _⟩
  · rw [hanswer.members, List.length_append, List.length_append, hlength]
    rfl
  · have hcases : key = "schemaVersion" ∨ key = "challenge" ∨ key = "snapshotDigest" ∨
        key ∈ snapshotKeys := by
      simp only [attestationKeys, snapshotKeys, List.mem_cons, List.not_mem_nil, or_false]
        at hkey ⊢
      tauto
    rcases hcases with rfl | rfl | rfl | hmem
    · exact ⟨_, hversion⟩
    · exact ⟨_, hchallenge⟩
    · exact ⟨_, hdigest⟩
    · rw [hanswer.get_snapshot hmem (hpresent key hmem)]
      exact hpresent key hmem
  · exact hanswer.checked.congr (fun key hkey => hanswer.get_snapshot hkey (hpresent key hkey))
  · rw [hsame]
    exact hdigest

/-- An answer comes back as it was sent. -/
theorem Answer.parse (hnames : (fields.map Prod.fst).Perm snapshotKeys)
    (hvalid : challengeValid ⟨true, challenge⟩ = true)
    (hdigits : ∀ text, isDigestText (platform.sha256 text) = true) :
    parseIsolationAttestation platform (.object response) = .ok response := by
  have hversion : get response "schemaVersion" = some (.number 1) := by
    rw [hanswer.members]
    rfl
  refine parse_ok_iff.mpr ⟨hanswer.attested hnames hvalid hdigits, ?_⟩
  rw [assign_same hversion]

end Answers

section Exactness

variable {platform : Platform} {fields changed : Members} {value : Json} {result : Members}

/-- Members with exactly the names of an attestation. -/
def Named (fields : Members) : Prop :=
  fields.length = attestationKeys.length ∧
    ∀ key ∈ attestationKeys, ∃ value, get fields key = some value

/-- A member that is changed keeps its name, and no other name comes in. -/
theorem Named.assign (h : Named fields) {key : String} {found : Json}
    (hkey : get fields key = some found) (value : Json) : Named (assign fields key value) := by
  have hlength : ∀ (entries : Members) (found : Json), get entries key = some found →
      (AttestationParsing.assign entries key value).length = entries.length := by
    intro entries
    induction entries with
    | nil =>
      intro found hfound
      cases hfound
    | cons entry rest ih =>
      intro found hfound
      obtain ⟨name, old⟩ := entry
      rw [get_cons] at hfound
      unfold AttestationParsing.assign
      by_cases hname : name = key
      · rw [if_pos hname]
        rfl
      · rw [if_neg (fun heq => hname heq.symm)] at hfound
        rw [if_neg hname, List.length_cons, List.length_cons, ih found hfound]
  refine ⟨(hlength fields found hkey).trans h.1, fun other hother => ?_⟩
  rw [get_assign]
  by_cases hsame : other = key
  · exact ⟨value, if_pos hsame⟩
  · rw [if_neg hsame]
    exact h.2 other hother

section Bench

/-- The decimal digits of a natural number. -/
def integerText (value : ℚ) : Bytes :=
  (Nat.toDigits 10 value.num.toNat).map (fun c => UInt8.ofNat c.toNat)

/-- A name in quotation marks. -/
def nameText (name : String) : Bytes :=
  [0x22] ++ name.toList.map (fun c => UInt8.ofNat c.toNat) ++ [0x22]

mutual

/-- `JSON.stringify` of a value whose numbers are natural and whose texts need no escape. -/
def plainText : Json → Bytes
  | .null => [0x6e, 0x75, 0x6c, 0x6c]
  | .text value => [0x22] ++ value ++ [0x22]
  | .number value => integerText value
  | .flag true => [0x74, 0x72, 0x75, 0x65]
  | .flag false => [0x66, 0x61, 0x6c, 0x73, 0x65]
  | .array items => [0x5b] ++ List.intercalate [0x2c] (plainItems items) ++ [0x5d]
  | .object fields => [0x7b] ++ List.intercalate [0x2c] (plainMembers fields) ++ [0x7d]

/-- The texts of items. -/
def plainItems : List Json → List Bytes
  | [] => []
  | item :: items => plainText item :: plainItems items

/-- The texts of members. -/
def plainMembers : List (String × Json) → List Bytes
  | [] => []
  | (name, value) :: fields => (nameText name ++ [0x3a] ++ plainText value) :: plainMembers fields

end

/-- A hexadecimal digit. -/
def hexDigit (n : ℕ) : UInt8 := if n < 10 then UInt8.ofNat (0x30 + n) else UInt8.ofNat (0x57 + n)

/-- A challenge for examples. -/
def benchChallenge : Bytes := List.replicate 43 0x41

end Bench

end Exactness

section Responder

variable {options : IsolationResponderOptions} {platform : Platform} {value : IsolationSnapshot}
  {now : ℚ}

/-- A call that holds what it was given. -/
def Faithful (options : IsolationResponderOptions) (call : Call) : Prop :=
  (call.status = .waiting → challengeValid ⟨true, call.challenge⟩ = true) ∧
    ∀ response, call.status = .attested response →
      challengeValid ⟨true, call.challenge⟩ = true ∧ ∃ value, snapshotValid value call.time = true ∧
        response = ⟨call.challenge, value,
          options.sha256 (options.stringify (canonical value call.challenge))⟩

/-- A call without an answer that does not wait. -/
theorem faithful_of_ended {call : Call} (hwaiting : call.status ≠ .waiting)
    (hattested : ∀ response, call.status ≠ .attested response) : Faithful options call :=
  ⟨fun h => absurd h hwaiting, fun response h => absurd h (hattested response)⟩

/-- A step keeps what the calls hold. A call is appended with its fate, or settles at its own index;
the others stay. -/
theorem faithful_step (s : Responder) (event : Event)
    (h : ∀ call ∈ s.calls, Faithful options call) :
    ∀ call ∈ (step options s event).calls, Faithful options call := by
  have happend : ∀ last : Call, Faithful options last →
      ∀ call ∈ s.calls ++ [last], Faithful options call := by
    intro last hlast call hcall
    rcases List.mem_append.mp hcall with hcall | hcall
    · exact h call hcall
    · rw [List.mem_singleton.mp hcall]
      exact hlast
  have hset : ∀ (index : ℕ) (last : Call), Faithful options last →
      ∀ call ∈ s.calls.set index last, Faithful options call := by
    intro index last hlast call hcall
    rcases List.mem_or_eq_of_mem_set hcall with hcall | rfl
    · exact h call hcall
    · exact hlast
  have hrefused : ∀ (time : ℚ) (challenge : Bytes) (reason : String),
      Faithful options ⟨time, challenge, .refused reason⟩ := fun time challenge reason =>
    faithful_of_ended (fun heq => by cases heq) (fun response heq => by cases heq)
  cases event with
  | attest time value =>
    unfold step attest
    dsimp only
    split
    · exact happend _ (hrefused _ _ _)
    · next hvalid =>
      have haccepted : challengeValid ⟨true, value.challenge⟩ = true := by
        rw [Bool.not_eq_true, Bool.not_eq_false'] at hvalid
        unfold challengeValid at hvalid ⊢
        simp only [Bool.and_eq_true] at hvalid ⊢
        exact ⟨⟨⟨trivial, hvalid.1.1.2⟩, hvalid.1.2⟩, hvalid.2⟩
      split
      · exact happend _ (hrefused _ _ _)
      · split
        · exact happend _ (hrefused _ _ _)
        · exact happend _ ⟨fun _ => haccepted, fun response heq => by cases heq⟩
  | settle index outcome =>
    unfold step settle
    dsimp only
    cases hcall : s.calls[index]? with
    | none => exact h
    | some call =>
      have hfaithful := h call (List.mem_of_getElem? hcall)
      dsimp only
      split
      · exact h
      · next hwaiting =>
        have haccepted := hfaithful.1 (not_not.mp hwaiting)
        cases hcurrent : currentSnapshot outcome call.time with
        | error reason =>
          exact hset index _ (faithful_of_ended (fun heq => by cases heq)
            (fun response heq => by cases heq))
        | ok value =>
          have hvalid : snapshotValid value call.time = true := by
            unfold currentSnapshot at hcurrent
            split at hcurrent
            · cases hcurrent
            · split at hcurrent
              · next hsnapshot =>
                cases hcurrent
                exact hsnapshot
              · cases hcurrent
          refine hset index _ ⟨fun heq => ?_, fun response heq => ?_⟩
          · dsimp only at heq
            split at heq <;> cases heq
          · dsimp only at heq
            split at heq
            · cases heq
            · cases heq
              exact ⟨haccepted, value, hvalid, rfl⟩

/-- The snapshot with the members of the example. -/
def benchSnapshot : IsolationSnapshot where
  expectedPeerPublicKey := [0x6e, 0x70, 0x75, 0x62, 0x31, 0x71]
  targetIpv6 := [0x66, 0x64, 0x30, 0x30, 0x3a, 0x31]
  build := List.replicate 40 0x30
  epoch := 1
  settingsId := [0x73]
  observedAtMs := 1
  transport := ⟨1, [0x73, 0x6f, 0x75, 0x6e, 0x64], [0x61, 0x63, 0x74, 0x69, 0x76, 0x65], true, true⟩
  link := ⟨1, [0x6e, 0x70, 0x75, 0x62, 0x31, 0x71]⟩

/-- A challenge is answered. -/
def benchExchange : List Event :=
  [.attest 1 ⟨true, benchChallenge⟩, .settle 0 (.ok benchSnapshot)]

end Responder

end Fipwave.AttestationParsing
