import Fipwave.AttestationParsing

/-!
# Responses of the control daemon

The daemon answers a request with one line of JSON, which arrives in chunks.
The client collects the chunks up to a limit, admits white space after the
line and parses the line when the stream ends. What the chunks are should not
matter, but a chunk after the one that brought the end of the line is refused
even if it is white space.
-/

namespace Fipwave.ControlResponse

open ByteWords ThrowingMethod IsolationAttestation AttestationParsing

section Parsing

/-- Codes of `FipsControlError`. -/
inductive ControlError where
  | queryInvalid
  | clientClosed
  | connectTimeout
  | readTimeout
  | totalTimeout
  | transportError
  | protocolInvalid
  | daemonError
  | aborted
  deriving DecidableEq, Repr

/-- What can be asked. -/
inductive FipsControlQuery where
  | peers
  | links
  | transports
  | sessions
  deriving DecidableEq, Repr

/-- A peer to connect to. -/
structure FipsConnectRequest where
  /-- Key. -/
  npub : Bytes
  /-- Address. -/
  address : Bytes
  /-- Transport. -/
  transport : Bytes
  deriving DecidableEq, Repr

/-- A peer. -/
structure FipsPeer where
  /-- Key. -/
  npub : Bytes
  /-- Connectivity. -/
  connectivity : Bytes
  /-- Link. -/
  linkId : ℚ
  /-- Kind of its transport. -/
  transportType : Bytes
  /-- Time of its authentication. -/
  authenticatedAtMs : ℚ
  /-- Time it was seen last. -/
  lastSeenMs : ℚ

/-- A link. -/
structure FipsLink where
  /-- Identifier. -/
  linkId : ℚ
  /-- Transport. -/
  transportId : ℚ
  /-- State. -/
  state : Bytes
  /-- Time of its creation. -/
  createdAtMs : ℚ
  /-- Counters. -/
  stats : Members

/-- A transport. -/
structure FipsTransport where
  /-- Identifier. -/
  transportId : ℚ
  /-- Kind. -/
  type : Bytes
  /-- State. -/
  state : Bytes
  /-- Largest packet. -/
  mtu : ℚ
  /-- Counters. -/
  stats : Members

/-- A session. -/
structure FipsSession where
  /-- Key. -/
  npub : Bytes
  /-- State. -/
  state : Bytes

/-- What is answered. -/
inductive FipsControlData where
  | peers (rows : List FipsPeer)
  | links (rows : List FipsLink)
  | transports (rows : List FipsTransport)
  | sessions (rows : List FipsSession)

/-- Length of a text in UTF-16 units. -/
def textLength (text : Bytes) : ℕ :=
  text.countP (fun byte => byte < 0x80 || 0xc0 ≤ byte) + text.countP (fun byte => 0xf0 ≤ byte)

/-- A member that is an object. -/
def asObject : Option Json → Except ControlError Members
  | some (.object fields) => .ok fields
  | _ => .error .protocolInvalid

/-- A member that is a text of 1 to 2048 units. -/
def asText : Option Json → Except ControlError Bytes
  | some (.text value) =>
    if value ≠ [] ∧ textLength value ≤ 2048 then .ok value else .error .protocolInvalid
  | _ => .error .protocolInvalid

/-- A member that is a natural number a double holds exactly. -/
def asFinite : Option Json → Except ControlError ℚ
  | some (.number value) =>
    if isSafeInteger value ∧ 0 ≤ value then .ok value else .error .protocolInvalid
  | _ => .error .protocolInvalid

/-- A member that is an array. -/
def asArray : Option Json → Except ControlError (List Json)
  | some (.array items) => .ok items
  | _ => .error .protocolInvalid

/-- The object has these names and no other. -/
def exactKeys (fields : Members) (keys : List String) : Bool :=
  fields.all (fun entry => keys.contains entry.1) && keys.all (fun key => (get fields key).isSome)

/-- Fail unless the names are exact. -/
def failUnlessExact (fields : Members) (keys : List String) : Except ControlError Unit :=
  if exactKeys fields keys then .ok () else .error .protocolInvalid

/-- A row of `peers`. -/
def peerRow (row : Json) : Except ControlError FipsPeer := do
  let value ← asObject (some row)
  let npub ← asText (get value "npub")
  let connectivity ← asText (get value "connectivity")
  let linkId ← asFinite (get value "link_id")
  let transportType ← asText (get value "transport_type")
  let authenticatedAtMs ← asFinite (get value "authenticated_at_ms")
  let lastSeenMs ← asFinite (get value "last_seen_ms")
  return ⟨npub, connectivity, linkId, transportType, authenticatedAtMs, lastSeenMs⟩

/-- A row of `links`. -/
def linkRow (row : Json) : Except ControlError FipsLink := do
  let value ← asObject (some row)
  let stats ← asObject (get value "stats")
  let linkId ← asFinite (get value "link_id")
  let transportId ← asFinite (get value "transport_id")
  let state ← asText (get value "state")
  let createdAtMs ← asFinite (get value "created_at_ms")
  let _ ← stats.mapM (fun entry => asFinite (some entry.2))
  return ⟨linkId, transportId, state, createdAtMs, stats⟩

/-- A row of `transports`. -/
def transportRow (row : Json) : Except ControlError FipsTransport := do
  let value ← asObject (some row)
  let stats ← asObject (get value "stats")
  let transportId ← asFinite (get value "transport_id")
  let type ← asText (get value "type")
  let state ← asText (get value "state")
  let mtu ← asFinite (get value "mtu")
  return ⟨transportId, type, state, mtu, stats⟩

/-- A row of `sessions`. -/
def sessionRow (row : Json) : Except ControlError FipsSession := do
  let value ← asObject (some row)
  let npub ← asText (get value "npub")
  let state ← asText (get value "state")
  return ⟨npub, state⟩

/-- The member with the rows. -/
def FipsControlQuery.name : FipsControlQuery → String
  | .peers => "peers"
  | .links => "links"
  | .transports => "transports"
  | .sessions => "sessions"

/-- `parseRows`. -/
def parseRows (query : FipsControlQuery) (data : Option Json) :
    Except ControlError FipsControlData := do
  let body ← asObject data
  failUnlessExact body [query.name]
  let rows ← asArray (get body query.name)
  match query with
  | .peers => return .peers (← rows.mapM peerRow)
  | .links => return .links (← rows.mapM linkRow)
  | .transports => return .transports (← rows.mapM transportRow)
  | .sessions => return .sessions (← rows.mapM sessionRow)

/-- `parseEnvelope`; `decode` is the strict UTF-8 decoder and `JSON.parse`, with nothing where
either throws. -/
def parseEnvelope (decode : Bytes → Option Json) (bytes : Bytes) :
    Except ControlError (Option Json) := do
  let value ← asObject (decode bytes)
  let status ← asText (get value "status")
  if status = [0x65, 0x72, 0x72, 0x6f, 0x72] ∧ exactKeys value ["status", "message"] ∧
      (asText (get value "message")).isOk then
    .error .daemonError
  else if status ≠ [0x6f, 0x6b] ∨ !exactKeys value ["status", "data"] then .error .protocolInvalid
  else return get value "data"

/-- `parseResponse`. -/
def parseResponse (decode : Bytes → Option Json) (query : FipsControlQuery) (bytes : Bytes) :
    Except ControlError FipsControlData := do
  let data ← parseEnvelope decode bytes
  parseRows query data

/-- `parseConnectResponse`. -/
def parseConnectResponse (decode : Bytes → Option Json) (expected : FipsConnectRequest)
    (bytes : Bytes) : Except ControlError FipsConnectRequest := do
  let envelope ← parseEnvelope decode bytes
  let data ← asObject envelope
  failUnlessExact data ["npub", "address", "transport"]
  if isText (get data "npub") expected.npub && isText (get data "address") expected.address &&
      isText (get data "transport") expected.transport then
    return expected
  else .error .protocolInvalid

end Parsing

section Stream

variable {α : Type}

/-- Largest response. -/
def maxResponseBytes : ℕ := 65536

/-- The end of a line. -/
def newline : UInt8 := 0x0a

/-- A space, a tabulator, a carriage return or the end of a line. -/
def isBlank (byte : UInt8) : Bool := byte = 0x20 || byte = 0x09 || byte = 0x0d || byte = newline

/-- The line in front of the first end of a line. -/
def line (bytes : Bytes) : Bytes := bytes.take (bytes.idxOf newline)

/-- What follows the first end of a line. -/
def afterLine (bytes : Bytes) : Bytes := bytes.drop (bytes.idxOf newline + 1)

/-- What was received of a response. -/
structure Reply where
  /-- Bytes received. -/
  bytes : Bytes := []
  /-- An end of a line was found. -/
  sawNewline : Bool := false
  deriving DecidableEq, Repr

/-- `onData`: an error settles the request, and what follows is not received. -/
def onData (reply : Reply) (chunk : Bytes) : Except ControlError Reply :=
  let bytes := reply.bytes ++ chunk
  if bytes.length > maxResponseBytes then .error .protocolInvalid
  else if newline ∉ bytes then .ok { reply with bytes := bytes }
  else if reply.sawNewline || (afterLine bytes).any (fun byte => !isBlank byte) then
    .error .protocolInvalid
  else .ok ⟨bytes, true⟩

/-- `onEnd`. -/
def onEnd (parse : Bytes → Except ControlError α) (reply : Reply) : Except ControlError α :=
  if !reply.sawNewline then .error .protocolInvalid else parse (line reply.bytes)

/-- What a request settles with when the chunks of its response arrive and the stream ends. -/
def settle (parse : Bytes → Except ControlError α) (chunks : List Bytes) :
    Except ControlError α := do
  let reply ← chunks.foldlM onData {}
  onEnd parse reply

end Stream

section Chunks

variable {α : Type} {parse : Bytes → Except ControlError α}

/-- A response that is parsed when it comes in one piece: it is within the limit, has an end of a
line and white space after it. -/
structure Clean (bytes : Bytes) : Prop where
  /-- It is within the limit. -/
  size : bytes.length ≤ maxResponseBytes
  /-- A line ends. -/
  ends : newline ∈ bytes
  /-- Only white space follows. -/
  blank : ∀ byte ∈ afterLine bytes, isBlank byte = true

/-- A chunk follows the one that brings the end of the line. -/
def Late : List Bytes → Prop
  | [] => False
  | chunk :: rest => (newline ∈ chunk ∧ rest ≠ []) ∨ (newline ∉ chunk ∧ Late rest)

/-- Once the line has ended, further bytes stand behind it. -/
theorem afterLine_append {front : Bytes} (h : newline ∈ front) (back : Bytes) :
    afterLine (front ++ back) = afterLine front ++ back := by
  have hindex : front.idxOf newline + 1 ≤ front.length := List.idxOf_lt_length_of_mem h
  unfold afterLine
  rw [List.idxOf_append_of_mem h, List.drop_append_of_le_length hindex]

/-- Nothing is received after the chunk with the end of the line. -/
theorem onData_after {reply : Reply} (hsaw : reply.sawNewline = true)
    (hends : newline ∈ reply.bytes) (chunk : Bytes) :
    onData reply chunk = .error .protocolInvalid := by
  have hmem : ¬ newline ∉ reply.bytes ++ chunk := not_not.mpr (List.mem_append_left _ hends)
  unfold onData
  dsimp only
  rw [if_neg hmem, hsaw, Bool.true_or, if_pos rfl, ite_self]

/-- The outcome of a response of which a part without an end of a line has arrived. By induction
over the chunks left, up to the one that ends the line or is too much. -/
theorem settle_from (chunks : List Bytes) {front : Bytes} (hfront : newline ∉ front) :
    (chunks.foldlM onData ⟨front, false⟩ >>= onEnd parse) = .error .protocolInvalid ∧
        ¬(Clean (front ++ chunks.flatten) ∧ ¬Late chunks) ∨
      (chunks.foldlM onData ⟨front, false⟩ >>= onEnd parse) =
        parse (line (front ++ chunks.flatten)) ∧
          Clean (front ++ chunks.flatten) ∧ ¬Late chunks := by
  induction chunks generalizing front with
  | nil =>
    refine .inl ⟨rfl, fun h => ?_⟩
    have hends := h.1.ends
    rw [List.flatten_nil, List.append_nil] at hends
    exact hfront hends
  | cons chunk rest ih =>
    rw [List.flatten_cons, ← List.append_assoc, List.foldlM_cons]
    by_cases hsize : (front ++ chunk).length > maxResponseBytes
    · have hdata : onData ⟨front, false⟩ chunk = .error .protocolInvalid := by
        unfold onData
        rw [if_pos hsize]
      refine .inl ⟨by rw [hdata]; rfl, fun h => ?_⟩
      have hwhole := h.1.size
      rw [List.length_append] at hwhole
      omega
    · by_cases hends : newline ∈ front ++ chunk
      · have hchunk : newline ∈ chunk := (List.mem_append.mp hends).resolve_left hfront
        have hafter := afterLine_append hends rest.flatten
        by_cases hblank : ∀ byte ∈ afterLine (front ++ chunk), isBlank byte = true
        · have hnone : (afterLine (front ++ chunk)).any (fun byte => !isBlank byte) = false := by
            rw [List.any_eq_false]
            intro byte hbyte
            rw [hblank byte hbyte]
            exact Bool.false_ne_true
          have hdata : onData ⟨front, false⟩ chunk = .ok ⟨front ++ chunk, true⟩ := by
            unfold onData
            dsimp only
            rw [if_neg hsize, if_neg (not_not.mpr hends), hnone]
            rfl
          rw [hdata, ok_bind]
          cases rest with
          | nil =>
            rw [List.flatten_nil, List.append_nil]
            refine .inr ⟨rfl, ⟨Nat.le_of_not_lt hsize, hends, hblank⟩, ?_⟩
            rintro (⟨-, hrest⟩ | ⟨hmissing, -⟩)
            · exact hrest rfl
            · exact hmissing hchunk
          | cons next rest =>
            have hnext : onData ⟨front ++ chunk, true⟩ next = .error .protocolInvalid :=
              onData_after rfl hends next
            refine .inl ⟨by rw [List.foldlM_cons, hnext]; rfl, fun h => h.2 (.inl ⟨hchunk, ?_⟩)⟩
            exact List.cons_ne_nil next rest
        · have hsome : (afterLine (front ++ chunk)).any (fun byte => !isBlank byte) = true := by
            rw [List.any_eq_true]
            by_contra hnone
            refine hblank (fun byte hbyte => ?_)
            by_contra hbyteBlank
            exact hnone ⟨byte, hbyte, by simpa using hbyteBlank⟩
          have hdata : onData ⟨front, false⟩ chunk = .error .protocolInvalid := by
            unfold onData
            dsimp only
            rw [if_neg hsize, if_neg (not_not.mpr hends), hsome, Bool.or_true, if_pos rfl]
          refine .inl ⟨by rw [hdata]; rfl, fun h => hblank (fun byte hbyte => ?_)⟩
          refine h.1.blank byte ?_
          rw [hafter]
          exact List.mem_append_left _ hbyte
      · have hchunk : newline ∉ chunk := fun hmem => hends (List.mem_append_right _ hmem)
        have hdata : onData ⟨front, false⟩ chunk = .ok ⟨front ++ chunk, false⟩ := by
          unfold onData
          dsimp only
          rw [if_neg hsize, if_pos hends]
        have hlate : Late (chunk :: rest) ↔ Late rest := by
          constructor
          · rintro (⟨hmem, -⟩ | ⟨-, hrest⟩)
            · exact absurd hmem hchunk
            · exact hrest
          · intro hrest
            exact .inr ⟨hchunk, hrest⟩
        rw [hdata, ok_bind, hlate]
        exact ih hends

/-- A response is parsed if it is clean and nothing follows the chunk with the end of the line. -/
theorem settle_eq_parse {chunks : List Bytes} (hclean : Clean chunks.flatten)
    (hlate : ¬Late chunks) : settle parse chunks = parse (line chunks.flatten) := by
  rcases settle_from chunks List.not_mem_nil with ⟨-, hnot⟩ | ⟨hparsed, -⟩
  · exact absurd ⟨hclean, hlate⟩ hnot
  · exact hparsed

/-- A response that is not clean, or late, is refused as a protocol error. -/
theorem settle_eq_refused {chunks : List Bytes} (h : ¬(Clean chunks.flatten ∧ ¬Late chunks)) :
    settle parse chunks = .error .protocolInvalid := by
  have hnone : newline ∉ ([] : Bytes) := List.not_mem_nil
  rcases settle_from chunks hnone with ⟨hrefused, -⟩ | ⟨-, hclean⟩
  · exact hrefused
  · exact absurd hclean h

/-- Two ways of cutting a response give one outcome exactly if it is not clean, its line is refused
as a response, or both or none have a chunk after the one that brings the end of the line. -/
theorem settle_eq_iff (parse : Bytes → Except ControlError α) {chunks others : List Bytes}
    (h : chunks.flatten = others.flatten) :
    settle parse chunks = settle parse others ↔
      (Clean chunks.flatten → parse (line chunks.flatten) ≠ .error .protocolInvalid →
        (Late chunks ↔ Late others)) := by
  by_cases hclean : Clean chunks.flatten
  · have hclean' : Clean others.flatten := h ▸ hclean
    by_cases hlate : Late chunks
    · have hfirst : settle parse chunks = .error .protocolInvalid :=
        settle_eq_refused (fun hnot => hnot.2 hlate)
      by_cases hother : Late others
      · have hsecond : settle parse others = .error .protocolInvalid :=
          settle_eq_refused (fun hnot => hnot.2 hother)
        rw [hfirst, hsecond]
        exact ⟨fun _ _ _ => iff_of_true hlate hother, fun _ => rfl⟩
      · rw [hfirst, settle_eq_parse hclean' hother, h]
        constructor
        · intro heq _ hvalid
          exact absurd heq.symm hvalid
        · intro hiff
          by_contra hne
          exact hother ((hiff hclean' (fun heq => hne heq.symm)).mp hlate)
    · rw [settle_eq_parse hclean hlate]
      by_cases hother : Late others
      · have hboth : ¬(Clean others.flatten ∧ ¬Late others) := fun hnot => hnot.2 hother
        rw [settle_eq_refused hboth]
        constructor
        · intro heq _ hvalid
          exact absurd heq hvalid
        · intro hiff
          by_contra hne
          exact hlate ((hiff hclean hne).mpr hother)
      · rw [settle_eq_parse hclean' hother, h]
        exact ⟨fun _ _ _ => iff_of_false hlate hother, fun _ => rfl⟩
  · have hclean' : ¬Clean others.flatten := h ▸ hclean
    have hfirst : settle parse chunks = .error .protocolInvalid :=
      settle_eq_refused (fun hnot => hclean hnot.1)
    have hsecond : settle parse others = .error .protocolInvalid :=
      settle_eq_refused (fun hnot => hclean' hnot.1)
    rw [hfirst, hsecond]
    exact ⟨fun _ hcontra => absurd hcontra hclean, fun _ => rfl⟩

/-- Whether a chunk follows is computed. -/
instance decidableLate : (chunks : List Bytes) → Decidable (Late chunks)
  | [] => inferInstanceAs (Decidable False)
  | chunk :: rest =>
    have : Decidable (Late rest) := decidableLate rest
    inferInstanceAs (Decidable ((newline ∈ chunk ∧ rest ≠ []) ∨ (newline ∉ chunk ∧ Late rest)))

/-- An answer without peers. -/
def benchLine : Bytes :=
  [0x7b, 0x22, 0x73, 0x74, 0x61, 0x74, 0x75, 0x73, 0x22, 0x3a, 0x22, 0x6f, 0x6b, 0x22, 0x2c,
    0x22, 0x64, 0x61, 0x74, 0x61, 0x22, 0x3a, 0x7b, 0x22, 0x70, 0x65, 0x65, 0x72, 0x73, 0x22,
    0x3a, 0x5b, 0x5d, 0x7d, 0x7d]

/-- The value of that answer. -/
def benchDecode (bytes : Bytes) : Option Json :=
  if bytes = benchLine then
    some (.object [("status", .text [0x6f, 0x6b]), ("data", .object [("peers", .array [])])])
  else none

/-- The line of the runs below answers with no peers. -/
theorem parse_benchLine :
    parseResponse benchDecode .peers benchLine = .ok (.peers []) := by
  have hdecode : benchDecode benchLine =
      some (.object [("status", .text [0x6f, 0x6b]), ("data", .object [("peers", .array [])])]) :=
    if_pos rfl
  unfold parseResponse parseEnvelope
  rw [hdecode]
  rfl

/-- The answer in one chunk and in two. -/
theorem settle_eq_iff_bench :
    settle (parseResponse benchDecode .peers) [benchLine ++ [newline]] =
      settle (parseResponse benchDecode .peers) [benchLine.take 9, benchLine.drop 9 ++ [newline]] := by
  have hcut : ([benchLine ++ [newline]] : List Bytes).flatten =
      [benchLine.take 9, benchLine.drop 9 ++ [newline]].flatten := by
    decide
  refine (settle_eq_iff (parseResponse benchDecode .peers) hcut).mpr (fun _ _ => ?_)
  exact iff_of_false (by decide) (by decide)

/-- The answer with two ends of a line, in one chunk and with the second end in a chunk of its
own. -/
theorem not_settle_eq :
    ¬∀ (decode : Bytes → Option Json) (query : FipsControlQuery) (chunks others : List Bytes),
      chunks.flatten = others.flatten →
        settle (parseResponse decode query) chunks = settle (parseResponse decode query) others := by
  intro h
  have hsame := h benchDecode .peers [benchLine ++ [newline, newline]]
    [benchLine ++ [newline], [newline]] (by decide)
  have hclean : Clean ([benchLine ++ [newline, newline]] : List Bytes).flatten :=
    ⟨by decide, by decide, by decide +kernel⟩
  have hline : line ([benchLine ++ [newline, newline]] : List Bytes).flatten = benchLine := by
    decide +kernel
  have hfirst : settle (parseResponse benchDecode .peers) [benchLine ++ [newline, newline]] =
      .ok (.peers []) := by
    rw [settle_eq_parse hclean (by decide), hline, parse_benchLine]
  have hsecond : settle (parseResponse benchDecode .peers) [benchLine ++ [newline], [newline]] =
      .error .protocolInvalid := settle_eq_refused (fun hnot => hnot.2 (by decide))
  rw [hfirst, hsecond] at hsame
  cases hsame

end Chunks

end Fipwave.ControlResponse
