import Fipwave.ReadinessMoves
import Fipwave.TransportFrames

/-!
# What a worker learns from the bridge

Of the messages the bridge sends on a connection, a worker learns from three
kinds of frames whether the browser is ready, in which epoch and with which
proof. All other messages leave that alone, and so do packets and counters of
the worker: what it has learned is a function of the messages it has heard.
-/

namespace Fipwave.WorkerNews

open ByteWords FwavProtocol FwavRoundTrip ThrowingMethod BridgePorts ReadinessMoves FipsTransport
  TransportMoves TransportFrames

/-- What a worker has learned. -/
@[ext]
structure Ear where
  /-- Epoch of the bridge. -/
  epoch : ℕ
  /-- The browser is ready. -/
  ready : Bool
  /-- The proof it is ready with. -/
  proof : Option Bytes
  deriving DecidableEq, Repr

/-- What a worker has learned, of what its lock guards. -/
def earOf (r : Runtime) : Ear := ⟨r.epoch, r.browserReady, r.readinessProof⟩

/-- A worker that has learned this and nothing else. -/
def Ear.runtime (e : Ear) : Runtime :=
  { state := .up, epoch := e.epoch, browserReady := e.ready, readinessProof := e.proof }

/-- A worker in an epoch that has just been connected. -/
def fresh (epoch : ℕ) : Ear := ⟨epoch, false, none⟩

/-- What a worker receives. -/
inductive Arrival where
  /-- A binary message. -/
  | binary (encoded : Bytes)
  /-- A message that is not binary. -/
  | other
  /-- Nothing: the bridge sends no frame it cannot encode and plays nothing but sound. -/
  | nothing

/-- What a worker receives of a message of the bridge. -/
def arrival : Outbound → Arrival
  | .frame frame =>
    match encodeFrame frame with
    | .ok encoded => .binary encoded
    | .error _ => .nothing
  | .playback encoded =>
    match decodeFrame encoded with
    | .ok frame => if frame.type = .pcmPlayback then .binary encoded else .nothing
    | .error _ => .nothing
  | _ => .other

/-- A worker hears a message; the channel to FIPS may be full. -/
def heard (mtu : ℕ) (full : Bool) (message : Outbound) (r : Runtime) : Runtime :=
  match arrival message with
  | .binary encoded => (injectInbound mtu full encoded r).runtime
  | .other => reject "sound_binary_frame_required" r
  | .nothing => r

/-- What a worker has learned after a message. -/
def Ear.hear (e : Ear) (message : Outbound) : Ear := earOf (heard 0 false message e.runtime)

/-- What it has learned after a list of messages. -/
def Ear.listen (e : Ear) (messages : List Outbound) : Ear := messages.foldl Ear.hear e

section Inbound

variable {mtu : ℕ} {full : Bool} {r : Runtime} {encoded : Bytes}

@[simp] theorem earOf_runtime (e : Ear) : earOf e.runtime = e := rfl

@[simp] theorem earOf_reject (code : String) (r : Runtime) : earOf (reject code r) = earOf r := rfl

@[simp] theorem earOf_refuse (code : String) (r : Runtime) :
    earOf (refuse code r).runtime = earOf r := rfl

/-- Workers that differ in packets alone have the same ear. -/
theorem earOf_alike {r r' : Runtime} (h : Alike r r') : earOf r' = earOf r := by
  unfold earOf
  rw [h.epoch, h.browserReady, h.readinessProof]

/-- The answer to a packet teaches the worker nothing of the browser. -/
theorem earOf_injectAdmission (field epoch sequence : ℕ) (payload : Bytes) :
    earOf (injectAdmission field epoch sequence payload r).runtime = earOf r := by
  unfold injectAdmission
  split
  · rfl
  · split
    · dsimp only
      split <;> rfl
    · split <;> rfl

/-- A packet teaches the worker nothing of the browser, taken or refused. -/
theorem earOf_injectPacket (kind field epoch sequence : ℕ) (data : Bytes) :
    earOf (injectPacket mtu full kind field epoch sequence data r).runtime = earOf r := by
  unfold injectPacket
  split
  · rfl
  · split
    · rfl
    · split
      · rfl
      · split <;> rfl

/-- A kind of frame that tells nothing about readiness. -/
def Quiet (kind : ℕ) : Prop :=
  kind ≠ fwavTypeReset ∧ kind ≠ fwavTypeBrowserArm ∧ kind ≠ fwavTypeBrowserDisarm

/-- Only three types of frames teach the worker anything. -/
theorem earOf_quiet (h : Quiet (wordAt encoded 5 1)) :
    earOf (injectInbound mtu full encoded r).runtime = earOf r := by
  obtain ⟨hreset, harm, hdisarm⟩ := h
  unfold injectInbound
  split
  · rfl
  · dsimp only
    rw [if_neg hreset, if_neg (not_or.mpr ⟨harm, hdisarm⟩)]
    split
    · exact earOf_injectAdmission _ _ _ _
    · exact earOf_injectPacket _ _ _ _ _

/-- What a RESET does to an ear depends on the ear alone. -/
theorem earOf_injectReset {r r' : Runtime} (field epoch sequence payloadLength : ℕ)
    (h : earOf r = earOf r') : earOf (injectReset field epoch sequence payloadLength r).runtime =
      earOf (injectReset field epoch sequence payloadLength r').runtime := by
  have hepoch : r.epoch = r'.epoch := congrArg Ear.epoch h
  unfold injectReset
  rw [hepoch]
  split
  · exact h
  · rfl

/-- What a control frame does to the ear of a running worker depends on the ear alone. -/
theorem earOf_injectControl {r r' : Runtime} (kind field epoch sequence : ℕ) (payload : Bytes)
    (hup : r.state = r'.state) (h : earOf r = earOf r') :
    earOf (injectControl kind field epoch sequence payload r).runtime =
      earOf (injectControl kind field epoch sequence payload r').runtime := by
  have hepoch : r.epoch = r'.epoch := congrArg Ear.epoch h
  have hproof : r.readinessProof = r'.readinessProof := congrArg Ear.proof h
  unfold injectControl
  rw [hup, hepoch]
  split
  · exact h
  · split
    · unfold injectArm
      split
      · exact h
      · split
        · exact h
        · exact Ear.ext hepoch rfl rfl
    · unfold injectDisarm
      rw [hproof]
      split
      · exact h
      · exact Ear.ext hepoch rfl rfl

/-- What a frame teaches depends on nothing but what the worker knows. -/
theorem earOf_injectInbound {r r' : Runtime} {mtu' : ℕ} {full' : Bool} (hup : r.state = r'.state)
    (h : earOf r = earOf r') : earOf (injectInbound mtu full encoded r).runtime =
      earOf (injectInbound mtu' full' encoded r').runtime := by
  by_cases hquiet : Quiet (wordAt encoded 5 1)
  · rw [earOf_quiet hquiet, earOf_quiet hquiet]
    exact h
  · unfold injectInbound
    cases hfault : headerFault encoded with
    | some code => exact h
    | none =>
      dsimp only
      split
      · exact earOf_injectReset _ _ _ _ h
      · split
        · exact earOf_injectControl _ _ _ _ _ hup h
        · next hreset hcontrol =>
          obtain ⟨harm, hdisarm⟩ := not_or.mp hcontrol
          exact absurd ⟨hreset, harm, hdisarm⟩ hquiet

/-- A running worker hears with its ear, and with nothing else. -/
theorem earOf_heard (hup : r.state = .up) (message : Outbound) :
    earOf (heard mtu full message r) = (earOf r).hear message := by
  unfold Ear.hear heard
  cases arrival message with
  | binary encoded => exact earOf_injectInbound hup rfl
  | other => rfl
  | nothing => rfl

end Inbound

section Frames

variable {frame : FwavFrame} {encoded : Bytes} {e : Ear}

/-- What the bridge can encode is valid. -/
theorem encodeFrame_ok (h : encodeFrame frame = .ok encoded) :
    Valid frame ∧ encoded = FwavRoundTrip.frameBytes (withDefaults frame) := by
  have hvalid : Valid frame := by
    obtain ⟨valid, hvalidated, -⟩ := bind_ok h
    exact ((validateFrame_ok_iff frame valid).mp hvalidated).1
  rw [encodeFrame_of_valid hvalid] at h
  exact ⟨hvalid, (Except.ok.inj h).symm⟩

/-- The fifth byte of a frame is its type. -/
theorem kind_encodeFrame (h : encodeFrame frame = .ok encoded) :
    wordAt encoded 5 1 = frame.type.code := by
  obtain ⟨hvalid, rfl⟩ := encodeFrame_ok h
  have hdecoded := decodeFrame_frameBytes hvalid.withDefaults (withDefaults_withDefaults frame)
  exact code_of_messageTypeOf ((decodeFrame_ok_iff _ _).mp hdecoded).type

/-- A frame of any other type is quiet. -/
theorem quiet_code {type : MessageType} (h : ¬(type = .reset ∨ type = .browserArm ∨
    type = .browserDisarm)) : Quiet type.code := by
  unfold Quiet
  cases type with
  | reset => exact absurd (.inl rfl) h
  | browserArm => exact absurd (.inr (.inl rfl)) h
  | browserDisarm => exact absurd (.inr (.inr rfl)) h
  | _ => decide

/-- A binary message is heard as it is taken in. -/
theorem hear_binary {message : Outbound} (h : arrival message = .binary encoded) :
    e.hear message = earOf (injectInbound 0 false encoded e.runtime).runtime := by
  unfold Ear.hear heard
  rw [h]

/-- A text, or a frame that cannot be encoded, is not heard. -/
theorem hear_rest {message : Outbound} (h : ∀ encoded, arrival message ≠ .binary encoded) :
    e.hear message = e := by
  unfold Ear.hear heard
  cases harrival : arrival message with
  | binary encoded => exact absurd harrival (h encoded)
  | other => rfl
  | nothing => rfl

/-- A frame arrives as its bytes. -/
theorem arrival_frame (h : encodeFrame frame = .ok encoded) :
    arrival (.frame frame) = .binary encoded := by
  unfold arrival
  dsimp only
  rw [h]

/-- The bytes that arrive are those of the frame. -/
theorem encodeFrame_of_arrival (h : arrival (.frame frame) = .binary encoded) :
    encodeFrame frame = .ok encoded := by
  unfold arrival at h
  dsimp only at h
  split at h
  · next bytes hencoded => rw [hencoded, Arrival.binary.inj h]
  · cases h

/-- A playback is passed on only as the frame it decodes to. -/
theorem decodeFrame_of_arrival {bytes : Bytes} (h : arrival (.playback bytes) = .binary encoded) :
    ∃ frame, decodeFrame encoded = .ok frame ∧ frame.type = .pcmPlayback := by
  unfold arrival at h
  dsimp only at h
  split at h
  · next frame hdecoded =>
    split at h
    · next hplayback =>
      rw [← Arrival.binary.inj h]
      exact ⟨frame, hdecoded, hplayback⟩
    · cases h
  · cases h

/-- A message that is no control frame is of a kind that tells nothing about readiness. -/
theorem quiet_mild {message : Outbound} (h : controlOf message = none)
    (harrival : arrival message = .binary encoded) : Quiet (wordAt encoded 5 1) := by
  cases message with
  | frame frame =>
    have hcontrol : isControl frame = false := by
      by_contra hcontrol
      rw [Bool.not_eq_false] at hcontrol
      simp [controlOf, hcontrol] at h
    rw [kind_encodeFrame (encodeFrame_of_arrival harrival)]
    apply quiet_code
    simp only [isControl, Bool.or_eq_false_iff, decide_eq_false_iff_not] at hcontrol
    tauto
  | playback bytes =>
    obtain ⟨frame, hdecoded, hplayback⟩ := decodeFrame_of_arrival harrival
    have hkind : wordAt encoded 5 1 = frame.type.code :=
      code_of_messageTypeOf ((decodeFrame_ok_iff _ _).mp hdecoded).type
    rw [hkind, hplayback]
    exact quiet_code (by decide)
  | _ => cases harrival

/-- Messages that are no control frames teach nothing. -/
theorem hear_mild {message : Outbound} (h : controlOf message = none) : e.hear message = e := by
  by_cases hbinary : ∃ encoded, arrival message = .binary encoded
  · obtain ⟨encoded, harrival⟩ := hbinary
    rw [hear_binary harrival, earOf_quiet (quiet_mild h harrival)]
    rfl
  · exact hear_rest (fun encoded harrival => hbinary ⟨encoded, harrival⟩)

/-- A worker learns nothing from messages without a control frame. -/
theorem listen_mild {messages : List Outbound} (h : ∀ message ∈ messages, controlOf message = none) :
    e.listen messages = e := by
  induction messages generalizing e with
  | nil => rfl
  | cons message rest ih =>
    have hfirst : e.hear message = e := hear_mild (h message List.mem_cons_self)
    have hrest : ∀ m ∈ rest, controlOf m = none := fun m hm => h m (List.mem_cons_of_mem _ hm)
    unfold Ear.listen at ih ⊢
    rw [List.foldl_cons, hfirst]
    exact ih hrest

@[simp] theorem listen_nil (e : Ear) : e.listen [] = e := rfl

/-- What is heard of two parts of a stream is heard of one after the other. -/
theorem listen_append (e : Ear) (first second : List Outbound) :
    e.listen (first ++ second) = (e.listen first).listen second := List.foldl_append

/-- The last message of a stream is heard last. -/
theorem listen_concat (e : Ear) (messages : List Outbound) (message : Outbound) :
    e.listen (messages ++ [message]) = (e.listen messages).hear message := by
  rw [listen_append]
  rfl

/-- A frame without flags that is no sound and no packet, as the worker reads it. -/
theorem inject_frame (hvalid : Valid frame) (hflags : frame.flags = none)
    (hsilent : Unsounding frame.type) (hother : frame.type ≠ .fipsPacket) {mtu : ℕ} {full : Bool}
    {r : Runtime} :
    injectInbound mtu full (FwavRoundTrip.frameBytes (withDefaults frame)) r =
      if frame.type.code = fwavTypeReset then
        injectReset 0 frame.epoch frame.sequence frame.payload.length r
      else if frame.type.code = fwavTypeBrowserArm ∨ frame.type.code = fwavTypeBrowserDisarm then
        injectControl frame.type.code 0 frame.epoch frame.sequence frame.payload r
      else if frame.type.code = fwavTypeFipsPacketAdmission then
        injectAdmission 0 frame.epoch frame.sequence frame.payload r
      else injectPacket mtu full frame.type.code 0 frame.epoch frame.sequence frame.payload r := by
  have hdecoded := decodeFrame_frameBytes hvalid.withDefaults (withDefaults_withDefaults frame)
  have hencoded := encodeFrame_of_valid hvalid.withDefaults
  rw [withDefaults_withDefaults] at hencoded
  generalize FwavRoundTrip.frameBytes (withDefaults frame) = encoded at hdecoded hencoded ⊢
  have hzero : (withDefaults frame).flags = some 0 := by
    unfold withDefaults
    dsimp only
    rw [hflags]
    rfl
  have hencodes : Encodes encoded (withDefaults frame) := ⟨hdecoded, hencoded, hzero⟩
  have haccepted := (decodeFrame_ok_iff _ _).mp hdecoded
  have hread := haccepted.read
  have hfault := headerFault_none_iff.mpr (bare_of_encodes hencodes hsilent)
  have hfield := field_of_encodes hencodes hother
  have hkind : wordAt encoded 5 1 = frame.type.code := code_of_messageTypeOf haccepted.type
  have hepoch : frame.epoch = wordAt encoded 12 4 := congrArg FwavFrame.epoch hread
  have hsequence : frame.sequence = wordAt encoded 16 8 := congrArg FwavFrame.sequence hread
  have hpayload : frame.payload = encoded.drop headerBytes := congrArg FwavFrame.payload hread
  unfold injectInbound
  rw [hfault]
  dsimp only
  rw [hkind, hfield, ← hepoch, ← hsequence, ← hpayload]

end Frames

section Controls

variable {e : Ear} {epoch : ℕ} {proof : Bytes}

/-- What worker may have learned: epochs have four bytes, and readiness has a whole proof. -/
structure Sane (e : Ear) : Prop where
  /-- The epoch fits. -/
  epoch : e.epoch < 2 ^ 32
  /-- The proof is whole. -/
  proof : e.ready = true → ∃ proof, e.proof = some proof ∧ proof.length = acousticReadinessProofBytes

/-- A worker that begins in an epoch in range is sane. -/
theorem sane_fresh (h : epoch < 2 ^ 32) : Sane (fresh epoch) := ⟨h, nofun⟩

/-- Whatever a worker takes in leaves it with a proof only when armed, and in range. -/
theorem sane_injects {mtu : ℕ} {r : Runtime} {injected : Injected} (h : Sane (earOf r))
    (hinjects : Injects mtu r injected) : Sane (earOf injected.runtime) := by
  cases hinjects with
  | noted accepted r' halike =>
    rw [earOf_alike halike]
    exact h
  | reset epoch hlater hfits => exact ⟨hfits, nofun⟩
  | armed proof hlength hstands => exact ⟨h.epoch, fun _ => ⟨proof, rfl, hlength⟩⟩
  | disarmed proof hproof => exact ⟨h.epoch, nofun⟩
  | delivered sequence data hready hmtu hlater => exact ⟨h.epoch, h.proof⟩

/-- A sane worker is sane after one more message. -/
theorem Sane.hear (h : Sane e) (message : Outbound) : Sane (e.hear message) := by
  by_cases hbinary : ∃ encoded, arrival message = .binary encoded
  · obtain ⟨encoded, harrival⟩ := hbinary
    rw [hear_binary harrival]
    have hinjects : Injects 0 e.runtime (injectInbound 0 false encoded e.runtime) :=
      injects_inbound false encoded
    exact sane_injects (r := e.runtime) h hinjects
  · rw [hear_rest (fun encoded harrival => hbinary ⟨encoded, harrival⟩)]
    exact h

/-- A sane worker is sane after a stream of messages. -/
theorem Sane.listen (h : Sane e) (messages : List Outbound) : Sane (e.listen messages) := by
  induction messages generalizing e with
  | nil => exact h
  | cons message rest ih => exact ih (h.hear message)

/-- A control frame of a browser. -/
def controlFrame (type : MessageType) (epoch : ℕ) (payload : Bytes) : FwavFrame :=
  { type := type, epoch := epoch, sequence := 0, payload := payload }

/-- The message by which the bridge tells a worker that the browser is ready. -/
def armMessage (epoch : ℕ) (proof : Bytes) : Outbound :=
  .frame (controlFrame .browserArm epoch proof)

/-- The message by which it tells that it no longer is. -/
def disarmMessage (epoch : ℕ) (proof : Bytes) : Outbound :=
  .frame (controlFrame .browserDisarm epoch (proofCapability proof))

/-- A RESET leaves the worker what it knows, or is the end of readiness. -/
theorem hear_reset (flags : Option ℕ) (epoch : ℕ) :
    e.hear (.frame (resetFrame flags epoch)) = e ∨
      (e.hear (.frame (resetFrame flags epoch))).ready = false := by
  cases hencoded : encodeFrame (resetFrame flags epoch) with
  | error text =>
    have hnone : ∀ encoded, arrival (.frame (resetFrame flags epoch)) ≠ .binary encoded := by
      intro encoded harrival
      have hsome := encodeFrame_of_arrival harrival
      rw [hencoded] at hsome
      cases hsome
    exact .inl (hear_rest hnone)
  | ok encoded =>
    have hkind : wordAt encoded 5 1 = fwavTypeReset := kind_encodeFrame hencoded
    rw [hear_binary (arrival_frame hencoded)]
    unfold injectInbound
    split
    · exact .inl rfl
    · dsimp only
      rw [if_pos hkind]
      unfold injectReset
      split
      · exact .inl rfl
      · exact .inr rfl

/-- A control frame of a browser, as the worker reads it. -/
theorem inject_control {type : MessageType} {payload : Bytes} {r : Runtime}
    (htype : type = .browserArm ∨ type = .browserDisarm)
    (hvalid : Valid (controlFrame type epoch payload)) :
    injectInbound 0 false (FwavRoundTrip.frameBytes (withDefaults (controlFrame type epoch payload)))
      r = injectControl type.code 0 epoch 0 payload r := by
  have hsilent : Unsounding type := by
    rcases htype with rfl | rfl <;> exact ⟨nofun, nofun⟩
  have hother : type ≠ .fipsPacket := by
    rcases htype with rfl | rfl <;> exact nofun
  have hreset : type.code ≠ fwavTypeReset := by
    rcases htype with rfl | rfl <;> decide
  have hcontrol : type.code = fwavTypeBrowserArm ∨ type.code = fwavTypeBrowserDisarm := by
    rcases htype with rfl | rfl <;> decide
  rw [inject_frame hvalid rfl hsilent hother]
  unfold controlFrame
  dsimp only
  rw [if_neg hreset, if_pos hcontrol]

/-- What it teaches a worker that receives it. -/
theorem hear_control {type : MessageType} {payload encoded : Bytes}
    (htype : type = .browserArm ∨ type = .browserDisarm)
    (h : arrival (.frame (controlFrame type epoch payload)) = .binary encoded) :
    e.hear (.frame (controlFrame type epoch payload)) = if e.epoch ≠ epoch then e
      else if type.code = fwavTypeBrowserArm then earOf (injectArm payload e.runtime).runtime
      else earOf (injectDisarm payload e.runtime).runtime := by
  obtain ⟨hvalid, hbytes⟩ := encodeFrame_ok (encodeFrame_of_arrival h)
  rw [hear_binary h, hbytes, inject_control htype hvalid]
  unfold injectControl
  by_cases hepoch : e.epoch = epoch
  · have hknown : ¬((0 : ℕ) ≠ 0 ∨ (0 : ℕ) ≠ 0 ∨ e.runtime.state ≠ .up ∨ e.runtime.epoch ≠ epoch) := by
      simp [Ear.runtime, hepoch]
    rw [if_neg hknown, if_neg (not_not.mpr hepoch)]
    split <;> rfl
  · rw [if_pos (.inr (.inr (.inr hepoch))), if_pos hepoch]
    rfl

/-- An ARM of another epoch is not heard, and one of the current epoch arms by its proof. -/
theorem hear_received_arm {encoded : Bytes} (h : arrival (armMessage epoch proof) = .binary encoded) :
    e.hear (armMessage epoch proof) = if e.epoch ≠ epoch then e
      else earOf (injectArm proof e.runtime).runtime := by
  have hkind : MessageType.browserArm.code = fwavTypeBrowserArm := by decide
  unfold armMessage at h ⊢
  rw [hear_control (.inl rfl) h, if_pos hkind]

/-- A DISARM of another epoch is not heard, and one of the current epoch names a capability. -/
theorem hear_received_disarm {encoded : Bytes}
    (h : arrival (disarmMessage epoch proof) = .binary encoded) :
    e.hear (disarmMessage epoch proof) = if e.epoch ≠ epoch then e
      else earOf (injectDisarm (proofCapability proof) e.runtime).runtime := by
  have hkind : MessageType.browserDisarm.code ≠ fwavTypeBrowserArm := by decide
  unfold disarmMessage at h ⊢
  rw [hear_control (.inr rfl) h, if_neg hkind]

/-- A notice that the browser is ready leaves the worker what it knows, or makes it ready with
this proof. -/
theorem hear_arm (epoch : ℕ) (proof : Bytes) : e.hear (armMessage epoch proof) = e ∨
    e.hear (armMessage epoch proof) = ⟨epoch, true, some proof⟩ := by
  by_cases hbinary : ∃ encoded, arrival (armMessage epoch proof) = .binary encoded
  · obtain ⟨encoded, harrival⟩ := hbinary
    rw [hear_received_arm harrival]
    split
    · exact .inl rfl
    · next hepoch =>
      unfold injectArm
      split
      · exact .inl rfl
      · split
        · exact .inl rfl
        · exact .inr (Ear.ext (not_not.mp hepoch) rfl rfl)
  · exact .inl (hear_rest (fun encoded harrival => hbinary ⟨encoded, harrival⟩))

/-- The capability of a proof stands in its last sixteen bytes. -/
theorem proofCapability_eq (h : proof.length = acousticReadinessProofBytes) :
    proofCapability proof = sliceAt proof 48 16 := by
  have hdrop : (proof.drop 48).length ≤ 16 := by
    rw [List.length_drop, h]
    decide
  unfold proofCapability sliceAt
  rw [h, List.take_of_length_le hdrop]
  rfl

theorem proofCapability_length (h : proof.length = acousticReadinessProofBytes) :
    (proofCapability proof).length = acousticDisarmCapabilityBytes := by
  unfold proofCapability
  rw [List.length_drop, h]
  decide

/-- A control frame of a browser with a small payload can be sent. -/
theorem arrival_control {type : MessageType} {payload : Bytes}
    (htype : type = .browserArm ∨ type = .browserDisarm) (hepoch : epoch < 2 ^ 32)
    (hpayload : payload.length ≤ 64) :
    ∃ encoded, arrival (.frame (controlFrame type epoch payload)) = .binary encoded := by
  have hmax : 64 ≤ maxPayloadBytes := by decide
  have hvalid : Valid (controlFrame type epoch payload) := by
    refine ⟨Nat.zero_le _, Nat.le_of_lt_succ hepoch, Nat.zero_le _, hpayload.trans hmax, ?_,
      fun _ => rfl, ?_, ?_⟩
    · rcases htype with rfl | rfl <;> exact nofun
    · rcases htype with rfl | rfl <;> rfl
    · rcases htype with rfl | rfl <;> rfl
  exact ⟨_, arrival_frame (encodeFrame_of_valid hvalid)⟩

/-- A worker in the epoch of a proof that stands becomes ready with it. -/
theorem hear_arm_of_epoch (h : e.epoch = epoch) (hepoch : epoch < 2 ^ 32)
    (hproof : ∃ decoded, decodeAcousticReadinessProof proof = .ok decoded) :
    e.hear (armMessage epoch proof) = ⟨epoch, true, some proof⟩ := by
  obtain ⟨hlength, hstands⟩ := (decodes_iff proof).mp hproof
  obtain ⟨encoded, harrival⟩ := arrival_control (.inl rfl) hepoch hlength.le
  rw [hear_received_arm harrival, if_neg (not_not.mpr h)]
  unfold injectArm
  rw [if_neg (not_not.mpr hlength), if_neg (by rw [hstands]; decide)]
  exact Ear.ext h rfl rfl

/-- A worker that is ready with the proof of a session is not ready after the notice that the
session is not; nor is a worker that is not ready. -/
theorem hear_disarm (hsane : Sane e)
    (h : e.ready = true → e.epoch = epoch ∧ e.proof = some proof) :
    (e.hear (disarmMessage epoch proof)).ready = false := by
  by_cases hready : e.ready = true
  · obtain ⟨hepoch, hheld⟩ := h hready
    obtain ⟨whole, hwhole, hlength⟩ := hsane.proof hready
    obtain rfl : whole = proof := Option.some.inj (hwhole.symm.trans hheld)
    have hcapability := proofCapability_length hlength
    have hsmall : (proofCapability whole).length ≤ 64 := by
      rw [hcapability]
      decide
    obtain ⟨encoded, harrival⟩ := arrival_control (.inr rfl) (hepoch ▸ hsane.epoch) hsmall
    have hmatch : e.runtime.readinessProof = some whole := hheld
    rw [hear_received_disarm harrival, if_neg (not_not.mpr hepoch)]
    unfold injectDisarm
    rw [hmatch, if_neg]
    · rfl
    · rw [proofCapability_eq hlength] at hcapability ⊢
      simp [hcapability]
  · rw [Bool.not_eq_true] at hready
    by_cases hbinary : ∃ encoded, arrival (disarmMessage epoch proof) = .binary encoded
    · obtain ⟨encoded, harrival⟩ := hbinary
      rw [hear_received_disarm harrival]
      split
      · exact hready
      · unfold injectDisarm
        split
        · exact hready
        · rfl
    · rw [hear_rest (fun encoded harrival => hbinary ⟨encoded, harrival⟩)]
      exact hready

end Controls

end Fipwave.WorkerNews
