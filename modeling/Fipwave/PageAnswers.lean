import Fipwave.BrowserPage

/-!
# Every packet of the bridge is answered once

A page hands its sockets controls, packets and answers. An answer is handed only
for a packet that was read on the same socket, at once and with the epoch and
the sequence of the packet; a packet that is not answered is the last one that
is read on its socket, since the page has given the socket up.
-/

namespace Fipwave.PageAnswers

open ByteWords ThrowingMethod AcousticProtocol AcousticState AcousticDelivery AcousticSession
  BrowserFrames BrowserPage
open FwavProtocol (headerBytes)
open TransitionRun (run invariant)

variable {options : AcousticSessionOptions} {readings : Readings} {isOpen : Bool} {p q r : Page}
  {P : Bytes → Prop}

section Frames

/-- What stands in the header of a control frame. -/
theorem words_of_control {type epoch sequence : ℕ} {payload out : Bytes}
    (h : encodeControlFrame type epoch sequence payload = .ok out) :
    wordAt out 5 1 = type ∧ wordAt out 12 4 = epoch ∧ wordAt out 16 8 = sequence := by
  unfold encodeControlFrame at h
  split at h
  · cases h
  · split at h
    · cases h
    · split at h
      · cases h
      · split at h
        · cases h
        · next htype hepoch hsequence _ =>
          have hkind : readWord [lowByte type] = type := by
            have hword : readWord (writeWord 1 type) = type :=
              readWord_writeWord_of_lt (by omega)
            exact hword
          have hepochWord : readWord (writeWord 4 epoch) = epoch :=
            readWord_writeWord_of_lt (by omega)
          have hsequenceWord : readWord (writeWord 8 sequence) = sequence :=
            readWord_writeWord_of_lt (by omega)
          rw [← Except.ok.inj h]
          exact ⟨hkind, hepochWord, hsequenceWord⟩

/-- A packet of the page is encoded under the type of a packet, with its payload as it is. -/
theorem kind_of_packet {browserPacketReady : Bool} {epoch sequence trafficClass : ℕ}
    {payload : Bytes} {out : Bytes × ℕ}
    (h : encodeFipsPacket browserPacketReady epoch sequence payload trafficClass = .ok out) :
    wordAt out.1 5 1 = 9 ∧ out.1.drop headerBytes = payload := by
  unfold encodeFipsPacket at h
  split at h
  · cases h
  · split at h
    · cases h
    · rw [← Except.ok.inj h]
      exact ⟨rfl, rfl⟩

theorem kind_of_capture (epoch sequence firstSampleIndex : ℕ) (samples : List UInt32) :
    wordAt (pcmCaptureFrame epoch sequence firstSampleIndex samples) 5 1 = 3 := rfl

end Frames

/-- A message that is no answer and carries no packet but those allowed. -/
def Plain (P : Bytes → Prop) : PageNote → Prop
  | .handed _ message =>
    wordAt message 5 1 ≠ 14 ∧ (wordAt message 5 1 = 9 → P (message.drop headerBytes))
  | _ => False

/-- A page hands its sockets nothing but plain messages, and keeps its sessions. -/
structure Gives (P : Bytes → Prop) (p q : Page) : Prop where
  /-- The session. -/
  session : q.session = p.session
  /-- The sessions before. -/
  disposed : q.disposed = p.disposed
  /-- The current socket. -/
  bridge : q.bridge = p.bridge
  /-- The sockets made so far. -/
  bridgeGeneration : q.bridgeGeneration = p.bridgeGeneration
  /-- The messages. -/
  log : ∃ notes, q.log = p.log ++ notes ∧ ∀ note ∈ notes, Plain P note

section Gives

/-- A change that concerns neither the session, the bridge nor the log hands the bridge nothing. -/
theorem gives_same (hsession : q.session = p.session) (hdisposed : q.disposed = p.disposed)
    (hbridge : q.bridge = p.bridge) (hgeneration : q.bridgeGeneration = p.bridgeGeneration)
    (hlog : q.log = p.log) : Gives P p q :=
  ⟨hsession, hdisposed, hbridge, hgeneration, [], by rw [hlog, List.append_nil], by simp⟩

theorem Gives.refl (p : Page) : Gives P p p := gives_same rfl rfl rfl rfl rfl

theorem Gives.trans (h : Gives P p q) (h' : Gives P q r) : Gives P p r := by
  obtain ⟨first, hfirst, hplain⟩ := h.log
  obtain ⟨second, hsecond, hplain'⟩ := h'.log
  refine ⟨h'.session.trans h.session, h'.disposed.trans h.disposed, h'.bridge.trans h.bridge,
    h'.bridgeGeneration.trans h.bridgeGeneration, first ++ second, ?_, ?_⟩
  · rw [hsecond, hfirst, List.append_assoc]
  · intro note hnote
    exact (List.mem_append.mp hnote).elim (hplain note) (hplain' note)

/-- A page that hands a plain message, and then changes nothing of this. -/
theorem gives_hand {socket : ℕ} {message : Bytes} (h : Plain P (.handed socket message))
    (hsession : q.session = p.session) (hdisposed : q.disposed = p.disposed)
    (hbridge : q.bridge = p.bridge) (hgeneration : q.bridgeGeneration = p.bridgeGeneration)
    (hlog : q.log = p.log ++ [.handed socket message]) : Gives P p q := by
  refine ⟨hsession, hdisposed, hbridge, hgeneration, [.handed socket message], hlog, fun note hnote => ?_⟩
  rw [List.mem_singleton.mp hnote]
  exact h

/-- A control frame of another type is neither a packet nor an answer. -/
theorem plain_of_control {socket type epoch sequence : ℕ} {payload out : Bytes}
    (hpacket : type ≠ 9) (hanswer : type ≠ 14)
    (h : encodeControlFrame type epoch sequence payload = .ok out) :
    Plain P (.handed socket out) := by
  obtain ⟨hkind, -, -⟩ := words_of_control h
  rw [Plain, hkind]
  exact ⟨hanswer, fun heq => absurd heq hpacket⟩

/-- A proof of readiness and a DISARM are no answers. -/
theorem gives_sendAcousticControl {type : ℕ} (htype : type = 12 ∨ type = 13) (controlEpoch : ℕ)
    (p : Page) : Gives P p (sendAcousticControl isOpen type controlEpoch p).2 := by
  have hpacket : type ≠ 9 := by omega
  have hanswer : type ≠ 14 := by omega
  unfold sendAcousticControl
  split
  · split
    · exact .refl p
    · split
      · exact .refl p
      · split
        · exact .refl p
        · next frame hframe =>
          exact gives_hand (plain_of_control hpacket hanswer hframe) rfl rfl rfl rfl rfl
  · exact .refl p

/-- The bridge is told that the session is ready, and nothing of a packet. -/
theorem gives_ready (controlEpoch : ℕ) (p : Page) :
    Gives P p (ready isOpen controlEpoch p) := by
  have hsent : Gives P p (sendAcousticControl isOpen 12 controlEpoch p).2 :=
    gives_sendAcousticControl (.inl rfl) controlEpoch p
  unfold ready
  exact hsent.trans (gives_same rfl rfl rfl rfl rfl)

variable (isOpen) in
/-- The bridge is told that the session is not ready any more, and nothing of a packet. -/
theorem gives_disarm (epoch : ℕ) (p : Page) : Gives P p (disarm isOpen epoch p) := by
  unfold disarm
  split
  · exact .refl p
  · have hclosed : Gives P p
        { p with adapter.lifecycle := none, browserPacketReady := false } :=
      gives_same rfl rfl rfl rfl rfl
    exact (hclosed.trans (gives_sendAcousticControl (.inr rfl) epoch _)).trans
      (gives_same rfl rfl rfl rfl rfl)

/-- The page tells the bridge what has changed about its session. -/
theorem gives_refresh (p : Page) : Gives P p (refresh isOpen p) := by
  unfold refresh
  dsimp only
  split
  · exact gives_disarm isOpen _ p
  · split
    · exact .refl p
    · have hdisarmed := gives_disarm (P := P) isOpen
        (p.adapter.armedEpoch.getD p.session.link.epoch) p
      refine (hdisarmed.trans ?_).trans (gives_ready _ _)
      exact gives_same rfl rfl rfl rfl rfl

variable (isOpen) in
/-- A session that is given up is said to be so. -/
theorem gives_invalidate (p : Page) : Gives P p (invalidate isOpen p) :=
  (gives_disarm isOpen p.session.link.epoch p).trans (gives_same rfl rfl rfl rfl rfl)

/-- The page stops taking packets and says so. -/
theorem gives_closePackets (p : Page) : Gives P p (closePackets isOpen p) :=
  (gives_invalidate isOpen p).trans (gives_same rfl rfl rfl rfl rfl)

/-- A control frame of another type is handed over. -/
theorem gives_sendControl {type : ℕ} (hpacket : type ≠ 9) (hanswer : type ≠ 14)
    (socket epoch : ℕ) (payload : Bytes) (p : Page) :
    Gives P p (sendControl socket type epoch payload p) := by
  unfold sendControl
  split
  · exact .refl p
  · next frame hframe =>
    exact gives_hand (plain_of_control hpacket hanswer hframe) rfl rfl rfl rfl rfl

/-- A packet that is sent is handed to a socket once at most. -/
theorem gives_sendPacket {packet : Bytes} (h : sendPacket isOpen packet p = .ok q) :
    Gives (· = packet) p q := by
  unfold sendPacket at h
  split at h
  · rw [← Except.ok.inj h]
    exact .refl p
  · unfold emitPacket at h
    split at h
    · cases h
    · next socket _ =>
      split at h
      · cases h
      · obtain ⟨⟨frame, later⟩, hframe, hq⟩ := bind_ok h
        obtain ⟨hkind, hpayload⟩ := kind_of_packet hframe
        rw [← Except.ok.inj hq]
        have hplain : Plain (· = packet) (.handed socket frame) := by
          refine ⟨?_, fun _ => hpayload⟩
          rw [hkind]
          decide
        exact gives_hand hplain rfl rfl rfl rfl rfl

variable (isOpen) in
/-- A socket that fails is given up, if it is the current one. -/
theorem failBridge_spec (socket : ℕ) (p : Page) : ∃ q, Gives P p q ∧
    failBridge isOpen socket p =
      { q with bridge := if p.bridge = some socket then none else p.bridge } := by
  unfold failBridge
  by_cases hcurrent : p.bridge = some socket
  · rw [if_neg (not_not.mpr hcurrent), if_pos hcurrent]
    exact ⟨closePackets isOpen p, gives_closePackets p, rfl⟩
  · rw [if_pos hcurrent, if_neg hcurrent]
    exact ⟨p, .refl p, rfl⟩

end Gives

section Packets

/-- The session after a packet was offered to it. -/
theorem receivePacket_session {packet : Bytes} {trafficClass epoch generation : ℕ} :
    (∀ fault, receivePacket options readings packet trafficClass epoch generation p = .error fault →
      fault.state =
        act options readings (.enqueuePacket packet (trafficClassOf trafficClass)) p.session) ∧
    ∀ result session,
      receivePacket options readings packet trafficClass epoch generation p =
        .ok (result, session) → session = p.session ∨ session =
        act options readings (.enqueuePacket packet (trafficClassOf trafficClass)) p.session := by
  unfold receivePacket
  split
  · refine ⟨fun fault h => (by cases h), fun result session h => .inl ?_⟩
    exact (Prod.mk.inj (Except.ok.inj h)).2.symm
  · split
    · refine ⟨fun fault h => (by cases h), fun result session h => .inl ?_⟩
      exact (Prod.mk.inj (Except.ok.inj h)).2.symm
    · have hact : act options readings (.enqueuePacket packet (trafficClassOf trafficClass))
          p.session = left
            (enqueuePacket options readings packet (trafficClassOf trafficClass) p.session >>=
              fun out => pure out.2) := rfl
      rw [hact]
      cases enqueuePacket options readings packet (trafficClassOf trafficClass) p.session with
      | error fault =>
        refine ⟨fun other h => ?_, fun result session h => (by cases h)⟩
        rw [← Except.error.inj h]
        rfl
      | ok out =>
        refine ⟨fun other h => (by cases h), fun result session h => .inr ?_⟩
        exact (Prod.mk.inj (Except.ok.inj h)).2.symm

/-- What the session makes of a packet of the bridge: nothing, or what an offer makes of it. -/
def Offered (options : AcousticSessionOptions) (readings : Readings) (data : Bytes)
    (s t : AcousticSession) : Prop :=
  t = s ∨ ∃ trafficClass,
    t = act options readings (.enqueuePacket (data.drop headerBytes) trafficClass) s

variable (options readings isOpen) in
/-- A message with a packet gives the socket up, or is read and then answered, or read without an
answer while the socket is given up. -/
theorem handlePacket_cases (socket : ℕ) (data : Bytes) (p : Page) :
    handlePacket options readings isOpen socket data p = failBridge isOpen socket p ∨
    ∃ session sequence, Offered options readings data p.session session ∧
      (handlePacket options readings isOpen socket data p = failBridge isOpen socket
        { p with session, log := p.log ++ [.asked socket p.epoch sequence] } ∨
      ∃ accepted frame, sendFipsPacketAdmission p.epoch sequence accepted = .ok frame ∧
        handlePacket options readings isOpen socket data p =
          { p with session, log := p.log ++ [.asked socket p.epoch sequence] ++
            [.handed socket frame] }) := by
  unfold handlePacket
  split
  · exact .inl rfl
  · next envelope henvelope =>
    have hbytes : envelope.bytes = data.drop headerBytes := by
      unfold decodeFipsPacket at henvelope
      split at henvelope
      · cases henvelope
      · split at henvelope
        · cases henvelope
        · split at henvelope
          · cases henvelope
          · split at henvelope
            · cases henvelope
            · rw [← Except.ok.inj henvelope]
    dsimp only
    refine .inr ?_
    split
    · next fault hfault =>
      have hsession := receivePacket_session.1 fault hfault
      rw [hbytes] at hsession
      exact ⟨fault.state, envelope.sequence, .inr ⟨_, hsession⟩, .inl rfl⟩
    · next result session hresult =>
      have hsession := receivePacket_session.2 result session hresult
      rw [hbytes] at hsession
      refine ⟨session, envelope.sequence, hsession.imp id (fun h => ⟨_, h⟩), ?_⟩
      split
      · exact .inl rfl
      · next frame hframe => exact .inr ⟨_, frame, hframe, rfl⟩

end Packets

section Answers

/-- The epoch and the sequence of a packet that was read on a socket. -/
def askOf (socket : ℕ) : PageNote → Option (ℕ × ℕ)
  | .asked k epoch position => if k = socket then some (epoch, position) else none
  | _ => none

/-- The epoch and the sequence of an answer on a socket. -/
def answerOf (socket : ℕ) : PageNote → Option (ℕ × ℕ)
  | .handed k message =>
    if k = socket ∧ wordAt message 5 1 = 14 then some (wordAt message 12 4, wordAt message 16 8)
    else none
  | _ => none

/-- The packets that were read on a socket, in order. -/
def asked (socket : ℕ) (p : Page) : List (ℕ × ℕ) := p.log.filterMap (askOf socket)

/-- The answers on a socket, in order. -/
def answered (socket : ℕ) (p : Page) : List (ℕ × ℕ) := p.log.filterMap (answerOf socket)

/-- A note that is plain neither asks for an answer nor gives one. -/
theorem Plain.silent {note : PageNote} (h : Plain P note) (socket : ℕ) :
    askOf socket note = none ∧ answerOf socket note = none := by
  cases note with
  | handed k message => exact ⟨rfl, if_neg (fun hanswer => h.1 hanswer.2)⟩
  | asked k epoch sequence => exact h.elim
  | offered packet => exact h.elim

/-- Changes that hand over no answer leave the questions and the answers as they are. -/
theorem Gives.asked_eq (h : Gives P p q) (socket : ℕ) :
    asked socket q = asked socket p ∧ answered socket q = answered socket p := by
  obtain ⟨notes, hlog, hplain⟩ := h.log
  have hasked : notes.filterMap (askOf socket) = [] :=
    List.filterMap_eq_nil_iff.mpr (fun note hnote => ((hplain note hnote).silent socket).1)
  have hanswered : notes.filterMap (answerOf socket) = [] :=
    List.filterMap_eq_nil_iff.mpr (fun note hnote => ((hplain note hnote).silent socket).2)
  unfold asked answered
  rw [hlog, List.filterMap_append, List.filterMap_append, hasked, hanswered, List.append_nil,
    List.append_nil]
  exact ⟨rfl, rfl⟩

/-- The packets read on a socket are answered, but for the last one if the socket was given up. -/
def Settled (socket : ℕ) (p : Page) : Prop :=
  answered socket p = asked socket p ∨
    (p.bridge ≠ some socket ∧ ∃ ask, asked socket p = answered socket p ++ [ask])

/-- What holds of the packets and the answers of a page. -/
structure Answering (p : Page) : Prop where
  /-- The current socket was made last. -/
  current : ∀ socket, p.bridge = some socket → socket = p.bridgeGeneration
  /-- Nothing was read or answered on sockets that were not made yet. -/
  fresh : ∀ socket > p.bridgeGeneration, asked socket p = [] ∧ answered socket p = []
  /-- Packets are answered. -/
  settled : ∀ socket, Settled socket p

/-- A step that reads no packet and answers none, and takes no socket up. -/
theorem Answering.keep (h : Answering p)
    (hbridge : ∀ socket, q.bridge = some socket → p.bridge = some socket)
    (hgeneration : q.bridgeGeneration = p.bridgeGeneration)
    (hsame : ∀ socket, asked socket q = asked socket p ∧ answered socket q = answered socket p) :
    Answering q := by
  refine ⟨fun socket hsocket => ?_, fun socket hlater => ?_, fun socket => ?_⟩
  · rw [hgeneration]
    exact h.current socket (hbridge socket hsocket)
  · rw [hgeneration] at hlater
    rw [(hsame socket).1, (hsame socket).2]
    exact h.fresh socket hlater
  · unfold Settled
    rw [(hsame socket).1, (hsame socket).2]
    exact (h.settled socket).imp id
      (fun ⟨hleft, hask⟩ => ⟨fun hq => hleft (hbridge socket hq), hask⟩)

/-- The page keeps answering what it was asked while it hands over no answer of its own. -/
theorem Answering.gives (h : Answering p) (hgives : Gives P p q) : Answering q :=
  h.keep (fun _ hsocket => hgives.bridge ▸ hsocket) hgives.bridgeGeneration hgives.asked_eq

/-- A page that gives a socket up. -/
theorem Answering.failBridge (h : Answering p) (socket : ℕ) :
    Answering (failBridge isOpen socket p) := by
  obtain ⟨q, hgives, hfailed⟩ := failBridge_spec (P := fun _ => False) isOpen socket p
  rw [hfailed]
  refine h.keep (fun k hk => ?_) hgives.bridgeGeneration hgives.asked_eq
  dsimp only at hk
  split at hk
  · cases hk
  · exact hk

/-- What a note adds to the packets and the answers of a socket. -/
theorem asked_concat (socket k epoch sequence : ℕ)
    (hlog : q.log = p.log ++ [.asked k epoch sequence]) :
    asked socket q = asked socket p ++ (if k = socket then [(epoch, sequence)] else []) ∧
      answered socket q = answered socket p := by
  unfold asked answered
  rw [hlog, List.filterMap_append, List.filterMap_append]
  refine ⟨?_, by simp [answerOf]⟩
  by_cases hk : k = socket
  · simp [askOf, hk]
  · simp [askOf, hk]

/-- An answer stands last among those of its socket, and in none of another one. -/
theorem answered_concat (socket k epoch sequence : ℕ) {accepted : Bool} {frame : Bytes}
    (hframe : sendFipsPacketAdmission epoch sequence accepted = .ok frame)
    (hlog : q.log = p.log ++ [.handed k frame]) :
    answered socket q = answered socket p ++ (if k = socket then [(epoch, sequence)] else []) ∧
      asked socket q = asked socket p := by
  obtain ⟨hkind, hepoch, hsequence⟩ := words_of_control hframe
  unfold asked answered
  rw [hlog, List.filterMap_append, List.filterMap_append]
  refine ⟨?_, by simp [askOf]⟩
  by_cases hk : k = socket
  · simp [answerOf, hk, hkind, hepoch, hsequence]
  · simp [answerOf, hk]

/-- A packet that is read and answered at once. -/
theorem Answering.answer (h : Answering p) {socket sequence : ℕ} {accepted : Bool} {frame : Bytes}
    (hcurrent : p.bridge = some socket)
    (hframe : sendFipsPacketAdmission p.epoch sequence accepted = .ok frame)
    (hbridge : q.bridge = p.bridge) (hgeneration : q.bridgeGeneration = p.bridgeGeneration)
    (hlog : q.log = p.log ++ [.asked socket p.epoch sequence] ++ [.handed socket frame]) :
    Answering q := by
  have hlast := h.current socket hcurrent
  have hboth : ∀ k, asked k q = asked k p ++ (if socket = k then [(p.epoch, sequence)] else []) ∧
      answered k q = answered k p ++ (if socket = k then [(p.epoch, sequence)] else []) := by
    intro k
    obtain ⟨hasked, hstill⟩ := asked_concat k socket p.epoch sequence
      (q := { p with log := p.log ++ [.asked socket p.epoch sequence] }) rfl
    obtain ⟨hanswered, hsame⟩ := answered_concat k socket p.epoch sequence (q := q)
      (p := { p with log := p.log ++ [.asked socket p.epoch sequence] }) hframe hlog
    rw [hsame, hasked, hanswered, hstill]
    exact ⟨rfl, rfl⟩
  refine ⟨fun k hk => ?_, fun k hk => ?_, fun k => ?_⟩
  · rw [hgeneration]
    exact h.current k (hbridge ▸ hk)
  · rw [hgeneration] at hk
    have hother : socket ≠ k := by omega
    rw [(hboth k).1, (hboth k).2, if_neg hother, List.append_nil, List.append_nil]
    exact h.fresh k hk
  · by_cases hk : socket = k
    · subst hk
      have hsame : answered socket p = asked socket p :=
        (h.settled socket).resolve_right (fun hleft => hleft.1 hcurrent)
      refine .inl ?_
      rw [(hboth socket).1, (hboth socket).2, hsame]
    · unfold Settled
      rw [(hboth k).1, (hboth k).2, if_neg hk, List.append_nil, List.append_nil, hbridge]
      exact h.settled k

/-- A packet that is read while its socket is given up. -/
theorem Answering.leave (h : Answering p) {socket sequence : ℕ} {session : AcousticSession}
    (hcurrent : p.bridge = some socket) :
    Answering (BrowserPage.failBridge isOpen socket
      { p with session, log := p.log ++ [.asked socket p.epoch sequence] }) := by
  have hlast := h.current socket hcurrent
  obtain ⟨q, hgives, hfailed⟩ := failBridge_spec (P := fun _ => False) isOpen socket
    { p with session, log := p.log ++ [.asked socket p.epoch sequence] }
  have hread := fun k => asked_concat k socket p.epoch sequence (p := p)
    (q := { p with session, log := p.log ++ [.asked socket p.epoch sequence] }) rfl
  have hsame := hgives.asked_eq
  have hgeneration : q.bridgeGeneration = p.bridgeGeneration := hgives.bridgeGeneration
  rw [hfailed]
  dsimp only
  rw [if_pos hcurrent]
  refine ⟨fun k hk => (by cases hk), fun k hk => ?_, fun k => ?_⟩
  · have hlater : p.bridgeGeneration < k := hgeneration ▸ hk
    have hother : socket ≠ k := by omega
    change asked k q = [] ∧ answered k q = []
    rw [(hsame k).1, (hsame k).2, (hread k).1, (hread k).2, if_neg hother, List.append_nil]
    exact h.fresh k hlater
  · have hasked : asked k q = asked k p ++ (if socket = k then [(p.epoch, sequence)] else []) :=
      (hsame k).1.trans (hread k).1
    have hanswered : answered k q = answered k p := (hsame k).2.trans (hread k).2
    by_cases hk : socket = k
    · subst hk
      have hsettled : answered socket p = asked socket p :=
        (h.settled socket).resolve_right (fun hleft => hleft.1 hcurrent)
      refine .inr ⟨by simp, (p.epoch, sequence), ?_⟩
      change asked socket q = answered socket q ++ _
      rw [hasked, hanswered, hsettled, if_pos rfl]
    · rw [if_neg hk, List.append_nil] at hasked
      rcases h.settled k with hsettled | ⟨-, ask, hask⟩
      · exact .inl (hanswered.trans (hsettled.trans hasked.symm))
      · refine .inr ⟨by simp, ask, ?_⟩
        change asked k q = answered k q ++ _
        rw [hasked, hanswered, hask]

/-- A binary message of the current bridge is answered at once if it is a packet. -/
theorem answering_binary (h : Answering p) {socket : ℕ} (hcurrent : p.bridge = some socket)
    (data : Bytes) (refused : Bool) :
    Answering (handleBinary options readings isOpen socket data refused p) := by
  unfold handleBinary
  split
  · exact h.failBridge socket
  · split
    · rcases handlePacket_cases options readings isOpen socket data p with
        heq | ⟨session, sequence, -, heq | ⟨accepted, frame, hframe, heq⟩⟩
      · rw [heq]
        exact h.failBridge socket
      · rw [heq]
        exact h.leave hcurrent
      · rw [heq]
        exact h.answer hcurrent hframe rfl rfl rfl
    · split
      · exact h
      · exact h.failBridge socket

/-- A capability is taken for the next proof, and no packet is answered by it. -/
theorem answering_capability (h : Answering p) (socket epoch : ℕ) (bytes : Bytes) :
    Answering (handleCapability isOpen socket epoch bytes p) := by
  have hpermitted : Gives (fun _ => False) p
      { p with acousticCapability := some ⟨epoch, bytes⟩ } := gives_same rfl rfl rfl rfl rfl
  unfold handleCapability
  split
  · exact h.failBridge socket
  · dsimp only
    split
    · split
      · exact h.gives (hpermitted.trans (gives_ready _ _))
      · exact h.gives (hpermitted.trans (gives_refresh _))
    · exact h.gives hpermitted

/-- What the session does by itself concerns no answer. -/
theorem Answering.onward (h : Answering p) (session : AcousticSession) :
    Answering { p with session } :=
  h.keep (fun _ => id) rfl (fun _ => ⟨rfl, rfl⟩)

/-- A unit from the air may deliver a packet to the bridge, which asks for nothing. -/
theorem answering_unit (h : Answering p) (unit : Fas1Unit) :
    Answering (hearUnit options readings isOpen unit p) := by
  unfold hearUnit
  dsimp only
  split
  · exact (h.onward _).gives (P := fun _ => False) (gives_refresh _)
  · split
    · next q hsent =>
      exact ((h.gives (gives_sendPacket hsent)).onward _).gives (P := fun _ => False)
        (gives_refresh _)
    · exact (h.onward _).gives (P := fun _ => False) (gives_refresh _)

/-- A packet that a script offers is asked for by nobody. -/
theorem answering_offer (h : Answering p) (packet : Bytes) :
    Answering (pageStep options readings isOpen p (.offer packet)) := by
  have hnoted : Answering { p with log := p.log ++ [.offered packet] } := by
    refine h.keep (fun _ => id) rfl (fun socket => ?_)
    unfold asked answered
    simp [askOf, answerOf]
  unfold pageStep
  dsimp only
  split
  · next q hsent => exact hnoted.gives (gives_sendPacket hsent)
  · exact hnoted

/-- No other control is a packet or an answer. -/
theorem otherControls_kinds : ∀ type ∈ otherControls, type ≠ 9 ∧ type ≠ 14 := by decide

/-- One step of a page keeps its answers in order, one case for each event. What comes from a socket
the page has left changes nothing. -/
theorem answering_step (h : Answering p) (event : PageEvent) :
    Answering (pageStep options readings isOpen p event) := by
  cases event with
  | openFreshBridge =>
    refine ⟨fun socket hsocket => (Option.some.inj hsocket).symm, fun socket hlater => ?_,
      fun socket => ?_⟩
    · exact h.fresh socket ((Nat.lt_succ_self _).trans hlater)
    · by_cases hnew : socket = p.bridgeGeneration + 1
      · obtain ⟨hasked, hanswered⟩ := h.fresh socket (by omega)
        exact .inl (hanswered.trans hasked.symm)
      · refine (h.settled socket).imp id (fun ⟨_, hask⟩ => ⟨?_, hask⟩)
        intro hsocket
        exact hnew (Option.some.inj hsocket).symm
  | opened socket =>
    exact h.gives (P := fun _ => False) (gives_sendControl (by decide) (by decide) _ _ _ _)
  | binary socket data refused =>
    unfold pageStep
    dsimp only
    split
    · next hcurrent => exact answering_binary h hcurrent data refused
    · exact h
  | capability socket epoch bytes =>
    unfold pageStep
    dsimp only
    split
    · exact answering_capability h socket epoch bytes
    · exact h
  | text socket refused =>
    unfold pageStep
    dsimp only
    split
    · exact h.failBridge socket
    · exact h
  | failed socket => exact h.failBridge socket
  | control socket type epoch payload =>
    unfold pageStep
    dsimp only
    split
    · next htype =>
      obtain ⟨hpacket, hanswer⟩ := otherControls_kinds type htype
      exact h.gives (P := fun _ => False) (gives_sendControl hpacket hanswer _ _ _ _)
    · exact h
  | capture epoch firstSampleIndex samples =>
    unfold pageStep
    dsimp only
    split
    · exact h
    · split
      · next socket _ _ =>
        have hkind := kind_of_capture epoch p.bridgeSequence firstSampleIndex samples
        have hplain : Plain (fun _ => False) (.handed socket
            (pcmCaptureFrame epoch p.bridgeSequence firstSampleIndex samples)) := by
          refine ⟨?_, fun hpacket => ?_⟩
          · rw [hkind]
            decide
          · rw [hkind] at hpacket
            cases hpacket
        exact h.gives (gives_hand hplain rfl rfl rfl rfl rfl)
      · exact h
  | requestBridgeReset => exact h.gives (P := fun _ => False) (gives_closePackets p)
  | resetGranted socket =>
    refine h.keep (fun k hk => ?_) rfl (fun _ => ⟨rfl, rfl⟩)
    unfold pageStep at hk
    dsimp only at hk
    split at hk
    · cases hk
    · exact hk
  | enterEpoch epoch => exact h.keep (fun _ => id) rfl (fun _ => ⟨rfl, rfl⟩)
  | configure =>
    have hinvalid : Answering (invalidate isOpen p) :=
      h.gives (P := fun _ => False) (gives_invalidate isOpen p)
    exact hinvalid.keep (fun _ => id) rfl (fun _ => ⟨rfl, rfl⟩)
  | linger index action =>
    unfold pageStep linger
    dsimp only
    split
    · exact h.keep (fun _ => id) rfl (fun _ => ⟨rfl, rfl⟩)
    · exact h
  | renew epoch =>
    have hrenewed : Gives (fun _ => False) p { p with epoch } := gives_same rfl rfl rfl rfl rfl
    exact (h.gives (hrenewed.trans (gives_invalidate isOpen _))).onward _
  | refresh => exact h.gives (P := fun _ => False) (gives_refresh p)
  | markDegraded => exact (h.gives (P := fun _ => False) (gives_disarm isOpen _ p)).onward _
  | offer packet => exact answering_offer h packet
  | unit unit => exact answering_unit h unit
  | act action =>
    unfold pageStep
    dsimp only
    split
    · exact h
    · exact h.onward _

end Answers

/-- What happens to a page, and what it can tell of the time and its socket. -/
abbrev PageInput := Readings × Bool × PageEvent

/-- A page after a run. -/
def pageAfter (options : AcousticSessionOptions) (events : List PageInput) : Page :=
  run (fun p (input : PageInput) => pageStep options input.1 input.2.1 p input.2.2)
    { session := initialSession options.role } events

/-- In every run of a page, whatever the bridge sends, its sessions do and the operator asks for:
on each socket the answers are those to the packets that were read on it, one each, in their order
and with their epochs and sequences, but for the last packet if the socket was given up on it. -/
theorem answered_exactly (options : AcousticSessionOptions) (events : List PageInput) (socket : ℕ) :
    answered socket (pageAfter options events) = asked socket (pageAfter options events) ∨
      ((pageAfter options events).bridge ≠ some socket ∧
        ∃ ask, asked socket (pageAfter options events) =
          answered socket (pageAfter options events) ++ [ask]) := by
  have hanswering : Answering (pageAfter options events) := by
    refine invariant _ (I := Answering) (fun p input h => answering_step h input.2.2) ?_ events
    exact ⟨fun _ hsocket => (by cases hsocket), fun _ _ => ⟨rfl, rfl⟩, fun _ => .inl rfl⟩
  exact hanswering.settled socket

end Fipwave.PageAnswers
