import Fipwave.PacketOrder

/-!
# Packets across the link

An assembly collects fragments that the peer has sent, and all fragments of
one packet were cut from the bytes the peer accepted, so whatever the channel
loses, repeats or reorders, a packet that is handed over is the one that was
accepted under its identifier. The peer may have had other sessions before its
current one: then the identifier of a session and that of a packet tell the
packet together, if no session is taken up again.
-/

namespace Fipwave.PacketDelivery

open Relation TransitionRun LabelledStream ByteWords ScriptIntegers AcousticProtocol PacketFragments
  AcousticHandshake AcousticState AcousticDelivery AcousticSession AcousticLink DeliveryMachine
  DeliveryRefinement LinkSessions PacketAssembly PacketOrder TurnToken

section Chunks

/-- Two payload sizes that cut a packet into as many pieces, and give a piece the same length, give
it the same bytes. -/
theorem chunk_agree {packet : Bytes} {first second index : ℕ} (hlong : 1 ≤ packet.length)
    (hfirst : 1 ≤ first) (hsecond : 1 ≤ second)
    (hcount : ceilDivide packet.length first = ceilDivide packet.length second)
    (hlength : expectedLength packet.length first (ceilDivide packet.length first) index =
      expectedLength packet.length second (ceilDivide packet.length first) index) :
    chunk packet first index = chunk packet second index := by
  obtain ⟨-, hcoverFirst, hlastFirst⟩ := ceilDivide_bounds hlong hfirst
  obtain ⟨-, hcoverSecond, hlastSecond⟩ := ceilDivide_bounds hlong hsecond
  rw [← hcount] at hcoverSecond hlastSecond
  generalize ceilDivide packet.length first = count at *
  unfold expectedLength at hlength
  split at hlength
  · next hend =>
    have hbefore : first * (count - 1) = second * (count - 1) := by omega
    have hcount : count - 1 = index := by omega
    have hsplit : ∀ size, size * count = size * (count - 1) + size := by
      intro size
      conv_lhs => rw [show count = count - 1 + 1 by omega, Nat.mul_succ]
    rw [hsplit first] at hcoverFirst
    rw [hsplit second] at hcoverSecond
    rw [hcount] at hbefore hcoverFirst hcoverSecond
    unfold chunk
    rw [Nat.mul_comm index first, Nat.mul_comm index second, hbefore,
      List.take_of_length_le (by rw [List.length_drop]; omega),
      List.take_of_length_le (by rw [List.length_drop]; omega)]
  · rw [hlength]

end Chunks

/-- What was sent and accepted at one end, in one session or in several ones. -/
structure Traffic where
  /-- Units handed to the modem. -/
  sent : List Fas1Unit
  /-- Packets accepted from the owner. -/
  accepted : List AcceptedPacket

instance : Append Traffic := ⟨fun t u => ⟨t.sent ++ u.sent, t.accepted ++ u.accepted⟩⟩

/-- What one session has sent and accepted. -/
def traffic (c : Core) : Traffic := ⟨c.sent, c.accepted⟩

/-- What several sessions have sent and accepted, in their order. -/
def pastOf (sessions : List AcousticSession) : Traffic :=
  ⟨sessions.flatMap (·.io.sent), sessions.flatMap (·.io.accepted)⟩

/-- Fragments are cut from accepted packets, and the identifiers of a session and of a packet tell
the packet. -/
structure Traffic.Sound (t : Traffic) : Prop where
  /-- Every fragment is of an accepted packet. -/
  cut : ∀ unit ∈ t.sent, unit.type = .data → ∃ a ∈ t.accepted, ∃ fragments,
    CutFrom a.sessionId a.packetId a.packet fragments ∧ unit ∈ fragments
  /-- The identifiers are different. -/
  unique : ∀ a ∈ t.accepted, ∀ b ∈ t.accepted, a.sessionId = b.sessionId →
    a.packetId = b.packetId → a = b

section Traffic

variable {t u : Traffic}

/-- In one session packets are accepted under increasing identifiers. -/
theorem sound_traffic {role : AcousticRole} {c : Core} (hq : Queued role c) (ht : Transmits c) :
    (traffic c).Sound :=
  ⟨ht.cut, fun _ ha _ hb _ hid => accepted_unique hq.numbers ha hb hid⟩

/-- Sessions that share no identifier do not confuse each other's packets. -/
theorem Traffic.Sound.append (ht : t.Sound) (hu : u.Sound)
    (hapart : ∀ a ∈ u.accepted, ∀ b ∈ t.accepted, a.sessionId ≠ b.sessionId) :
    (t ++ u).Sound := by
  refine ⟨fun unit hunit htype => ?_, fun a ha b hb hsession hid => ?_⟩
  · rcases List.mem_append.mp hunit with hunit | hunit
    · obtain ⟨a, ha, hcut⟩ := ht.cut unit hunit htype
      exact ⟨a, List.mem_append_left _ ha, hcut⟩
    · obtain ⟨a, ha, hcut⟩ := hu.cut unit hunit htype
      exact ⟨a, List.mem_append_right _ ha, hcut⟩
  · rcases List.mem_append.mp ha with ha | ha <;> rcases List.mem_append.mp hb with hb | hb
    · exact ht.unique a ha b hb hsession hid
    · exact absurd hsession.symm (hapart b hb a ha)
    · exact absurd hsession (hapart a ha b hb)
    · exact hu.unique a ha b hb hsession hid

/-- The past of one session more ends with that session's traffic. -/
theorem pastOf_append (sessions : List AcousticSession) (s : AcousticSession) :
    pastOf (sessions ++ [s]) = pastOf sessions ++ traffic (core s) := by
  have hsent : (sessions ++ [s]).flatMap (·.io.sent) =
      sessions.flatMap (·.io.sent) ++ s.io.sent := by simp
  have haccepted : (sessions ++ [s]).flatMap (·.io.accepted) =
      sessions.flatMap (·.io.accepted) ++ s.io.accepted := by simp
  unfold pastOf
  rw [hsent, haccepted]
  rfl

/-- Every fragment of several sessions is of a packet that one of them has accepted. -/
theorem cut_pastOf {role : AcousticRole} {sessions : List AcousticSession}
    (h : ∀ s ∈ sessions, Orderly role s) :
    ∀ unit ∈ (pastOf sessions).sent, unit.type = .data →
      ∃ a ∈ (pastOf sessions).accepted, ∃ fragments,
        CutFrom a.sessionId a.packetId a.packet fragments ∧ unit ∈ fragments := by
  intro unit hunit htype
  obtain ⟨s, hs, hsent⟩ := List.mem_flatMap.mp hunit
  obtain ⟨a, ha, hcut⟩ := (h s hs).transmits.cut unit hsent htype
  exact ⟨a, List.mem_flatMap.mpr ⟨s, hs, ha⟩, hcut⟩

end Traffic

/-- What an end holds and has handed over is what its peer has sent and accepted. -/
structure Genuine (peer : Traffic) (c : Core) : Prop where
  /-- Every fragment held was sent. -/
  held : ∀ inbound, c.delivery.inbound = some inbound →
    ∀ fragment ∈ inbound.fragments, fragment ∈ peer.sent
  /-- Every packet was accepted. -/
  packets : ∀ e ∈ c.packets, ∃ a ∈ peer.accepted,
    a.sessionId = e.sessionId ∧ a.packetId = e.packetId ∧ a.packet = e.packet

section Genuine

variable {x : Context} {peer later : Traffic} {c d : Core} {role : AcousticRole} {unit : Fas1Unit}
  {payloadBytes : ℕ}

/-- A fragment that fits a shape is the piece of its packet at its index. -/
theorem piece_of_sent {shape : PacketShape} {fragment : Fas1Unit} (hsound : peer.Sound)
    (hsent : fragment ∈ peer.sent) (hfits : shape.Fits fragment) (hpayload : 1 ≤ shape.payloadBytes) :
    ∃ a ∈ peer.accepted, a.sessionId = shape.sessionId ∧ a.packetId = shape.packetId ∧
      a.packet.length = shape.packetLength ∧
      fragment.body = chunk a.packet shape.payloadBytes fragment.fragmentIndex := by
  obtain ⟨a, ha, fragments, ⟨input, hcut, hsession, hid, hpacket⟩, hmem⟩ :=
    hsound.cut fragment hsent hfits.type
  obtain ⟨hadmissible, hfragments⟩ := fragmentPacket_ok hcut
  rw [hfragments, List.mem_map] at hmem
  obtain ⟨index, hindex, rfl⟩ := hmem
  rw [List.mem_range] at hindex
  have hlong := hadmissible.packet.1
  have hsize : input.packet.length = shape.packetLength := hfits.packetLength
  have hshape : shape.count = ceilDivide input.packet.length shape.payloadBytes := by
    rw [hsize]
    rfl
  have hcount : ceilDivide input.packet.length input.payloadBytes =
      ceilDivide input.packet.length shape.payloadBytes := hfits.fragmentCount.trans hshape
  have hlength : expectedLength input.packet.length input.payloadBytes
      (ceilDivide input.packet.length input.payloadBytes) index =
      expectedLength input.packet.length shape.payloadBytes
        (ceilDivide input.packet.length input.payloadBytes) index := by
    rw [← chunk_length hadmissible.payloadBytes.1 hlong hindex, hcount]
    have hshare := hfits.length
    rw [hshape, ← hsize] at hshare
    exact hshare
  refine ⟨a, ha, ?_, ?_, ?_, ?_⟩
  · exact hsession.symm.trans hfits.sessionId
  · exact hid.symm.trans hfits.packetId
  · rw [← hpacket]
    exact hsize
  · rw [← hpacket]
    exact chunk_agree hlong hadmissible.payloadBytes.1 hpayload hcount hlength

/-- What an assembly that was complete gives is the packet that was accepted. -/
theorem packet_of_assembly {inbound : InboundAssembly} {packet : Bytes}
    (hsound : peer.Sound) (hassembles : Assembles x c unit payloadBytes)
    (hwf : unit.WellFormed) (hs : SlotState x.role c)
    (hinbound : inbound = assemblyAfter x.now unit c.delivery)
    (hsent : ∀ fragment ∈ inbound.fragments, fragment ∈ peer.sent)
    (hcomplete : inbound.fragments.length = inbound.fragmentCount)
    (hresult : reassemblePacket inbound.fragments payloadBytes = .ok packet) :
    ∃ a ∈ peer.accepted, a.sessionId = unit.sessionId ∧ a.packetId = unit.packetId ∧
      a.packet = packet := by
  have hcollects := collects_after hassembles hwf hs
  rw [← hinbound] at hcollects
  have hpayload := payload_pos hassembles hwf
  have hjoined := (reassemble_after hassembles hwf hs hinbound hcomplete).1
  have hpacket : joined inbound.fragments inbound.fragmentCount = packet :=
    Except.ok.inj (hjoined.symm.trans hresult)
  obtain ⟨first, hfirst⟩ := List.exists_mem_of_ne_nil _ hcollects.nonempty
  obtain ⟨a, ha, hsession, hid, hlength, -⟩ :=
    piece_of_sent hsound (hsent first hfirst) (hcollects.fits first hfirst) hpayload
  refine ⟨a, ha, hsession, hid, ?_⟩
  rw [← hpacket, hcollects.fragmentCount]
  refine ((joined_eq_iff hlength hpayload (hcollects.fits first hfirst).bounds.1 hcollects.fits
    hcollects.nodup (hcomplete.trans hcollects.fragmentCount)).mpr ?_).symm
  intro fragment hfragment
  obtain ⟨b, hb, hsame, hother, -, hbody⟩ :=
    piece_of_sent hsound (hsent fragment hfragment) (hcollects.fits fragment hfragment) hpayload
  have hsame : b = a :=
    hsound.unique b hb a ha (hsame.trans hsession.symm) (hother.trans hid.symm)
  rw [hsame] at hbody
  exact hbody

/-- The assembly that a sent fragment is stored in holds sent fragments. -/
theorem held_after (now : ℕ) (hg : Genuine peer c) (hunit : unit ∈ peer.sent) :
    ∀ fragment ∈ (assemblyAfter now unit c.delivery).fragments, fragment ∈ peer.sent := by
  intro fragment hfragment
  rcases mem_withFragment hfragment with hold | rfl
  · cases hinbound : c.delivery.inbound with
    | none =>
      rw [hinbound] at hold
      cases hold
    | some existing =>
      rw [hinbound] at hold
      exact hg.held existing hinbound fragment hold
  · exact hunit

/-- Moves keep what is held and handed over genuine, if the unit that is received was sent. -/
theorem genuine_move (h : Move x c d) (hs : SlotState x.role c)
    (hwf : ∀ unit, x.received = some unit → unit.WellFormed)
    (hsent : ∀ unit, x.received = some unit → unit ∈ peer.sent) (hsound : peer.Sound)
    (hg : Genuine peer c) : Genuine peer d := by
  cases h with
  | reset => exact ⟨fun _ hnone => (by cases hnone), hg.packets⟩
  | expireInbound => exact ⟨fun _ hnone => (by cases hnone), hg.packets⟩
  | failAssembly => exact ⟨fun _ hnone => (by cases hnone), hg.packets⟩
  | storeData _ unit payloadBytes inbound hassembles hinbound =>
    refine ⟨fun other hother => ?_, hg.packets⟩
    rw [← Option.some.inj hother, hinbound]
    exact held_after _ hg (hsent unit hassembles.received)
  | holdAssembly _ unit payloadBytes inbound packet hassembles hinbound =>
    refine ⟨fun other hother => ?_, hg.packets⟩
    rw [← Option.some.inj hother, hinbound]
    exact held_after _ hg (hsent unit hassembles.received)
  | deliver _ unit payloadBytes inbound packet hassembles hinbound hcomplete hresult =>
    refine ⟨fun _ hnone => (by cases hnone), fun e he => ?_⟩
    rcases List.mem_append.mp he with he | he
    · exact hg.packets e he
    · rw [List.mem_singleton.mp he]
      have hheld := held_after x.now hg (hsent unit hassembles.received)
      rw [← hinbound] at hheld
      exact packet_of_assembly hsound hassembles
        (hwf unit hassembles.received) hs hinbound hheld hcomplete hresult
  | _ => exact ⟨hg.held, hg.packets⟩

/-- What the peer sends and accepts later changes nothing. -/
theorem Genuine.onward (hg : Genuine peer c) (hsent : peer.sent ⊆ later.sent)
    (haccepted : peer.accepted ⊆ later.accepted) : Genuine later c := by
  refine ⟨fun inbound hinbound fragment hfragment =>
    hsent (hg.held inbound hinbound fragment hfragment), fun e he => ?_⟩
  obtain ⟨a, ha, hrest⟩ := hg.packets e he
  exact ⟨a, haccepted ha, hrest⟩

/-- A move only adds to what was accepted. -/
theorem accepted_move (h : Move x c d) : c.accepted <+: d.accepted := by
  cases h with
  | accept => exact List.prefix_append _ _
  | _ => exact List.prefix_rfl

/-- Moves only add to the accepted packets. -/
theorem accepted_moves (h : Moves x c d) : c.accepted <+: d.accepted := by
  induction h with
  | refl => exact List.prefix_rfl
  | tail _ hmove ih => exact ih.trans (accepted_move hmove)

/-- The moves of a step keep what is held and handed over genuine. -/
theorem genuine_moves (hmoves : Moves x c d) (hs : SlotState x.role c)
    (hlistening : x.received ≠ none → c.subscribed = true)
    (hx : ∀ candidate ∈ x.candidates, candidate.payloadBytes ≤ fas1MaxBodyBytes)
    (hwf : ∀ unit, x.received = some unit → unit.WellFormed)
    (hsent : ∀ unit, x.received = some unit → unit ∈ peer.sent) (hsound : peer.Sound)
    (hg : Genuine peer c) : Genuine peer d := by
  have h : (SlotState x.role d ∧ (x.received ≠ none → d.subscribed = true)) ∧ Genuine peer d := by
    induction hmoves with
    | refl => exact ⟨⟨hs, hlistening⟩, hg⟩
    | tail _ hmove ih =>
      obtain ⟨⟨hslot, hstill⟩, hgenuine⟩ := ih
      exact ⟨⟨slotState_move hmove hslot hstill hx hwf, subscribed_move hmove hstill⟩,
        genuine_move hmove hslot hwf hsent hsound hgenuine⟩
  exact h.2

end Genuine

section Ends

/-- What was sent and accepted at one end, before its current session and in it. -/
def total (past : AcousticRole → Traffic) (ends : PerRole AcousticSession) (role : AcousticRole) :
    Traffic :=
  past role ++ traffic (core (ends.get role))

/-- What holds of two sessions that hear nothing but each other and the sessions before. -/
structure Conveys (past : AcousticRole → Traffic) (ends : PerRole AcousticSession) : Prop where
  /-- What was sent can be encoded. -/
  sent : ∀ role, ∀ unit ∈ (total past ends role).sent, unit.WellFormed
  /-- The assemblies are in order. -/
  slots : ∀ role, SlotState role (core (ends.get role))
  /-- So are the packets. -/
  orderly : ∀ role, Orderly role (ends.get role)
  /-- And those of the sessions before. -/
  before : ∀ role, (past role).Sound
  /-- No packet was accepted in a session that was taken up again. -/
  apart : ∀ role, ∀ a ∈ (ends.get role).io.accepted, ∀ b ∈ (past role).accepted,
    a.sessionId ≠ b.sessionId
  /-- What one has received is what was sent at the other end. -/
  genuine : ∀ role, Genuine (total past ends (complement role)) (core (ends.get role))

/-- A session moves, and may hear a unit of the other end. -/
structure Hearing (past : AcousticRole → Traffic) (ends : PerRole AcousticSession) (x : Context)
    (s : AcousticSession) : Prop where
  /-- The moves. -/
  moves : Moves x (core (ends.get x.role)) (core s)
  /-- Its candidates fit one body. -/
  candidates : ∀ candidate ∈ x.candidates, candidate.payloadBytes ≤ fas1MaxBodyBytes
  /-- Its counter does not come round. -/
  wrapping : ¬x.wrapping
  /-- It listens to what it receives. -/
  listening : x.received ≠ none → (core (ends.get x.role)).subscribed = true
  /-- What it receives was sent. -/
  received : ∀ unit, x.received = some unit → unit ∈ (total past ends (complement x.role)).sent
  /-- What it newly accepts is not of a session before. -/
  apart : ∀ a ∈ s.io.accepted, a ∈ (ends.get x.role).io.accepted ∨
    ∀ b ∈ (past x.role).accepted, a.sessionId ≠ b.sessionId

variable {past later : AcousticRole → Traffic} {ends : PerRole AcousticSession}

/-- Of two roles, the one that differs is the other end. -/
theorem eq_complement_of_ne {role other : AcousticRole} (h : role ≠ other) :
    role = complement other := by
  cases role <;> cases other <;> simp [complement] at h ⊢

/-- All that was sent and accepted at an end is in order. -/
theorem Conveys.sound (h : Conveys past ends) (role : AcousticRole) :
    (total past ends role).Sound :=
  (h.before role).append (sound_traffic (h.orderly role).queued (h.orderly role).transmits)
    (h.apart role)

/-- A new session takes the place of the current one of an end. The traffic of the old one joins the
past, so in total nothing is lost. -/
theorem Conveys.replace {role : AcousticRole} (h : Conveys past ends)
    (hmade : later role = total past ends role)
    (hother : later (complement role) = past (complement role)) :
    Conveys later (ends.set (initialSession role) role) := by
  have hroles : ∀ other, other = role ∨ other = complement role := by
    intro other
    cases other <;> cases role <;> simp [complement]
  refine ⟨fun other => ?_, fun other => ?_, fun other => ?_, fun other => ?_, fun other => ?_,
    fun other => ?_⟩ <;> rcases hroles other with rfl | rfl
  · unfold total
    rw [PerRole.get_set_same, hmade]
    intro unit hunit
    exact (List.mem_append.mp hunit).elim (h.sent _ unit) (fun hnone => by cases hnone)
  · unfold total
    rw [PerRole.get_set_complement, hother]
    exact h.sent (complement role)
  · rw [PerRole.get_set_same]
    exact slotState_initial _
  · rw [PerRole.get_set_complement]
    exact h.slots (complement role)
  · rw [PerRole.get_set_same]
    exact orderly_initial _
  · rw [PerRole.get_set_complement]
    exact h.orderly (complement role)
  · rw [hmade]
    exact h.sound _
  · rw [hother]
    exact h.before (complement role)
  · rw [PerRole.get_set_same]
    intro a ha
    cases ha
  · rw [PerRole.get_set_complement, hother]
    exact h.apart (complement role)
  · rw [PerRole.get_set_same]
    exact ⟨fun _ hnone => (by cases hnone), fun e he => (by cases he)⟩
  · have hbefore := h.genuine (complement role)
    rw [complement_complement] at hbefore ⊢
    unfold total
    rw [PerRole.get_set_same, PerRole.get_set_complement, hmade]
    exact hbefore.onward (List.subset_append_left _ _) (List.subset_append_left _ _)

/-- The sessions before may go on sending what they had begun to send. -/
theorem Conveys.lingering (h : Conveys past ends)
    (hsent : ∀ role, (past role).sent ⊆ (later role).sent)
    (haccepted : ∀ role, (later role).accepted = (past role).accepted)
    (hwf : ∀ role, ∀ unit ∈ (later role).sent, unit.WellFormed)
    (hsound : ∀ role, (later role).Sound) : Conveys later ends := by
  refine ⟨fun role unit hunit => ?_, h.slots, h.orderly, hsound, fun role => ?_, fun role => ?_⟩
  · rcases List.mem_append.mp hunit with hunit | hunit
    · exact hwf role unit hunit
    · exact h.sent role unit (List.mem_append_right _ hunit)
  · rw [haccepted]
    exact h.apart role
  · refine (h.genuine role).onward (fun unit hunit => ?_) (fun a ha => ?_)
    · rcases List.mem_append.mp hunit with hunit | hunit
      · exact List.mem_append_left _ (hsent _ hunit)
      · exact List.mem_append_right _ hunit
    · rcases List.mem_append.mp ha with ha | ha
      · refine List.mem_append_left _ ?_
        rw [haccepted]
        exact ha
      · exact List.mem_append_right _ ha

/-- Sessions that hear nothing but each other convey what was accepted. The end that moves keeps its
own order; the other one is its audience or its source. -/
theorem Conveys.step {x : Context} {s : AcousticSession} (h : Conveys past ends)
    (hmoves : Hearing past ends x s) : Conveys past (ends.set s x.role) := by
  have hown := h.orderly x.role
  have hwf : ∀ unit, x.received = some unit → unit.WellFormed :=
    fun unit hunit => h.sent (complement x.role) unit (hmoves.received unit hunit)
  obtain ⟨units, hunits, hunitsWf⟩ := sent_moves hmoves.moves
  have hsent : s.io.sent = (ends.get x.role).io.sent ++ units := hunits
  obtain ⟨hqueued, htransmits⟩ :=
    order_moves hmoves.moves hmoves.wrapping hown.queued hown.transmits
  have hself : Genuine (total past ends (complement x.role)) (core s) :=
    genuine_moves hmoves.moves (h.slots x.role) hmoves.listening hmoves.candidates hwf
      hmoves.received (h.sound (complement x.role)) (h.genuine x.role)
  have hother : Genuine (past x.role ++ traffic (core s))
      (core (ends.get (complement x.role))) := by
    have hbefore := h.genuine (complement x.role)
    rw [complement_complement] at hbefore
    refine hbefore.onward (fun unit hunit => ?_) (fun a ha => ?_)
    · rcases List.mem_append.mp hunit with hunit | hunit
      · exact List.mem_append_left _ hunit
      · refine List.mem_append_right _ ?_
        change unit ∈ s.io.sent
        rw [hsent]
        exact List.mem_append_left _ hunit
    · rcases List.mem_append.mp ha with ha | ha
      · exact List.mem_append_left _ ha
      · exact List.mem_append_right _ ((accepted_moves hmoves.moves).subset ha)
  refine ⟨fun role => ?_, fun role => ?_, fun role => ?_, h.before, fun role => ?_, fun role => ?_⟩
  · have hbefore := h.sent role
    unfold total at hbefore ⊢
    by_cases hrole : role = x.role
    · subst hrole
      rw [PerRole.get_set_same]
      intro unit hunit
      rcases List.mem_append.mp hunit with hunit | hunit
      · exact hbefore unit (List.mem_append_left _ hunit)
      · change unit ∈ s.io.sent at hunit
        rw [hsent] at hunit
        exact (List.mem_append.mp hunit).elim
          (fun hold => hbefore unit (List.mem_append_right _ hold)) (hunitsWf unit)
    · rw [PerRole.get_set, if_neg hrole]
      exact hbefore
  · by_cases hrole : role = x.role
    · subst hrole
      rw [PerRole.get_set_same]
      exact slotState_moves hmoves.moves (h.slots x.role) hmoves.listening hmoves.candidates hwf
    · rw [PerRole.get_set, if_neg hrole]
      exact h.slots role
  · by_cases hrole : role = x.role
    · subst hrole
      rw [PerRole.get_set_same]
      exact ⟨fit_moves hmoves.moves hown.fit, hqueued, htransmits⟩
    · rw [PerRole.get_set, if_neg hrole]
      exact h.orderly role
  · by_cases hrole : role = x.role
    · subst hrole
      rw [PerRole.get_set_same]
      intro a ha
      exact (hmoves.apart a ha).elim (h.apart x.role a) id
    · rw [PerRole.get_set, if_neg hrole]
      exact h.apart role
  · unfold total
    by_cases hrole : role = x.role
    · subst hrole
      rw [PerRole.get_set_same, PerRole.get_set_complement]
      exact hself
    · rw [eq_complement_of_ne hrole, complement_complement, PerRole.get_set_same,
        PerRole.get_set_complement]
      exact hother

end Ends

section Link

/-- An end of a link is offered a packet only while its counter is below its last value. -/
def NumberedEvent (w : World) : LinkEvent → Prop
  | .act role action =>
    offers action = true → (w.session.get role).delivery.packetId ≠ uint32Max
  | _ => True

instance (w : World) : (event : LinkEvent) → Decidable (NumberedEvent w event)
  | .act _ _ => inferInstanceAs (Decidable (_ → _))
  | .deliver _ => isTrue trivial
  | .lose _ => isTrue trivial
  | .redeliver _ _ => isTrue trivial

/-- The end that takes part in an event. -/
def concerned : LinkEvent → Option AcousticRole
  | .act role _ => some role
  | .deliver receiver => some receiver
  | .lose _ => none
  | .redeliver receiver _ => some receiver

/-- An event that delivers a unit concerns the end that hears it. -/
theorem concerned_of_arriving {w : World} {event : LinkEvent} {role : AcousticRole} {index : ℕ}
    {unit : Fas1Unit} (h : arriving w event = some (role, index, unit)) :
    concerned event = some role := by
  cases event with
  | act | lose => cases h
  | deliver | redeliver =>
    simp only [arriving, Option.map_eq_some_iff, Prod.mk.injEq] at h
    obtain ⟨_, -, hrole, -⟩ := h
    rw [← hrole]
    rfl

/-- A step of a link is a sequence of moves of one end. -/
structure EndMoves (link : LinkOptions) (w : World) (event : Readings × LinkEvent)
    (acting : AcousticRole) (x : Context) (s : AcousticSession) : Prop where
  /-- The event concerns the end. -/
  concerns : concerned event.2 = some acting
  /-- The core it starts from. -/
  start : x.start = core (w.session.get acting)
  /-- The moves. -/
  moves : Moves x (core (w.session.get acting)) (core s)
  /-- The end that moves. -/
  role : x.role = acting
  /-- Its clock. -/
  now : x.now = event.1.now
  /-- Its candidates. -/
  candidates : x.candidates = (link.of acting).candidates
  /-- Its counter does not come round. -/
  wrapping : ¬x.wrapping
  /-- It listens to what it receives. -/
  listening : x.received ≠ none → (core (w.session.get acting)).subscribed = true
  /-- What it receives has arrived. -/
  received : ∀ unit, x.received = some unit →
    ∃ index, arriving w event.2 = some (acting, index, unit)

variable {link : LinkOptions} {w : World} {event : Readings × LinkEvent}

/-- A step of a link changes nothing or moves one end. -/
theorem linkStep_moves (hends : LinkState link w) (hnumbered : NumberedEvent w event.2) :
    (linkStep link w event).session = w.session ∨
      ∃ role x s, (linkStep link w event).session = w.session.set s role ∧
        EndMoves link w event role x s := by
  rcases linkStep_cases link w event with hsame | ⟨role, action, hact, hset⟩ |
    ⟨role, index, unit, harriving, hset⟩
  · exact .inl hsame
  · refine .inr ⟨role, ⟨role, core (w.session.get role), event.1.now, none,
      (link.of role).candidates, True, False⟩, _, hset, by rw [hact]; rfl, rfl, ?_, rfl, rfl,
      rfl, not_false, by simp, by simp⟩
    refine act_moves event.1 action rfl rfl (link.of_role role).symm rfl (fun _ => trivial) ?_
      (hends role).fit
    intro packet trafficClass hoffer hmax
    rw [hact, hoffer] at hnumbered
    exact hnumbered rfl hmax
  · by_cases hsubscribed : (w.session.get role).subscribed = true
    · refine .inr ⟨role, ⟨role, core (w.session.get role), event.1.now, some unit,
        (link.of role).candidates, True, False⟩, _, hset, concerned_of_arriving harriving, rfl, ?_,
        rfl, rfl, rfl, not_false, fun _ => hsubscribed, ?_⟩
      · exact deliverUnit_moves event.1 rfl (link.of_role role).symm rfl rfl rfl
      · intro other hother
        rw [← Option.some.inj hother]
        exact ⟨index, harriving⟩
    · refine .inl ?_
      rw [hset, deliverUnit, if_neg hsubscribed]
      cases role <;> rfl

/-- What holds of a link in every run that does not use up its packet identifiers. -/
structure Faithful (link : LinkOptions) (w : World) : Prop where
  /-- The ends are sessions. -/
  ends : LinkState link w
  /-- Their packets are in order. -/
  orderly : ∀ role, Orderly role (w.session.get role)
  /-- What one has received is what the other one has sent. -/
  genuine : ∀ role,
    Genuine (traffic (core (w.session.get (complement role)))) (core (w.session.get role))

/-- The slots of both ends keep their invariant in every reachable state. -/
theorem slotState_end (hends : LinkState link w) (role : AcousticRole) :
    SlotState role (core (w.session.get role)) := by
  obtain ⟨events, hevents⟩ := (hends role).session
  have hslot := (slotSession_run (link.ends.get role) events).slot
  have hrole : (link.ends.get role).role = role := link.role role
  rw [hrole] at hslot
  rw [hevents]
  exact hslot

/-- No session came before the current one. -/
def noPast (_ : AcousticRole) : Traffic := ⟨[], []⟩

/-- The ends of a link have no other sessions. -/
theorem Faithful.conveys (h : Faithful link w) : Conveys noPast w.session where
  sent role := (h.ends role).sent
  slots := slotState_end h.ends
  orderly := h.orderly
  before _ := ⟨fun _ hunit => (by cases hunit), fun _ ha => (by cases ha)⟩
  apart _ _ _ _ hb := by cases hb
  genuine := h.genuine

/-- What an end of a link receives has arrived, so it was sent. -/
theorem EndMoves.hearing {role : AcousticRole} {x : Context} {s : AcousticSession}
    (h : EndMoves link w event role x s) : Hearing noPast w.session x s := by
  obtain ⟨-, -, hmoves, hrole, -, hcandidates, hwrapping, hlistening, hreceived⟩ := h
  subst hrole
  refine ⟨hmoves, ?_, hwrapping, hlistening, fun unit hunit => ?_, fun _ _ => .inr ?_⟩
  · rw [hcandidates]
    exact (link.ends.get x.role).payload_le
  · obtain ⟨index, harriving⟩ := hreceived unit hunit
    exact List.mem_of_getElem? (arriving_sent harriving)
  · intro b hb
    cases hb

/-- One step of the link hands over only what the peer accepted. -/
theorem faithful_step (link : LinkOptions) (w : World) (event : Readings × LinkEvent)
    (hnumbered : NumberedEvent w event.2) (h : Faithful link w) :
    Faithful link (linkStep link w event) := by
  have hends := linkState_step link w event h.ends
  rcases linkStep_moves h.ends hnumbered with hsame | ⟨role, x, s, hset, hend⟩
  · refine ⟨hends, fun role => ?_, fun role => ?_⟩
    · rw [hsame]
      exact h.orderly role
    · rw [hsame]
      exact h.genuine role
  · have hconveys : Conveys noPast (w.session.set s role) := by
      rw [← hend.role]
      exact h.conveys.step hend.hearing
    refine ⟨hends, fun role => ?_, fun role => ?_⟩
    · rw [hset]
      exact hconveys.orderly role
    · rw [hset]
      exact hconveys.genuine role

/-- Nothing is handed over at the start. -/
theorem faithful_initial (link : LinkOptions) : Faithful link initialWorld := by
  refine ⟨linkState_run link [], fun role => ?_, fun role => ?_⟩
  · cases role
    · exact orderly_initial .a
    · exact orderly_initial .b
  · constructor <;> cases role <;>
      simp [initialWorld, PerRole.get, core, initialSession, complement]

/-- Handing over stays faithful in every run that keeps its identifiers apart. -/
theorem faithful_run {events : List (Readings × LinkEvent)}
    (h : Along (linkStep link) (fun w event => NumberedEvent w event.2) initialWorld events) :
    Faithful link (runLink link events) :=
  invariant_along (linkStep link) (faithful_step link) (faithful_initial link) h

/-- Whatever the channel loses, repeats or reorders: in every run that does not use up its packet
identifiers, every packet an end hands over is one its peer accepted under the same identifier for
the same session, with exactly the bytes that were offered, and it is the only packet the peer
accepted under the identifier. -/
theorem delivered_genuine (link : LinkOptions) (events : List (Readings × LinkEvent))
    (h : Along (linkStep link) (fun w event => NumberedEvent w event.2) initialWorld events)
    (role : AcousticRole) :
    ∀ e ∈ ((runLink link events).session.get role).io.packets,
      ∃ a ∈ ((runLink link events).session.get (complement role)).io.accepted,
        (a.sessionId = e.sessionId ∧ a.packetId = e.packetId ∧ a.packet = e.packet) ∧
        ∀ b ∈ ((runLink link events).session.get (complement role)).io.accepted,
          b.packetId = e.packetId → b = a := by
  intro e he
  have hrun := faithful_run h
  obtain ⟨a, ha, hsession, hid, hpacket⟩ := (hrun.genuine role).packets e he
  refine ⟨a, ha, ⟨hsession, hid, hpacket⟩, fun b hb hsame => ?_⟩
  exact accepted_unique (hrun.orderly (complement role)).queued.numbers hb ha
    (hsame.trans hid.symm)

set_option maxRecDepth 8000 in
/-- On the bench B hands over the packet that A accepted. -/
theorem delivered_genuine_bench :
    ((runLink benchLink benchExchange).session.b.io.packets.map (·.packet)) = [[7]] ∧
      ∀ e ∈ (runLink benchLink benchExchange).session.b.io.packets,
        ∃ a ∈ (runLink benchLink benchExchange).session.a.io.accepted,
          (a.sessionId = e.sessionId ∧ a.packetId = e.packetId ∧ a.packet = e.packet) ∧
          ∀ b ∈ (runLink benchLink benchExchange).session.a.io.accepted,
            b.packetId = e.packetId → b = a := by
  have hnumbered : Along (linkStep benchLink) (fun w event => NumberedEvent w event.2)
      initialWorld benchExchange := by decide +kernel
  have hdelivered : (runLink benchLink benchExchange).session.b.io.packets.map (·.packet) =
      [[7]] := by decide +kernel
  exact ⟨hdelivered, delivered_genuine benchLink benchExchange hnumbered .b⟩

end Link

end Fipwave.PacketDelivery
