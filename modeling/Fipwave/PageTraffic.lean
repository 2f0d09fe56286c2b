import Fipwave.PageAnswers

/-!
# What a step of a page does

A step of a page leaves its session alone, lets it act, offers it the packet
of a message of the bridge, lets it hear a unit, or puts a new session in its
place. The packets it hands to a socket are packets its session has handed over,
or the one a script offers.
-/

namespace Fipwave.PageTraffic

open ByteWords ThrowingMethod AcousticProtocol AcousticState AcousticSession BrowserFrames
  BrowserPage PageAnswers AcceptedPackets
open FwavProtocol (headerBytes)

variable {options : AcousticSessionOptions} {readings : Readings} {isOpen : Bool} {p q r : Page}
  {event : PageEvent}

section Session

/-- What becomes in a step of a page of its session and of those it has disposed of. -/
inductive Becomes (options : AcousticSessionOptions) (readings : Readings) (s : AcousticSession)
    (disposed : List AcousticSession) (event : PageEvent) :
    AcousticSession → List AcousticSession → Prop
  /-- It is left alone. -/
  | still : Becomes options readings s disposed event s disposed
  /-- It acts, and is not offered a packet. -/
  | acts (action : Action)
      (h : ∀ packet trafficClass, action ≠ .enqueuePacket packet trafficClass) :
      Becomes options readings s disposed event (act options readings action s) disposed
  /-- It is offered the packet of a message. -/
  | offered (socket : ℕ) (data : Bytes) (refused : Bool) (trafficClass : AcousticTrafficClass)
      (hevent : event = .binary socket data refused) (hkind : wordAt data 5 1 = 9) :
      Becomes options readings s disposed event
        (act options readings (.enqueuePacket (data.drop headerBytes) trafficClass) s) disposed
  /-- It hears a unit. -/
  | heard (unit : Fas1Unit) (hevent : event = .unit unit) :
      Becomes options readings s disposed event (deliverUnit options readings unit s) disposed
  /-- It hears a unit, and what it hands over does not arrive. -/
  | thrown (unit : Fas1Unit) (hevent : event = .unit unit) (hsubscribed : s.subscribed = true) :
      Becomes options readings s disposed event (left (handleUnit options readings unit s)) disposed
  /-- It is disposed of, and a new one is made. -/
  | made (hevent : event = .configure) :
      Becomes options readings s disposed event (initialSession options.role)
        (disposed ++ [act options readings .dispose s])
  /-- A session that was disposed of goes on. -/
  | lingers (index : ℕ) (action : Action)
      (h : ∀ packet trafficClass, action ≠ .enqueuePacket packet trafficClass) :
      Becomes options readings s disposed event s
        (disposed.modify index (act options readings action))

/-- The sessions of a page after a step. -/
abbrev BecomesPage (options : AcousticSessionOptions) (readings : Readings) (event : PageEvent)
    (p q : Page) : Prop :=
  Becomes options readings p.session p.disposed event q.session q.disposed

/-- A change outside the session and the latch is no move of the page. -/
theorem becomes_same (hsession : q.session = p.session) (hdisposed : q.disposed = p.disposed) :
    BecomesPage options readings event p q := by
  unfold BecomesPage
  rw [hsession, hdisposed]
  exact .still

/-- A page that only hands out messages leaves its sessions alone. -/
theorem becomes_gives {P : Bytes → Prop} (h : Gives P p q) :
    BecomesPage options readings event p q :=
  becomes_same h.session h.disposed

/-- A failing bridge touches neither the session nor the latch. -/
theorem sessions_failBridge (socket : ℕ) (p : Page) :
    (failBridge isOpen socket p).session = p.session ∧
      (failBridge isOpen socket p).disposed = p.disposed := by
  obtain ⟨q, hgives, hfailed⟩ := failBridge_spec (P := fun _ => False) isOpen socket p
  rw [hfailed]
  exact ⟨hgives.session, hgives.disposed⟩

/-- Giving a socket up leaves the sessions alone. -/
theorem becomes_failBridge (socket : ℕ) (p : Page) :
    BecomesPage options readings event p (failBridge isOpen socket p) :=
  becomes_same (sessions_failBridge socket p).1 (sessions_failBridge socket p).2

/-- The kind of a message is in its header. -/
theorem kind_of_message {data : Bytes} {type : ℕ} (h : readFwavMessageType data = .ok type) :
    wordAt data 5 1 = type := by
  unfold readFwavMessageType at h
  split at h
  · cases h
  · split at h
    · cases h
    · split at h
      · cases h
      · exact Except.ok.inj h

/-- A binary message from the bridge moves the page as the relation allows. -/
theorem becomes_binary (socket : ℕ) (data : Bytes) (refused : Bool) (p : Page) :
    BecomesPage options readings (.binary socket data refused) p
      (handleBinary options readings isOpen socket data refused p) := by
  unfold handleBinary
  split
  · exact becomes_failBridge socket p
  · next type htype =>
    split
    · next hpacket =>
      have hkind : wordAt data 5 1 = 9 := (kind_of_message htype).trans hpacket
      have hoffered : ∀ session, Offered options readings data p.session session →
          Becomes options readings p.session p.disposed (.binary socket data refused) session
            p.disposed := by
        intro session hsession
        rcases hsession with rfl | ⟨trafficClass, rfl⟩
        · exact .still
        · exact .offered socket data refused trafficClass rfl hkind
      rcases handlePacket_cases options readings isOpen socket data p with
        heq | ⟨session, sequence, hsession, heq | ⟨accepted, frame, -, heq⟩⟩
      · rw [heq]
        exact becomes_failBridge socket p
      · rw [heq]
        unfold BecomesPage
        rw [(sessions_failBridge socket _).1, (sessions_failBridge socket _).2]
        exact hoffered session hsession
      · rw [heq]
        exact hoffered session hsession
    · split
      · exact .still
      · exact becomes_failBridge socket p

/-- Refreshing the page leaves the session alone. -/
theorem session_refresh (p : Page) : (refresh isOpen p).session = p.session :=
  (gives_refresh (P := fun _ => False) p).session

/-- Refreshing the page leaves the latch alone. -/
theorem disposed_refresh (p : Page) : (refresh isOpen p).disposed = p.disposed :=
  (gives_refresh (P := fun _ => False) p).disposed

/-- A session that hands a packet over listens. -/
theorem subscribed_of_packets {unit : Fas1Unit} {s : AcousticSession}
    (h : (deliverUnit options readings unit s).io.packets.drop s.io.packets.length ≠ []) :
    s.subscribed = true := by
  by_contra hdeaf
  apply h
  rw [deliverUnit, if_neg hdeaf, List.drop_length]

/-- A unit from the microphone moves the page as the relation allows. -/
theorem becomes_unit (unit : Fas1Unit) (p : Page) :
    BecomesPage options readings (.unit unit) p (hearUnit options readings isOpen unit p) := by
  unfold hearUnit BecomesPage
  dsimp only
  split
  · rw [session_refresh, disposed_refresh]
    exact .heard unit rfl
  · next delivered rest hpackets =>
    split
    · next q hsent =>
      rw [session_refresh, disposed_refresh]
      have hdisposed : q.disposed = p.disposed := (gives_sendPacket hsent).disposed
      rw [hdisposed]
      exact .heard unit rfl
    · rw [session_refresh, disposed_refresh]
      have hsome : (deliverUnit options readings unit p.session).io.packets.drop
          p.session.io.packets.length ≠ [] := by
        rw [hpackets]
        exact List.cons_ne_nil _ _
      exact .thrown unit rfl (subscribed_of_packets hsome)

/-- No session that was disposed of is offered a packet. -/
theorem quiet_of_lingers {action : Action} (h : lingers action = true) :
    ∀ packet trafficClass, action ≠ .enqueuePacket packet trafficClass := by
  intro packet trafficClass haction
  rw [haction] at h
  cases h

variable (options readings isOpen) in
/-- One step of a page does one of these to its sessions, one case for each event. Most leave them
still. -/
theorem becomes_step (event : PageEvent) (p : Page) :
    BecomesPage options readings event p (pageStep options readings isOpen p event) := by
  cases event with
  | openFreshBridge => exact .still
  | opened socket =>
    exact becomes_gives (P := fun _ => False) (gives_sendControl (show 1 ≠ 9 by decide)
      (show 1 ≠ 14 by decide) socket p.epoch [] p)
  | binary socket data refused =>
    unfold pageStep
    dsimp only
    split
    · exact becomes_binary socket data refused p
    · exact .still
  | capability socket epoch bytes =>
    unfold pageStep handleCapability
    dsimp only
    split
    · split
      · exact becomes_failBridge socket p
      · split
        · split
          · have hgives : Gives (fun _ => False) { p with acousticCapability := some ⟨epoch, bytes⟩ }
                (ready isOpen epoch { p with acousticCapability := some ⟨epoch, bytes⟩ }) :=
              gives_ready epoch _
            exact becomes_same hgives.session hgives.disposed
          · exact becomes_same (session_refresh _) (disposed_refresh _)
        · exact .still
    · exact .still
  | text socket refused =>
    unfold pageStep
    dsimp only
    split
    · exact becomes_failBridge socket p
    · exact .still
  | failed socket => exact becomes_failBridge socket p
  | control socket type epoch payload =>
    unfold pageStep sendControl
    dsimp only
    split
    · split <;> exact .still
    · exact .still
  | capture epoch firstSampleIndex samples =>
    unfold pageStep
    dsimp only
    split
    · exact .still
    · split <;> exact .still
  | requestBridgeReset => exact becomes_gives (P := fun _ => False) (gives_closePackets p)
  | resetGranted socket => exact .still
  | enterEpoch epoch => exact .still
  | configure =>
    have hgives := gives_invalidate (P := fun _ => False) isOpen p
    unfold BecomesPage pageStep configureAcousticSession
    dsimp only
    rw [hgives.session, hgives.disposed]
    exact .made rfl
  | linger index action =>
    unfold pageStep linger
    dsimp only
    split
    · next hlingers => exact .lingers index action (quiet_of_lingers hlingers)
    · exact .still
  | renew epoch =>
    have hgives := gives_invalidate (P := fun _ => False) isOpen { p with epoch }
    have hsession : (invalidate isOpen { p with epoch }).session = p.session := hgives.session
    have hdisposed : (invalidate isOpen { p with epoch }).disposed = p.disposed := hgives.disposed
    unfold BecomesPage pageStep
    dsimp only
    rw [hsession, hdisposed]
    refine .acts (.reset epoch) (fun packet trafficClass h => ?_)
    cases h
  | refresh => exact becomes_same (session_refresh p) (disposed_refresh p)
  | markDegraded =>
    have hgives := gives_disarm (P := fun _ => False) isOpen p.session.link.epoch p
    unfold BecomesPage pageStep
    dsimp only
    rw [hgives.session, hgives.disposed]
    refine .acts .markHeartbeatMissed (fun packet trafficClass h => ?_)
    cases h
  | offer packet =>
    unfold pageStep
    dsimp only
    split
    · next q hsent =>
      have hsession : q.session = p.session := (gives_sendPacket hsent).session
      have hdisposed : q.disposed = p.disposed := (gives_sendPacket hsent).disposed
      exact becomes_same hsession hdisposed
    · exact .still
  | unit unit => exact becomes_unit unit p
  | act action =>
    unfold pageStep
    dsimp only
    split
    · exact .still
    · next hother => exact .acts action hother

/-- Hearing a unit accepts no new packet for sending. -/
theorem deliverUnit_noNew (unit : Fas1Unit) (s : AcousticSession) :
    NoNew s (deliverUnit options readings unit s) := by
  have hhandled : NoNew s (left (handleUnit options readings unit s)) := handleUnit_noNew _ _ _
  unfold deliverUnit receiveUnit
  split
  · split
    · rfl
    · split
      · next t ht =>
        rw [ht, left_ok] at hhandled
        unfold noteLiveness
        split
        · exact hhandled.trans (armHeartbeatTimers_noNew t)
        · exact hhandled
      · next fault hfault =>
        rw [hfault, left_error] at hhandled
        exact hhandled
  · rfl

/-- Sessions that were disposed of accept no packet. -/
theorem accepted_modify {action : Action} {disposed : List AcousticSession} {index : ℕ}
    (h : ∀ packet trafficClass, action ≠ .enqueuePacket packet trafficClass) :
    (disposed.modify index (act options readings action)).map (·.io.accepted) =
      disposed.map (·.io.accepted) := by
  refine List.ext_getElem (by simp) (fun k hk hk' => ?_)
  rw [List.getElem_map, List.getElem_map, List.getElem_modify]
  split
  · exact act_noNew readings h _
  · rfl

/-- What the sessions of a page have newly accepted in a step is the packet of a message. -/
theorem Becomes.accepted {s t : AcousticSession} {disposed later : List AcousticSession}
    (h : Becomes options readings s disposed event t later) :
    ∀ u ∈ later ++ [t], ∀ a ∈ u.io.accepted,
      (∃ v ∈ disposed ++ [s], a ∈ v.io.accepted) ∨ ∃ socket data refused,
        event = .binary socket data refused ∧ wordAt data 5 1 = 9 ∧
          a.packet = data.drop headerBytes := by
  intro u hu a ha
  have hcurrent : a ∈ s.io.accepted → ∃ v ∈ disposed ++ [s], a ∈ v.io.accepted :=
    fun hmem => ⟨s, List.mem_append_right _ List.mem_cons_self, hmem⟩
  have hbefore : u ∈ disposed → ∃ v ∈ disposed ++ [s], a ∈ v.io.accepted :=
    fun hmem => ⟨u, List.mem_append_left _ hmem, ha⟩
  have hstill : ∀ r, later = disposed → NoNew s r → t = r →
      ∃ v ∈ disposed ++ [s], a ∈ v.io.accepted := by
    intro r hlater hsame htr
    rw [hlater, htr] at hu
    rcases List.mem_append.mp hu with hu | hu
    · exact hbefore hu
    · rw [List.mem_singleton.mp hu, hsame] at ha
      exact hcurrent ha
  cases h with
  | still => exact .inl (hstill s rfl rfl rfl)
  | acts action hquiet => exact .inl (hstill _ rfl (act_noNew readings hquiet s) rfl)
  | offered socket data refused trafficClass hevent hkind =>
    rcases List.mem_append.mp hu with hu | hu
    · exact .inl (hbefore hu)
    · rw [List.mem_singleton.mp hu] at ha
      rcases mem_accepted_enqueue readings _ trafficClass s a ha with hold | ⟨hpacket, -⟩
      · exact .inl (hcurrent hold)
      · exact .inr ⟨socket, data, refused, hevent, hkind, hpacket⟩
  | heard unit hevent => exact .inl (hstill _ rfl (deliverUnit_noNew unit s) rfl)
  | thrown unit hevent hsubscribed =>
    exact .inl (hstill _ rfl (handleUnit_noNew readings unit s) rfl)
  | made hevent =>
    rcases List.mem_append.mp hu with hu | hu
    · rcases List.mem_append.mp hu with hu | hu
      · exact .inl (hbefore hu)
      · rw [List.mem_singleton.mp hu] at ha
        exact .inl (hcurrent ha)
    · rw [List.mem_singleton.mp hu] at ha
      cases ha
  | lingers index action hquiet =>
    rcases List.mem_append.mp hu with hu | hu
    · have hsame : u.io.accepted ∈ disposed.map (·.io.accepted) := by
        rw [← accepted_modify hquiet]
        exact List.mem_map_of_mem hu
      obtain ⟨v, hv, heq⟩ := List.mem_map.mp hsame
      exact .inl ⟨v, List.mem_append_left _ hv, heq ▸ ha⟩
    · rw [List.mem_singleton.mp hu] at ha
      exact .inl (hcurrent ha)

end Session

section Notes

/-- What a step of a page may note, if its session has handed some packets over by then. -/
def Noted (packets : List DeliveredPacket) (event : PageEvent) : PageNote → Prop
  | .handed _ message => wordAt message 5 1 = 9 →
    (∃ d ∈ packets, d.packet = message.drop headerBytes) ∨
      event = .offer (message.drop headerBytes)
  | .asked _ _ _ => True
  | .offered packet => event = .offer packet

/-- A page has noted nothing more but what it may. -/
def Notes (P : PageNote → Prop) (p q : Page) : Prop :=
  ∃ notes, q.log = p.log ++ notes ∧ ∀ note ∈ notes, P note

variable {P : PageNote → Prop}

/-- A page whose log has not grown has noted nothing. -/
theorem notes_same (h : q.log = p.log) : Notes P p q :=
  ⟨[], by rw [h, List.append_nil], fun note hnote => absurd hnote List.not_mem_nil⟩

theorem Notes.trans (h : Notes P p q) (h' : Notes P q r) : Notes P p r := by
  obtain ⟨first, hfirst, hnotes⟩ := h
  obtain ⟨second, hsecond, hnotes'⟩ := h'
  refine ⟨first ++ second, by rw [hsecond, hfirst, List.append_assoc], fun note hnote => ?_⟩
  exact (List.mem_append.mp hnote).elim (hnotes note) (hnotes' note)

/-- One entry behind the log is one note. -/
theorem notes_concat {note : PageNote} (hnote : P note) (h : q.log = p.log ++ [note]) :
    Notes P p q := by
  refine ⟨[note], h, fun other hother => ?_⟩
  rw [List.mem_singleton.mp hother]
  exact hnote

/-- Plain messages may be noted if their packets may. -/
theorem Gives.notes {allowed : Bytes → Prop} (h : Gives allowed p q)
    (hallowed : ∀ socket message, Plain allowed (.handed socket message) →
      P (.handed socket message)) : Notes P p q := by
  obtain ⟨notes, hlog, hplain⟩ := h.log
  refine ⟨notes, hlog, fun note hnote => ?_⟩
  have hone := hplain note hnote
  cases note with
  | handed socket message => exact hallowed socket message hone
  | asked socket epoch position => exact hone.elim
  | offered packet => exact hone.elim

/-- Messages without a packet may always be noted. -/
theorem notes_silent {packets : List DeliveredPacket} (h : Gives (fun _ => False) p q)
    (hlog : p.log = r.log) : Notes (Noted packets event) r q :=
  (notes_same hlog).trans (Gives.notes h (fun _ _ hplain hkind => (hplain.2 hkind).elim))

/-- A failing bridge notes no packet. -/
theorem notes_failBridge {packets : List DeliveredPacket} (socket : ℕ) (p : Page) :
    Notes (Noted packets event) p (failBridge isOpen socket p) := by
  obtain ⟨q, hgives, hfailed⟩ := failBridge_spec (P := fun _ => False) isOpen socket p
  rw [hfailed]
  exact (notes_silent hgives rfl).trans (notes_same rfl)

/-- A packet of the bridge is answered, or its socket is given up. -/
theorem notes_binary {packets : List DeliveredPacket} (socket : ℕ) (data : Bytes) (refused : Bool)
    (p : Page) : Notes (Noted packets event) p
      (handleBinary options readings isOpen socket data refused p) := by
  unfold handleBinary
  split
  · exact notes_failBridge socket p
  · split
    · rcases handlePacket_cases options readings isOpen socket data p with
        heq | ⟨session, sequence, -, hcases⟩
      · rw [heq]
        exact notes_failBridge socket p
      · have hasked : Noted packets event (.asked socket p.epoch sequence) := trivial
        have hread : Notes (Noted packets event) p
            { p with session, log := p.log ++ [.asked socket p.epoch sequence] } :=
          notes_concat hasked rfl
        rcases hcases with heq | ⟨accepted, frame, hframe, heq⟩
        · rw [heq]
          exact hread.trans (notes_failBridge socket _)
        · rw [heq]
          have hanswer : Noted packets event (.handed socket frame) := by
            intro hkind
            rw [(words_of_control hframe).1] at hkind
            cases hkind
          exact hread.trans (notes_concat hanswer rfl)
    · split
      · exact notes_same rfl
      · exact notes_failBridge socket p

/-- What a page hands on when it hears a unit is what its session has handed over. -/
theorem notes_unit (unit : Fas1Unit) (p : Page) :
    Notes (Noted (hearUnit options readings isOpen unit p).session.io.packets event) p
      (hearUnit options readings isOpen unit p) := by
  unfold hearUnit
  dsimp only
  split
  · exact notes_silent (gives_refresh _) rfl
  · next delivered rest hpackets =>
    split
    · next q hsent =>
      have hgives := gives_sendPacket hsent
      have hmem : delivered ∈ (deliverUnit options readings unit p.session).io.packets := by
        apply List.mem_of_mem_drop (i := p.session.io.packets.length)
        rw [hpackets]
        exact List.mem_cons_self
      rw [session_refresh]
      refine Notes.trans (q := q) (Gives.notes hgives (fun socket message hplain hkind => .inl ?_))
        (notes_silent (gives_refresh _) rfl)
      exact ⟨delivered, hmem, (hplain.2 hkind).symm⟩
    · exact notes_silent (gives_refresh _) rfl

/-- An offered packet is noted as offered and no other is. -/
theorem notes_offer {packets : List DeliveredPacket} (packet : Bytes) (p : Page) :
    Notes (Noted packets (.offer packet)) p
      (pageStep options readings isOpen p (.offer packet)) := by
  have hnoted : Noted packets (.offer packet) (.offered packet) := rfl
  have hoffered : Notes (Noted packets (.offer packet)) p
      { p with log := p.log ++ [.offered packet] } := notes_concat hnoted rfl
  unfold pageStep
  dsimp only
  split
  · next q hsent =>
    refine hoffered.trans (Gives.notes (gives_sendPacket hsent) (fun socket message hplain hkind =>
      .inr ?_))
    have hmessage : message.drop headerBytes = packet := hplain.2 hkind
    rw [hmessage]
  · exact hoffered

/-- A packet that a script offers is noted. -/
theorem offered_noted (packet : Bytes) (p : Page) :
    PageNote.offered packet ∈ (pageStep options readings isOpen p (.offer packet)).log := by
  have hnoted : PageNote.offered packet ∈ p.log ++ [.offered packet] :=
    List.mem_append_right _ List.mem_cons_self
  unfold pageStep
  dsimp only
  split
  · next q hsent =>
    obtain ⟨notes, hlog, -⟩ := (gives_sendPacket hsent).log
    rw [hlog]
    exact List.mem_append_left _ hnoted
  · exact hnoted

variable (options readings isOpen) in
/-- One step of a page notes nothing but what it may: what the bridge gave it, and what its session
hands over. -/
theorem notes_step (event : PageEvent) (p : Page) :
    Notes (Noted (pageStep options readings isOpen p event).session.io.packets event) p
      (pageStep options readings isOpen p event) := by
  cases event with
  | openFreshBridge => exact notes_same rfl
  | opened socket => exact notes_silent (gives_sendControl (by decide) (by decide) _ _ _ _) rfl
  | binary socket data refused =>
    unfold pageStep
    dsimp only
    split
    · exact notes_binary socket data refused p
    · exact notes_same rfl
  | capability socket epoch bytes =>
    unfold pageStep handleCapability
    dsimp only
    split
    · split
      · exact notes_failBridge socket p
      · split
        · split
          · exact notes_silent (gives_ready epoch _) rfl
          · exact notes_silent (gives_refresh _) rfl
        · exact notes_same rfl
    · exact notes_same rfl
  | text socket refused =>
    unfold pageStep
    dsimp only
    split
    · exact notes_failBridge socket p
    · exact notes_same rfl
  | failed socket => exact notes_failBridge socket p
  | control socket type epoch payload =>
    unfold pageStep
    dsimp only
    split
    · next htype =>
      obtain ⟨hpacket, hanswer⟩ := otherControls_kinds type htype
      exact notes_silent (gives_sendControl hpacket hanswer _ _ _ _) rfl
    · exact notes_same rfl
  | capture epoch firstSampleIndex samples =>
    unfold pageStep
    dsimp only
    split
    · exact notes_same rfl
    · next socket _ =>
      split
      · have hcapture : Noted p.session.io.packets (.capture epoch firstSampleIndex samples)
            (.handed socket (pcmCaptureFrame epoch p.bridgeSequence firstSampleIndex samples)) := by
          intro hkind
          rw [kind_of_capture] at hkind
          cases hkind
        exact notes_concat hcapture rfl
      · exact notes_same rfl
  | requestBridgeReset => exact notes_silent (gives_closePackets p) rfl
  | resetGranted socket => exact notes_same rfl
  | enterEpoch epoch => exact notes_same rfl
  | configure => exact (notes_silent (gives_invalidate isOpen p) rfl).trans (notes_same rfl)
  | linger index action =>
    unfold pageStep linger
    dsimp only
    split <;> exact notes_same rfl
  | renew epoch =>
    exact (notes_silent (gives_invalidate isOpen { p with epoch }) rfl).trans (notes_same rfl)
  | refresh => exact notes_silent (gives_refresh p) rfl
  | markDegraded => exact (notes_silent (gives_disarm isOpen _ p) rfl).trans (notes_same rfl)
  | offer packet => exact notes_offer packet p
  | unit unit => exact notes_unit unit p
  | act action =>
    unfold pageStep
    dsimp only
    split <;> exact notes_same rfl

end Notes

end Fipwave.PageTraffic
