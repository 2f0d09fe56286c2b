import Fipwave.TransportObserver
import Fipwave.TransportFrames
import Mathlib.Data.Prod.Lex

/-!
# Order of the packets of the sound transport

Packets are stamped with an epoch and a sequence. Stamps of packets delivered to
FIPS increase over the whole run, across every socket and every time the
transport is armed. So do the stamps of packets queued, until a sequence wraps,
and the stamps in the headers of the frames that are handed to sockets, which
are some of the frames queued, in the same order.
-/

namespace Fipwave.TransportOrder

open ByteWords FwavProtocol FipsTransport TransportMoves TransportBudget TransportObserver
open TransportFrames TransitionRun

/-- An epoch and a sequence in it. -/
abbrev Stamp := ℕ ×ₗ ℕ

/-- Stamp of a packet that is delivered. -/
def deliveredStamp : Entry → Option Stamp
  | .delivered epoch sequence _ => some (toLex (epoch, sequence))
  | _ => none

/-- The least stamp a packet that is delivered may have. -/
def deliveredMark (seen : Seen) : Stamp :=
  toLex (seen.epoch, match seen.highest with
    | none => 0
    | some highest => highest + 1)

/-- A later epoch comes behind, whatever the sequences. -/
theorem stamp_le_of_epoch {epoch sequence epoch' sequence' : ℕ} (h : epoch < epoch') :
    (toLex (epoch, sequence) : Stamp) ≤ toLex (epoch', sequence') :=
  (Prod.Lex.toLex_lt_toLex.mpr (.inl h)).le

/-- Within an epoch the sequence decides. -/
theorem stamp_le_of_sequence {epoch sequence sequence' : ℕ} (h : sequence ≤ sequence') :
    (toLex (epoch, sequence) : Stamp) ≤ toLex (epoch, sequence') :=
  Prod.Lex.toLex_le_toLex.mpr (.inr ⟨rfl, h⟩)

/-- Within an epoch a larger sequence comes strictly behind. -/
theorem stamp_lt_of_sequence {epoch sequence sequence' : ℕ} (h : sequence < sequence') :
    (toLex (epoch, sequence) : Stamp) < toLex (epoch, sequence') :=
  Prod.Lex.toLex_lt_toLex.mpr (.inr ⟨rfl, h⟩)

section Observer

variable {config : SoundConfig} {seen : Seen} {entry : Entry}

/-- A packet that is delivered is stamped between the marks around it. -/
theorem delivered_between {stamp : Stamp} (hallowed : Allowed config seen entry)
    (hstamp : deliveredStamp entry = some stamp) :
    deliveredMark seen ≤ stamp ∧ stamp < deliveredMark (observe seen entry) := by
  cases entry with
  | delivered epoch sequence data =>
    obtain ⟨-, rfl, -, hlater⟩ := hallowed
    obtain rfl := Option.some.inj hstamp
    refine ⟨stamp_le_of_sequence ?_, stamp_lt_of_sequence (Nat.lt_succ_self _)⟩
    cases hhighest : seen.highest with
    | none => exact Nat.zero_le _
    | some highest => exact hlater highest hhighest
  | _ => cases hstamp

/-- The mark of deliveries only rises. -/
theorem deliveredMark_rises (hallowed : Allowed config seen entry) :
    deliveredMark seen ≤ deliveredMark (observe seen entry) := by
  cases entry with
  | delivered epoch sequence data =>
    obtain ⟨hfrom, hbelow⟩ := delivered_between hallowed rfl
    exact hfrom.trans hbelow.le
  | reset epoch => exact stamp_le_of_epoch hallowed.2.1
  | _ => exact le_refl _

/-- Stamp of a packet that is queued. -/
def queuedStamp : Entry → Option Stamp
  | .queued epoch sequence _ _ _ => some (toLex (epoch, sequence))
  | _ => none

/-- The least stamp a packet that is queued may have. -/
def queuedMark (seen : Seen) : Stamp := toLex (seen.epoch, seen.sent + 1)

/-- A packet was queued. -/
def isQueued (entry : Entry) : Bool := (queuedStamp entry).isSome

/-- The next sequence does not wrap. -/
def Unwrapped (seen : Seen) (entry : Entry) : Prop :=
  isQueued entry = true → seen.sent + 1 < 2 ^ 64

/-- A packet that is queued is stamped between the marks around it. -/
theorem queued_between {stamp : Stamp} (hallowed : Allowed config seen entry)
    (hunwrapped : Unwrapped seen entry) (hstamp : queuedStamp entry = some stamp) :
    queuedMark seen ≤ stamp ∧ stamp < queuedMark (observe seen entry) := by
  cases entry with
  | queued epoch sequence trafficClass data now =>
    obtain ⟨-, rfl, hsequence, -⟩ := hallowed
    obtain rfl := Option.some.inj hstamp
    have hplain : sequence = seen.sent + 1 := by
      rw [hsequence, Nat.mod_eq_of_lt (hunwrapped rfl)]
    exact ⟨stamp_le_of_sequence hplain.ge, stamp_lt_of_sequence (Nat.lt_succ_self _)⟩
  | _ => cases hstamp

/-- The mark of queued packets only rises. -/
theorem queuedMark_rises (hallowed : Allowed config seen entry)
    (hunwrapped : Unwrapped seen entry) : queuedMark seen ≤ queuedMark (observe seen entry) := by
  cases entry with
  | queued epoch sequence trafficClass data now =>
    obtain ⟨hfrom, hbelow⟩ := queued_between hallowed hunwrapped rfl
    exact hfrom.trans hbelow.le
  | reset epoch => exact stamp_le_of_epoch hallowed.2.1
  | _ => exact le_refl _

/-- Packets queued so far. -/
def queuedCount (log : List Entry) : ℕ := log.countP isQueued

/-- The sequence is at most the number of packets queued so far. -/
theorem sent_le_count {log : List Entry} (hlawful : Along observe (Allowed config) seen log) :
    (run observe seen log).sent ≤ seen.sent + queuedCount log := by
  induction log generalizing seen with
  | nil => exact Nat.le_add_right _ _
  | cons entry log ih =>
    obtain ⟨hallowed, hrest⟩ := hlawful
    have hlater := ih hrest
    rw [run_cons]
    have hcount : (observe seen entry).sent + queuedCount log ≤
        seen.sent + queuedCount (entry :: log) := by
      unfold queuedCount
      cases entry with
      | queued epoch sequence trafficClass data now =>
        have hsequence : sequence = (seen.sent + 1) % 2 ^ 64 := hallowed.2.2.1
        have hle := Nat.mod_le (seen.sent + 1) (2 ^ 64)
        rw [List.countP_cons_of_pos rfl]
        simp only [observe]
        omega
      | reset epoch =>
        rw [List.countP_cons_of_neg (by simp [isQueued, queuedStamp])]
        simp only [observe]
        omega
      | _ =>
        rw [List.countP_cons_of_neg (by simp [isQueued, queuedStamp])]
        exact le_refl _
    exact hlater.trans hcount

/-- Fewer packets than sequences never wrap. -/
theorem unwrapped_along {log : List Entry} (hlawful : Lawful config log)
    (hcount : queuedCount log < 2 ^ 64) :
    Along observe (fun seen entry => Allowed config seen entry ∧ Unwrapped seen entry) {} log := by
  refine (along_and observe).mpr ⟨hlawful, (along_iff observe).mpr ?_⟩
  intro front entry back hsplit hqueued
  have hfront : Along observe (Allowed config) {} front := by
    have hall := hlawful
    rw [hsplit] at hall
    exact ((along_append observe).mp hall).1
  have hsent := sent_le_count hfront
  have htotal : queuedCount front + 1 ≤ queuedCount log := by
    rw [hsplit]
    unfold queuedCount
    rw [List.countP_append, List.countP_cons_of_pos hqueued]
    omega
  have hzero : ({} : Seen).sent = 0 := rfl
  omega

/-- In a lawful log the packets delivered inward are stamped in increasing order. -/
theorem delivered_pairwise {log : List Entry} (hlawful : Lawful config log) :
    (log.filterMap deliveredStamp).Pairwise (· < ·) :=
  (stamps_increasing observe (C := Allowed config) (fun _ _ hallowed => deliveredMark_rises hallowed)
    (fun _ _ _ hallowed hstamp => delivered_between hallowed hstamp) hlawful).1

/-- In a lawful log the frames queued outward are stamped in increasing order, as long as the
sequence has not wrapped. -/
theorem queued_pairwise {log : List Entry} (hlawful : Lawful config log)
    (hcount : queuedCount log < 2 ^ 64) : (log.filterMap queuedStamp).Pairwise (· < ·) :=
  (stamps_increasing observe (fun _ _ h => queuedMark_rises h.1 h.2)
    (fun _ _ _ h hstamp => queued_between h.1 h.2 hstamp) (unwrapped_along hlawful hcount)).1

end Observer

section Written

/-- Frame of a packet that is queued. -/
def queuedFrame : Entry → Option OutboundFrame
  | .queued epoch sequence trafficClass data now =>
    some ⟨encodePacket epoch sequence trafficClass data, now⟩
  | _ => none

/-- Frame that is handed to a socket. -/
def writtenFrame : Entry → Option OutboundFrame
  | .written frame _ => some frame
  | _ => none

/-- The stamp in the header of a frame. -/
def stampOf (frame : OutboundFrame) : Stamp :=
  toLex (wordAt frame.bytes 12 4, wordAt frame.bytes 16 8)

/-- Frames the task may still write. -/
def inFlight : Worker → List OutboundFrame
  | .serving socket => pending socket
  | _ => []

/-- Frames written, and then those that may still be, are some of the frames queued, in order. -/
def Ordered (t : SoundTransport) : Prop :=
  List.Sublist (t.log.filterMap writtenFrame ++ inFlight t.worker) (t.log.filterMap queuedFrame)

variable {t : SoundTransport}

/-- Frames that are dropped leave the others in order. -/
theorem ordered_fewer (h : Ordered t) {r : Runtime} {worker : Worker} {channels : ℕ}
    {exclusive : Option Exclusive} {poisoned : Bool}
    (hfewer : List.Sublist (inFlight worker) (inFlight t.worker)) :
    Ordered ⟨t.config, r, worker, channels, exclusive, poisoned, t.log⟩ :=
  (List.Sublist.append_left hfewer _).trans h

/-- So does anything that is neither queued nor written. -/
theorem ordered_silent (h : Ordered t) {r : Runtime} {worker : Worker} {channels : ℕ} {entry : Entry}
    (hqueued : queuedFrame entry = none) (hwritten : writtenFrame entry = none)
    (hfewer : List.Sublist (inFlight worker) (inFlight t.worker)) :
    Ordered { t with
      runtime := r
      worker := worker
      channels := channels
      log := t.log ++ [entry] } := by
  have hshorter : Ordered ⟨t.config, r, worker, channels, t.exclusive, t.poisoned, t.log⟩ :=
    ordered_fewer h hfewer
  unfold Ordered at *
  simp only [List.filterMap_append, List.filterMap_cons, hqueued, hwritten, List.filterMap_nil,
    List.append_nil]
  exact hshorter

/-- Injecting a browser's frame writes nothing, and leaves in flight at most what was. -/
theorem ordered_injected (h : Ordered t) {mtu : ℕ} {injected : Injected} {r : Runtime}
    (hinjects : Injects mtu r injected) {worker : Worker}
    (hfewer : List.Sublist (inFlight worker) (inFlight t.worker)) :
    Ordered { t with
      runtime := injected.runtime
      worker := worker
      log := t.log ++ injected.entry.toList } := by
  cases hinjects with
  | noted accepted r' halike =>
    simp only [Option.toList_none, List.append_nil]
    exact ordered_fewer h hfewer
  | _ => exact ordered_silent h rfl rfl hfewer

/-- The frame written is the oldest in flight, so it comes behind all that were written. -/
theorem ordered_wrote (h : Ordered t) {channel : ℕ} {queue : List OutboundFrame}
    {frame : OutboundFrame} {lookedAt : ℕ} {whole : Bool}
    (hsocket : t.worker = .serving ⟨channel, queue, .writing frame lookedAt⟩) :
    Ordered (wrote ⟨channel, queue, .writing frame lookedAt⟩ frame lookedAt whole t) := by
  have hidle : Ordered { t with
      worker := .serving ⟨channel, queue, .idle⟩
      log := t.log ++ [.written frame lookedAt] } := by
    unfold Ordered at *
    rw [hsocket] at h
    simp only [List.filterMap_append, List.filterMap_cons, writtenFrame, queuedFrame,
      List.filterMap_nil, List.append_nil, List.append_assoc, List.cons_append, List.nil_append,
      inFlight, pending] at h ⊢
    exact h
  unfold wrote
  split
  · exact hidle
  · exact ordered_silent hidle rfl rfl (List.nil_sublist _)

/-- A frame queued is the newest of all. -/
theorem ordered_queued (h : Ordered t) {socket : Serving} {trafficClass : TrafficClass}
    {data : Bytes} {now : ℕ} (hsocket : t.worker = .serving socket) :
    Ordered (queued socket trafficClass data now t) := by
  unfold Ordered at *
  rw [hsocket] at h
  simp only [queued, List.filterMap_append, List.filterMap_cons, writtenFrame, queuedFrame,
    List.filterMap_nil, List.append_nil, inFlight] at h ⊢
  have hmore : List.Sublist
      (pending { socket with queue := socket.queue ++ [⟨encodePacket t.runtime.epoch
        ((t.runtime.nextSequence + 1) % 2 ^ 64) trafficClass data, now⟩] })
      (pending socket ++ [⟨encodePacket t.runtime.epoch
        ((t.runtime.nextSequence + 1) % 2 ^ 64) trafficClass data, now⟩]) := by
    unfold pending
    cases socket.work with
    | draining => exact List.nil_sublist _
    | _ => exact List.Sublist.refl _
  have hboth := (List.Sublist.append_left hmore (t.log.filterMap writtenFrame)).trans
    (List.append_assoc _ _ _ ▸ List.Sublist.append_right h _)
  exact hboth

/-- Every move keeps the order. A frame is queued with the highest stamp and written from the front
of the queue. -/
theorem ordered_move {t' : SoundTransport} (hmove : Move t t') (h : Ordered t) : Ordered t' := by
  cases hmove with
  | note r halike => exact ordered_fewer h (List.Sublist.refl _)
  | starting hcan => exact ordered_fewer h (List.Sublist.refl _)
  | started failure hstarting =>
    cases failure with
    | none => exact ordered_fewer h (List.nil_sublist _)
    | some code => exact ordered_fewer h (List.Sublist.refl _)
  | stopping hfree => exact ordered_fewer h (List.Sublist.refl _)
  | stopped hgone => exact ordered_fewer h (List.nil_sublist _)
  | queued socket trafficClass data now hsocket hready hmtu hroom hbudget =>
    exact ordered_queued h hsocket
  | serve hconnected => exact ordered_silent h rfl rfl (List.nil_sublist _)
  | take channel frame rest hsocket =>
    refine ordered_fewer h ?_
    rw [hsocket]
    exact List.Sublist.refl _
  | account channel queue frame now hsocket =>
    unfold account
    split
    · exact ordered_fewer h (List.Sublist.refl _)
    · split
      · refine ordered_fewer h ?_
        rw [hsocket]
        exact List.sublist_cons_self _ _
      · refine ordered_fewer h ?_
        rw [hsocket]
        exact List.Sublist.refl _
  | wrote channel queue frame lookedAt whole hsocket => exact ordered_wrote h hsocket
  | receive channel queue encoded full hsocket =>
    refine ordered_injected h (injects_inbound  full encoded) ?_
    rw [hsocket]
    split
    · exact List.nil_sublist _
    · exact List.Sublist.refl _
  | lost channel queue hsocket => exact ordered_silent h rfl rfl (List.nil_sublist _)
  | drainOne channel frame rest dropped hsocket => exact ordered_fewer h (List.nil_sublist _)
  | drained channel dropped hsocket => exact ordered_fewer h (List.nil_sublist _)
  | finish hstop hawake => exact ordered_silent h rfl rfl (List.nil_sublist _)
  | reconnecting r halike worker hsocket hnext =>
    refine ordered_fewer h ?_
    rcases hnext with rfl | ⟨d, s, rfl⟩ <;> exact List.nil_sublist _

/-- What is written follows the order of queueing in every run, by induction over the actions. -/
theorem ordered_after (config : SoundConfig) (actions : List Action) :
    Ordered (after config actions) :=
  invariant_after (List.Sublist.refl _) (fun _ _ hmove h => ordered_move hmove h) actions

/-- The epoch of the observer fits its field. -/
theorem epoch_fits {config : SoundConfig} {log : List Entry} (hlawful : Lawful config log) :
    (seenIn log).epoch < 2 ^ 32 := by
  have hstart : ({} : Seen).epoch < 2 ^ 32 := by decide
  refine invariant_along observe (I := fun seen => seen.epoch < 2 ^ 32) ?_ hstart hlawful
  intro seen entry hallowed hepoch
  cases entry with
  | reset epoch => exact hallowed.2.2
  | _ => exact hepoch

/-- A frame the observer holds for recent is that of a packet queued in this epoch. -/
theorem recent_queued {config : SoundConfig} {log : List Entry} (hlawful : Lawful config log) :
    ∀ frame ∈ (seenIn log).recent, ∃ sequence trafficClass data,
      Entry.queued (seenIn log).epoch sequence trafficClass data frame.enqueuedAt ∈ log ∧
      frame.bytes = encodePacket (seenIn log).epoch sequence trafficClass data ∧
      sequence < 2 ^ 64 ∧ data.length ≤ config.mtu := by
  induction log using List.reverseRecOn with
  | nil => exact nofun
  | append_singleton log entry ih =>
    obtain ⟨hbefore, hallowed⟩ := lawful_snoc.mp hlawful
    have hkept : ∀ frame ∈ (seenIn log).recent, ∃ sequence trafficClass data,
        Entry.queued (seenIn log).epoch sequence trafficClass data frame.enqueuedAt ∈
          log ++ [entry] ∧
        frame.bytes = encodePacket (seenIn log).epoch sequence trafficClass data ∧
        sequence < 2 ^ 64 ∧ data.length ≤ config.mtu := by
      intro frame hframe
      obtain ⟨sequence, trafficClass, data, hqueued, hrest⟩ := ih hbefore frame hframe
      exact ⟨sequence, trafficClass, data, List.mem_append_left _ hqueued, hrest⟩
    rw [seenIn_snoc]
    cases entry with
    | opened => exact nofun
    | closed => exact nofun
    | reset epoch => exact nofun
    | queued epoch sequence trafficClass data now =>
      obtain ⟨-, rfl, hsequence, hmtu⟩ := hallowed
      have hfits : sequence < 2 ^ 64 := by
        rw [hsequence]
        exact Nat.mod_lt _ (by decide)
      intro frame hframe
      rcases List.mem_append.mp hframe with hold | hnew
      · exact hkept frame hold
      · obtain rfl := List.mem_singleton.mp hnew
        exact ⟨sequence, trafficClass, data, List.mem_append_right _ List.mem_cons_self, rfl, hfits,
          hmtu⟩
    | _ => exact hkept

/-- Stamps of packets queued are those in the headers of their frames. -/
theorem stamps_of_frames {config : SoundConfig} {log : List Entry} (hlawful : Lawful config log) :
    (log.filterMap queuedFrame).map stampOf = log.filterMap queuedStamp := by
  induction log using List.reverseRecOn with
  | nil => rfl
  | append_singleton log entry ih =>
    obtain ⟨hbefore, hallowed⟩ := lawful_snoc.mp hlawful
    have hlast : ([entry].filterMap queuedFrame).map stampOf = [entry].filterMap queuedStamp := by
      cases entry with
      | queued epoch sequence trafficClass data now =>
        obtain ⟨-, rfl, hsequence, -⟩ := hallowed
        have hepoch := epoch_fits hbefore
        have hfits : sequence < 2 ^ 64 := by
          rw [hsequence]
          exact Nat.mod_lt _ (by decide)
        simp only [List.filterMap_cons, queuedFrame, queuedStamp, List.filterMap_nil, List.map_cons,
          List.map_nil, stampOf, epoch_encodePacket, sequence_encodePacket,
          Nat.mod_eq_of_lt hepoch, Nat.mod_eq_of_lt hfits]
      | _ => rfl
    rw [List.filterMap_append, List.map_append, ih hbefore, hlast, ← List.filterMap_append]

end Written

/-- Over every run, whatever sockets are lost and whenever the transport is armed, the epochs
and sequences of the packets delivered to FIPS increase. -/
theorem delivered_increasing (config : SoundConfig) (actions : List Action) :
    ((after config actions).log.filterMap deliveredStamp).Pairwise (· < ·) := by
  have hlawful := (shown_after config actions).lawful
  rw [config_after] at hlawful
  exact delivered_pairwise hlawful

/-- Over every run that queues fewer packets than there are sequences, the epochs and sequences
in the headers of the frames handed to sockets increase, and these frames are some of those
queued, in the order they were queued in. -/
theorem written_increasing (config : SoundConfig) (actions : List Action)
    (hcount : queuedCount (after config actions).log < 2 ^ 64) :
    (((after config actions).log.filterMap writtenFrame).map stampOf).Pairwise (· < ·) ∧
      List.Sublist ((after config actions).log.filterMap writtenFrame)
        ((after config actions).log.filterMap queuedFrame) := by
  have hlawful := (shown_after config actions).lawful
  rw [config_after] at hlawful
  have hordered : List.Sublist ((after config actions).log.filterMap writtenFrame)
      ((after config actions).log.filterMap queuedFrame) :=
    (List.sublist_append_left _ _).trans (ordered_after config actions)
  refine ⟨?_, hordered⟩
  have hqueued := queued_pairwise hlawful hcount
  rw [← stamps_of_frames hlawful] at hqueued
  exact hqueued.sublist (hordered.map stampOf)

/-- Settings of a bench. -/
def benchConfig : SoundConfig :=
  ⟨"ws://127.0.0.1:4310/bridge/fips", "sound-a", 1357, 2, 4096, 5000⟩

/-- A bench sends a packet and hands it to its socket. -/
def benchRun : List Action :=
  [.start, .startDone none, .task .serve, .task (.receive benchArm false),
    .send "sound-a" [1, 2, 3] .ordinary 10, .task .take, .task (.account 20), .task (.wrote true)]

/-- Frame of the packet of a bench. -/
def benchFrame : OutboundFrame := ⟨encodePacket 1 1 .ordinary [1, 2, 3], 10⟩

/-- The log of the run below, event by event. -/
theorem log_benchRun : (after benchConfig benchRun).log =
    [.opened, .armed 1 (List.replicate 64 7), .queued 1 1 .ordinary [1, 2, 3] 10,
      .written benchFrame 20] := by
  decide

/-- The bench queues another packet, loses its socket before it is taken, connects again, and hands
a third packet to the new socket. -/
def benchTwice : List Action :=
  benchRun ++ [.send "sound-a" [4, 5] .ordinary 30, .task .lost, .task (.connectDone true),
    .task .serve, .task (.receive benchArm false), .send "sound-a" [6] .control 40, .task .take,
    .task (.account 50), .task (.wrote true)]

/-- Two of the three packets are written, the second one on the new socket with a later sequence. -/
theorem written_increasing_bench :
    ((after benchConfig benchTwice).log.filterMap writtenFrame).map stampOf =
        [toLex (1, 1), toLex (1, 3)] ∧
      queuedCount (after benchConfig benchTwice).log = 3 ∧
      (((after benchConfig benchTwice).log.filterMap writtenFrame).map stampOf).Pairwise (· < ·) ∧
      List.Sublist ((after benchConfig benchTwice).log.filterMap writtenFrame)
        ((after benchConfig benchTwice).log.filterMap queuedFrame) := by
  have hcount : queuedCount (after benchConfig benchTwice).log = 3 := by decide +kernel
  exact ⟨by decide +kernel, hcount,
    written_increasing benchConfig benchTwice (by rw [hcount]; decide)⟩

/-- Whenever a frame is handed to a socket it is no older than it may be, it was queued for this
socket in the epoch the transport is in, and the bridge decodes it as the packet that was queued. -/
theorem written_fresh (config : SoundConfig) (hmtu : config.mtu < 2 ^ 16) (actions : List Action)
    (front back : List Entry) (frame : OutboundFrame) (lookedAt : ℕ)
    (hwritten : (after config actions).log = front ++ .written frame lookedAt :: back) :
    lookedAt - frame.enqueuedAt ≤ config.queueMaxAgeMs ∧ frame ∈ (seenIn front).recent ∧
      ∃ sequence trafficClass data,
        Entry.queued (seenIn front).epoch sequence trafficClass data frame.enqueuedAt ∈ front ∧
        decodeFrame frame.bytes =
          .ok (packetFrame (seenIn front).epoch sequence trafficClass data) := by
  have hlawful := (shown_after config actions).lawful
  rw [config_after, hwritten] at hlawful
  obtain ⟨hfront, hallowed, -⟩ := (along_append observe).mp hlawful
  have hrecent : frame ∈ (seenIn front).recent := hallowed.1
  obtain ⟨sequence, trafficClass, data, hqueued, hbytes, hfits, hsmall⟩ :=
    recent_queued hfront frame hrecent
  refine ⟨hallowed.2, hrecent, sequence, trafficClass, data, hqueued, ?_⟩
  have hmax : maxPayloadBytes = 262112 := rfl
  rw [hbytes]
  exact decodeFrame_encodePacket _ _ _ _ (epoch_fits hfront) hfits (by omega)

/-- The frame of the run below is written ten milliseconds after it was queued. -/
theorem written_fresh_bench : 20 - benchFrame.enqueuedAt ≤ benchConfig.queueMaxAgeMs ∧
    benchFrame ∈ (seenIn ((after benchConfig benchRun).log.take 3)).recent ∧
      ∃ sequence trafficClass data,
        Entry.queued (seenIn ((after benchConfig benchRun).log.take 3)).epoch sequence trafficClass
          data benchFrame.enqueuedAt ∈ (after benchConfig benchRun).log.take 3 ∧
        decodeFrame benchFrame.bytes =
          .ok (packetFrame (seenIn ((after benchConfig benchRun).log.take 3)).epoch sequence
            trafficClass data) :=
  written_fresh benchConfig (by decide) benchRun _ [] benchFrame 20 (by rw [log_benchRun]; rfl)

end Fipwave.TransportOrder
