import Fipwave.ImageCoverage
import Fipwave.TransitionRun

/-!
# Several images sent at once

A call that sends an image waits for each of its datagrams, and meanwhile other
calls begin, go on or fail. They share the status. It tells the truth as long
as no call that has begun later is unfinished when a call hands over its last
datagram.
-/

namespace Fipwave.ImageSends

open ByteWords ImageTransfer TransitionRun

/-- How far a call has come. -/
inductive SendStatus where
  | waiting (y rows : ℕ) (frame : Bytes)
  | returned
  | rejected (error : String)
  deriving DecidableEq, Repr

/-- A call that sends a raster. -/
structure SendCall where
  /-- What it sends. -/
  raster : Raster
  /-- Datagrams that were handed to the socket. -/
  handed : List Bytes
  /-- Their number, as the call counts it. -/
  bands : ℕ
  /-- How far it has come. -/
  status : SendStatus
  deriving DecidableEq, Repr

/-- A transfer and the calls that began to send, in the order of their beginning. -/
structure SenderState where
  /-- The transfer. -/
  transfer : TransferState
  /-- Its calls. -/
  calls : List SendCall
  deriving DecidableEq, Repr

/-- What happens to a transfer. -/
inductive SenderEvent where
  | send (raster : Raster)
  | settle (call : ℕ) (outcome : Except String Unit)
  | message (frame : Bytes) (address : String)
  | close
  deriving DecidableEq, Repr

section Sending

variable (deflateRaw : Bytes → Bytes) (inflateRaw : Bytes → ℕ → Option Bytes)
  (options : ImageTransferOptions)

/-- A call goes on with a row: it sends a band, or comes to its end. -/
def proceed (raster : Raster) (y : ℕ) : SendStatus :=
  if y < raster.height then
    match nextBand deflateRaw raster y (min imageBandTargetRows (raster.height - y)) with
    | .error message => .rejected message
    | .ok (rows, frame) => .waiting y rows frame
  else .returned

/-- The status when a call comes to its end: the status of that moment, called complete. -/
def concludedSnapshot (snapshot : ImageTransferSnapshot) (raster : Raster) :
    ImageTransferSnapshot :=
  { snapshot with
    receivedRows := raster.height
    complete := true
    revision := snapshot.revision + 1 }

/-- What a call leaves of the status. -/
def snapshotAfter (status : SendStatus) (raster : Raster) (snapshot : ImageTransferSnapshot) :
    ImageTransferSnapshot :=
  if status = .returned then concludedSnapshot snapshot raster else snapshot

/-- A call begins. -/
def beginSend (raster : Raster) (s : SenderState) : SenderState :=
  if s.transfer.closed ∨ options.role ≠ .a then s
  else match validateRaster raster.width raster.height raster.rgba with
    | .error _ => s
    | .ok () =>
      let status := proceed deflateRaw raster 0
      { transfer := { s.transfer with
          snapshot := snapshotAfter status raster (sendingSnapshot s.transfer.snapshot raster) }
        calls := s.calls ++ [⟨raster, [], 0, status⟩] }

/-- A call whose datagram was handed over. -/
def SendCall.handOver (call : SendCall) (y rows : ℕ) (frame : Bytes) : SendCall :=
  { call with
    handed := call.handed ++ [frame]
    bands := call.bands + 1
    status := proceed deflateRaw call.raster (y + rows) }

/-- The datagram of a call failed. -/
def failSend (index : ℕ) (call : SendCall) (message : String) (s : SenderState) : SenderState :=
  { s with calls := s.calls.set index { call with status := .rejected message } }

/-- The call goes on after its datagram was handed over. -/
def continueSend (index : ℕ) (call : SendCall) (y rows : ℕ) (frame : Bytes) (s : SenderState) :
    SenderState :=
  let after := call.handOver deflateRaw y rows frame
  { transfer := { s.transfer with
      snapshot := snapshotAfter after.status call.raster s.transfer.snapshot }
    calls := s.calls.set index after }

/-- The datagram a call waits for was handed over, or failed. -/
def settleSend (index : ℕ) (outcome : Except String Unit) (s : SenderState) : SenderState :=
  match s.calls[index]? with
  | none => s
  | some call =>
    match call.status with
    | .waiting y rows frame =>
      match outcome with
      | .error message => failSend index call message s
      | .ok () => continueSend deflateRaw index call y rows frame s
    | _ => s

/-- One event. -/
def step (s : SenderState) : SenderEvent → SenderState
  | .send raster => beginSend deflateRaw options raster s
  | .settle call outcome => settleSend deflateRaw call outcome s
  | .message frame address =>
    { s with transfer := accept inflateRaw options s.transfer frame address }
  | .close => { s with transfer := { s.transfer with closed := true } }

/-- Nothing was sent yet. -/
def createSender : SenderState := ⟨createImageTransfer, []⟩

/-- All bands of a raster from a row on, as a socket that never fails takes them. -/
def allBands (raster : Raster) (y : ℕ) : List Bytes × Except String ℕ :=
  sendBands deflateRaw (fun _ => .ok ()) raster y

/-- Every band of its transfer was handed to the socket. -/
def SendCall.AllHanded (call : SendCall) : Prop :=
  allBands deflateRaw call.raster 0 = (call.handed, .ok call.bands)

instance (call : SendCall) : Decidable (call.AllHanded deflateRaw) :=
  inferInstanceAs (Decidable (_ = _))

/-- A transfer that is shown complete, with its width and height, has a call all of whose bands
were handed to the socket. -/
def Truthful (s : SenderState) : Prop :=
  s.transfer.snapshot.complete = true →
    ∃ call ∈ s.calls, s.transfer.snapshot.transferId = some call.raster.transferId ∧
      s.transfer.snapshot.width = call.raster.width ∧
      s.transfer.snapshot.height = call.raster.height ∧ call.AllHanded deflateRaw

/-- The datagram a call waits for is its last one. -/
def waitsForLast (s : SenderState) (index : ℕ) : Bool :=
  match s.calls[index]? with
  | none => false
  | some call =>
    match call.status with
    | .waiting y rows _ => call.raster.height ≤ y + rows
    | _ => false

/-- The call that began last has returned. -/
def lastReturned (s : SenderState) : Bool :=
  s.calls.getLast?.all (fun last => last.status = .returned)

/-- When a call hands over its last datagram, the call that began last is this one or has
returned. -/
def Unovertaken (s : SenderState) : SenderEvent → Prop
  | .settle index (.ok ()) =>
    waitsForLast s index = true → index + 1 = s.calls.length ∨ lastReturned s = true
  | _ => True

instance (s : SenderState) (e : SenderEvent) : Decidable (Unovertaken s e) :=
  match e with
  | .settle index (.ok ()) => inferInstanceAs (Decidable
      (waitsForLast s index = true → index + 1 = s.calls.length ∨ lastReturned s = true))
  | .settle _ (.error _) => isTrue trivial
  | .send _ => isTrue trivial
  | .message _ _ => isTrue trivial
  | .close => isTrue trivial

/-- What was handed over, with the bands from a row on, are all bands. -/
def Covers (raster : Raster) (handed : List Bytes) (bands y : ℕ) : Prop :=
  allBands deflateRaw raster 0 =
    (handed ++ (allBands deflateRaw raster y).1, (allBands deflateRaw raster y).2.map (· + bands))

/-- A call has handed over the bands before the one it waits for, and all when it returned. -/
def SendCall.Sound (call : SendCall) : Prop :=
  match call.status with
  | .waiting y rows frame =>
    y < call.raster.height ∧
      nextBand deflateRaw call.raster y (min imageBandTargetRows (call.raster.height - y)) =
        .ok (rows, frame) ∧
      Covers deflateRaw call.raster call.handed call.bands y
  | .returned => call.AllHanded deflateRaw
  | .rejected _ => True

variable {deflateRaw}

/-- Below the last row there is no band. -/
theorem allBands_of_le {raster : Raster} {y : ℕ} (h : raster.height ≤ y) :
    allBands deflateRaw raster y = ([], .ok 0) := by
  unfold allBands
  rw [sendBands, if_neg (not_lt.mpr h)]

theorem allBands_of_lt {raster : Raster} {y rows : ℕ} {frame : Bytes} (h : y < raster.height)
    (hnext : nextBand deflateRaw raster y (min imageBandTargetRows (raster.height - y)) =
      .ok (rows, frame)) :
    allBands deflateRaw raster y =
      (frame :: (allBands deflateRaw raster (y + rows)).1,
        (allBands deflateRaw raster (y + rows)).2.map (· + 1)) := by
  unfold allBands
  rw [sendBands, if_pos h]
  split
  · next message herror =>
    rw [hnext] at herror
    cases herror
  · next found sent hfound =>
    rw [hnext] at hfound
    cases hfound
    rfl

/-- At its first row a call has handed over nothing. -/
theorem covers_zero (raster : Raster) : Covers deflateRaw raster [] 0 0 := by
  unfold Covers
  have hmap : (allBands deflateRaw raster 0).2.map (· + 0) = (allBands deflateRaw raster 0).2 := by
    cases (allBands deflateRaw raster 0).2 <;> rfl
  rw [hmap, List.nil_append]

/-- One more band is handed over. -/
theorem Covers.handOver {raster : Raster} {handed : List Bytes} {bands y rows : ℕ} {frame : Bytes}
    (h : Covers deflateRaw raster handed bands y) (hy : y < raster.height)
    (hnext : nextBand deflateRaw raster y (min imageBandTargetRows (raster.height - y)) =
      .ok (rows, frame)) :
    Covers deflateRaw raster (handed ++ [frame]) (bands + 1) (y + rows) := by
  unfold Covers at h ⊢
  rw [h, allBands_of_lt hy hnext]
  have hcount : ∀ count : Except String ℕ,
      (count.map (· + 1)).map (· + bands) = count.map (· + (bands + 1)) := by
    intro count
    cases count with
    | error message => rfl
    | ok count =>
      have hsum : count + 1 + bands = count + (bands + 1) := by omega
      exact congrArg Except.ok hsum
  rw [hcount, List.append_assoc, List.singleton_append]

/-- A call that goes on is sound. -/
theorem sound_of_covers {raster : Raster} {handed : List Bytes} {bands y : ℕ}
    (h : Covers deflateRaw raster handed bands y) :
    SendCall.Sound deflateRaw ⟨raster, handed, bands, proceed deflateRaw raster y⟩ := by
  unfold SendCall.Sound proceed
  by_cases hy : y < raster.height
  · rw [if_pos hy]
    cases hnext : nextBand deflateRaw raster y
        (min imageBandTargetRows (raster.height - y)) with
    | error message => trivial
    | ok sent => exact ⟨hy, hnext, h⟩
  · rw [if_neg hy]
    unfold Covers at h
    rw [allBands_of_le (not_lt.mp hy), List.append_nil] at h
    have hzero : 0 + bands = bands := by omega
    have hcount : (Except.ok 0 : Except String ℕ).map (· + bands) = .ok bands :=
      congrArg Except.ok hzero
    rw [hcount] at h
    exact h

/-- Handing a frame over keeps the call sound. -/
theorem SendCall.Sound.handOver {call : SendCall} {y rows : ℕ} {frame : Bytes}
    (h : call.Sound deflateRaw) (hstatus : call.status = .waiting y rows frame) :
    (call.handOver deflateRaw y rows frame).Sound deflateRaw := by
  unfold SendCall.Sound at h
  rw [hstatus] at h
  obtain ⟨hy, hnext, hcovers⟩ := h
  exact sound_of_covers (hcovers.handOver hy hnext)

/-- A call returns after the band that ends at its last row. -/
theorem height_le_of_returned {raster : Raster} {y : ℕ}
    (h : proceed deflateRaw raster y = .returned) : raster.height ≤ y := by
  unfold proceed at h
  by_contra hlt
  rw [if_pos (not_le.mp hlt)] at h
  split at h <;> cases h

variable (deflateRaw) in
/-- The status shows the call that began last, and complete only if that one returned. -/
structure Coherent (s : SenderState) : Prop where
  /-- Every call is sound. -/
  sound : ∀ call ∈ s.calls, call.Sound deflateRaw
  /-- The status is about the raster of the last call. -/
  shown : ∀ last, s.calls.getLast? = some last →
    s.transfer.snapshot.transferId = some last.raster.transferId ∧
      s.transfer.snapshot.width = last.raster.width ∧
      s.transfer.snapshot.height = last.raster.height
  /-- If it is complete, the last call returned. -/
  complete : s.transfer.snapshot.complete = true →
    ∃ last, s.calls.getLast? = some last ∧ last.status = .returned

/-- A coherent status is truthful. -/
theorem Coherent.truthful {s : SenderState} (h : Coherent deflateRaw s) :
    Truthful deflateRaw s := by
  intro hcomplete
  obtain ⟨last, hlast, hreturned⟩ := h.complete hcomplete
  have hmem : last ∈ s.calls := List.mem_of_getLast? hlast
  have hsound := h.sound last hmem
  unfold SendCall.Sound at hsound
  rw [hreturned] at hsound
  obtain ⟨hid, hwidth, hheight⟩ := h.shown last hlast
  exact ⟨last, hmem, hid, hwidth, hheight, hsound⟩

/-- A new sender is coherent. -/
theorem coherent_createSender : Coherent deflateRaw createSender := by
  refine ⟨?_, ?_, ?_⟩
  · intro call hcall
    cases hcall
  · intro last hlast
    cases hlast
  · intro hcomplete
    cases hcomplete

/-- The call at a position is the last one, or the last one stays when it changes. -/
theorem getLast?_set (calls : List SendCall) (index : ℕ) (call : SendCall)
    (h : index < calls.length) :
    (calls.set index call).getLast? =
      if index + 1 = calls.length then some call else calls.getLast? := by
  rw [List.getLast?_eq_getElem?, List.getLast?_eq_getElem?, List.length_set, List.getElem?_set]
  by_cases hlast : index + 1 = calls.length
  · have hindex : index = calls.length - 1 := by omega
    rw [if_pos hindex, if_pos hlast, if_pos h]
  · have hindex : index ≠ calls.length - 1 := by omega
    rw [if_neg hindex, if_neg hlast]

variable {inflateRaw : Bytes → ℕ → Option Bytes} {options : ImageTransferOptions}

/-- A new call is shown, and it is the last one. -/
theorem coherent_beginSend {s : SenderState} (raster : Raster) (h : Coherent deflateRaw s) :
    Coherent deflateRaw (beginSend deflateRaw options raster s) := by
  unfold beginSend
  split
  · exact h
  · split
    · exact h
    · refine ⟨?_, ?_, ?_⟩
      · intro call hcall
        rcases List.mem_append.mp hcall with hold | hnew
        · exact h.sound call hold
        · rw [List.mem_singleton.mp hnew]
          exact sound_of_covers (covers_zero raster)
      · intro last hlast
        dsimp only at hlast ⊢
        rw [List.getLast?_append, List.getLast?_singleton, Option.some_or] at hlast
        cases hlast
        unfold snapshotAfter concludedSnapshot sendingSnapshot
        split <;> exact ⟨rfl, rfl, rfl⟩
      · intro hcomplete
        dsimp only at hcomplete ⊢
        refine ⟨⟨raster, [], 0, proceed deflateRaw raster 0⟩, ?_, ?_⟩
        · rw [List.getLast?_append, List.getLast?_singleton, Option.some_or]
        · by_contra hstatus
          unfold snapshotAfter sendingSnapshot at hcomplete
          rw [if_neg hstatus] at hcomplete
          cases hcomplete

/-- When a call changes, the last call keeps its raster. -/
theorem last_set {calls : List SendCall} {index : ℕ} {call after last : SendCall}
    (hcall : calls[index]? = some call) (hraster : after.raster = call.raster)
    (hlast : (calls.set index after).getLast? = some last) :
    ∃ old, calls.getLast? = some old ∧ last.raster = old.raster := by
  have hbound : index < calls.length := (List.getElem?_eq_some_iff.mp hcall).1
  rw [getLast?_set calls index after hbound] at hlast
  by_cases hindex : index + 1 = calls.length
  · rw [if_pos hindex] at hlast
    refine ⟨call, ?_, ?_⟩
    · have hposition : calls.length - 1 = index := by omega
      rw [List.getLast?_eq_getElem?, hposition]
      exact hcall
    · rw [← Option.some.inj hlast]
      exact hraster
  · rw [if_neg hindex] at hlast
    exact ⟨last, hlast, rfl⟩

/-- A last call that returned stays when a call that waits changes. -/
theorem returned_set {calls : List SendCall} {index : ℕ} {call after last : SendCall}
    {y rows : ℕ} {frame : Bytes} (hcall : calls[index]? = some call)
    (hstatus : call.status = .waiting y rows frame) (hlast : calls.getLast? = some last)
    (hreturned : last.status = .returned) : (calls.set index after).getLast? = some last := by
  have hbound : index < calls.length := (List.getElem?_eq_some_iff.mp hcall).1
  rw [getLast?_set calls index after hbound]
  by_cases hindex : index + 1 = calls.length
  · have hposition : calls.length - 1 = index := by omega
    rw [List.getLast?_eq_getElem?, hposition, hcall] at hlast
    rw [← Option.some.inj hlast, hstatus] at hreturned
    cases hreturned
  · rw [if_neg hindex]
    exact hlast

/-- Replacing one call by a sound one leaves all of them sound. -/
theorem sound_set {s : SenderState} {index : ℕ} {after : SendCall} (h : Coherent deflateRaw s)
    (hafter : after.Sound deflateRaw) : ∀ call ∈ s.calls.set index after, call.Sound deflateRaw := by
  intro call hcall
  rcases List.mem_or_eq_of_mem_set hcall with hold | hnew
  · exact h.sound call hold
  · rw [hnew]
    exact hafter

/-- A call that fails is not the last one of a complete status. -/
theorem coherent_failSend {s : SenderState} {index y rows : ℕ} {call : SendCall} {frame : Bytes}
    (message : String) (h : Coherent deflateRaw s) (hcall : s.calls[index]? = some call)
    (hstatus : call.status = .waiting y rows frame) :
    Coherent deflateRaw (failSend index call message s) := by
  have hkept : ({ call with status := .rejected message } : SendCall).raster = call.raster := rfl
  refine ⟨sound_set h trivial, ?_, ?_⟩
  · intro last hlast
    obtain ⟨old, hold, hraster⟩ := last_set hcall hkept hlast
    rw [hraster]
    exact h.shown old hold
  · intro hcomplete
    obtain ⟨last, hlast, hreturned⟩ := h.complete hcomplete
    exact ⟨last, returned_set hcall hstatus hlast hreturned, hreturned⟩

/-- A call that goes on keeps the status coherent, unless a later call is unfinished when it
returns. -/
theorem coherent_continueSend {s : SenderState} {index y rows : ℕ} {call : SendCall}
    {frame : Bytes} (h : Coherent deflateRaw s) (hcall : s.calls[index]? = some call)
    (hstatus : call.status = .waiting y rows frame)
    (hcondition : Unovertaken s (.settle index (.ok ()))) :
    Coherent deflateRaw (continueSend deflateRaw index call y rows frame s) := by
  have hmem : call ∈ s.calls := List.mem_of_getElem? hcall
  have hbound : index < s.calls.length := (List.getElem?_eq_some_iff.mp hcall).1
  have hkept : (call.handOver deflateRaw y rows frame).raster = call.raster := rfl
  refine ⟨sound_set h ((h.sound call hmem).handOver hstatus), ?_, ?_⟩
  · intro last hlast
    obtain ⟨old, hold, hraster⟩ := last_set hcall hkept hlast
    rw [hraster]
    unfold continueSend snapshotAfter concludedSnapshot
    dsimp only
    split <;> exact h.shown old hold
  · intro hcomplete
    unfold continueSend at hcomplete ⊢
    dsimp only at hcomplete ⊢
    by_cases hreturns : (call.handOver deflateRaw y rows frame).status = .returned
    · have hend : call.raster.height ≤ y + rows := height_le_of_returned hreturns
      have hwaits : waitsForLast s index = true := by
        unfold waitsForLast
        rw [hcall]
        dsimp only
        rw [hstatus]
        exact decide_eq_true hend
      rcases hcondition hwaits with hindex | hlater
      · refine ⟨call.handOver deflateRaw y rows frame, ?_, hreturns⟩
        rw [getLast?_set s.calls index _ hbound, if_pos hindex]
      · have hne : s.calls ≠ [] := List.ne_nil_of_mem hmem
        have hlast : s.calls.getLast? = some (s.calls.getLast hne) :=
          List.getLast?_eq_some_getLast hne
        have hreturned : (s.calls.getLast hne).status = .returned := by
          unfold lastReturned at hlater
          rw [hlast, Option.all_some, decide_eq_true_eq] at hlater
          exact hlater
        exact ⟨_, returned_set hcall hstatus hlast hreturned, hreturned⟩
    · unfold snapshotAfter at hcomplete
      rw [if_neg hreturns] at hcomplete
      obtain ⟨last, hlast, hreturned⟩ := h.complete hcomplete
      exact ⟨last, returned_set hcall hstatus hlast hreturned, hreturned⟩

/-- A datagram that is settled keeps the status coherent. -/
theorem coherent_settleSend {s : SenderState} {index : ℕ} {outcome : Except String Unit}
    (h : Coherent deflateRaw s) (hcondition : Unovertaken s (.settle index outcome)) :
    Coherent deflateRaw (settleSend deflateRaw index outcome s) := by
  unfold settleSend
  split
  · exact h
  · next call hcall =>
    split
    · next y rows frame hstatus =>
      cases outcome with
      | error message => exact coherent_failSend message h hcall hstatus
      | ok done => exact coherent_continueSend h hcall hstatus hcondition
    · exact h

/-- In every run of a sender in which no call hands over its last datagram while a later one is
unfinished, the status is truthful. -/
theorem status_truthful (deflateRaw : Bytes → Bytes) (inflateRaw : Bytes → ℕ → Option Bytes)
    (options : ImageTransferOptions) (events : List SenderEvent) (hrole : options.role = .a)
    (h : Along (step deflateRaw inflateRaw options) Unovertaken createSender events) :
    Truthful deflateRaw (run (step deflateRaw inflateRaw options) createSender events) := by
  have hcoherent : Coherent deflateRaw
      (run (step deflateRaw inflateRaw options) createSender events) := by
    refine invariant_along (step deflateRaw inflateRaw options) ?_ coherent_createSender h
    intro s e hcondition hs
    cases e with
    | send raster => exact coherent_beginSend raster hs
    | settle index outcome => exact coherent_settleSend hs hcondition
    | message frame address =>
      have hrefused : options.role ≠ .b ∨ address ≠ options.peerIpv6 := by
        left
        rw [hrole]
        decide
      have hsame : accept inflateRaw options s.transfer frame address = s.transfer := by
        unfold accept
        rw [if_pos hrefused]
      unfold step
      dsimp only
      rw [hsame]
      exact hs
    | close => exact ⟨hs.sound, hs.shown, hs.complete⟩
  exact hcoherent.truthful

end Sending

section Bench

open ImageCoverage

/-- A machine of the role A. -/
def benchSender : ImageTransferOptions := ⟨.a, "fd00::2"⟩

/-- A raster of one pixel. -/
def benchRaster (identifier : UInt8) : Raster :=
  ⟨List.replicate 8 identifier, 1, 1, [0, 0, 0, 255]⟩

/-- Two rasters are sent, one after the other. -/
def benchSends : List SenderEvent :=
  [.send (benchRaster 1), .settle 0 (.ok ()), .send (benchRaster 2), .settle 1 (.ok ())]

/-- The second one is shown complete. -/
theorem status_truthful_bench :
    let s := run (step storedBlock inflateStored benchSender) createSender benchSends
    s.transfer.snapshot.complete = true ∧
      s.transfer.snapshot.transferId = some (benchRaster 2).transferId ∧ Truthful storedBlock s :=
  ⟨by decide +kernel, by decide +kernel,
    status_truthful storedBlock inflateStored benchSender benchSends rfl (by decide +kernel)⟩

/-- The second call begins while the first one waits for its only datagram, which is handed over
then. -/
def overtakenSends : List SenderEvent :=
  [.send (benchRaster 1), .send (benchRaster 2), .settle 0 (.ok ())]

/-- The status calls the second transfer complete, of which nothing was handed over. -/
theorem not_truthful_overtaken :
    ¬Truthful storedBlock
      (run (step storedBlock inflateStored benchSender) createSender overtakenSends) := by
  intro h
  have hcalls : ∀ call ∈ (run (step storedBlock inflateStored benchSender) createSender
      overtakenSends).calls, call.raster.transferId = (benchRaster 2).transferId →
      call.raster = benchRaster 2 ∧ call.handed = [] := by
    decide +kernel
  have hshown : (run (step storedBlock inflateStored benchSender) createSender
      overtakenSends).transfer.snapshot.transferId = some (benchRaster 2).transferId := by
    decide +kernel
  obtain ⟨call, hmem, hid, -, -, hall⟩ := h (by decide +kernel)
  rw [hshown] at hid
  obtain ⟨hraster, hnone⟩ := hcalls call hmem (Option.some.inj hid).symm
  obtain ⟨rows, frame, hnext⟩ : ∃ rows frame, nextBand storedBlock (benchRaster 2) 0
      (min imageBandTargetRows ((benchRaster 2).height - 0)) = .ok (rows, frame) :=
    ⟨1, frameOf ((benchRaster 2).band 0 1) (storedBlock [0, 0, 0, 255]), by decide +kernel⟩
  unfold SendCall.AllHanded at hall
  rw [hraster, hnone, allBands_of_lt (by decide) hnext] at hall
  cases hall

end Bench

end Fipwave.ImageSends
