import Fipwave.FairRuns

/-!
# The transmission queue

Transmissions of a Quiet modem run one at a time. Every transmission waits for
the promise of the one enqueued before it, whichever way that settles, and
looks at the generation when its turn comes: a reset in between cancels it.
-/

namespace Fipwave.SerialTransmissions

open TransitionRun FairRuns

/-- Where a transmission stands. -/
inductive Status where
  /-- Its task has not been called. -/
  | waiting
  /-- The promise of its task is pending. -/
  | running
  /-- Its promise is settled. -/
  | settled (rejected : Bool)
  deriving DecidableEq, Repr

/-- An enqueued task and the promise returned for it. -/
structure Transmission where
  /-- Generation it was enqueued in. -/
  generation : ℕ
  /-- The promise it waits for; the first one waits for a resolved promise. -/
  ready : Option ℕ
  /-- Where it stands. -/
  status : Status := .waiting
  deriving DecidableEq, Repr

/-- The queue; transmissions are numbered as they are enqueued. -/
structure SerialTransmissionQueue where
  /-- Number of resets. -/
  generation : ℕ := 0
  /-- The promise returned last. -/
  tail : Option ℕ := none
  /-- Transmissions as they were enqueued. -/
  transmissions : List Transmission := []
  /-- Tasks called, oldest first; the queue does not read it. -/
  started : List ℕ := []
  deriving DecidableEq, Repr

/-- What happens to a queue. -/
inductive QueueEvent where
  /-- A task is enqueued. -/
  | enqueue
  /-- The queue is reset. -/
  | reset
  /-- The continuation of a transmission runs, if the promise it waits for is settled. -/
  | resume (index : ℕ)
  /-- The promise of a task settles. -/
  | settle (index : ℕ) (rejected : Bool)
  deriving DecidableEq, Repr

namespace SerialTransmissionQueue

/-- Status of a transmission. -/
def status (q : SerialTransmissionQueue) (index : ℕ) : Option Status :=
  (q.transmissions[index]?).map (·.status)

/-- The promise of a transmission is settled, either way. -/
def Settled (q : SerialTransmissionQueue) (index : ℕ) : Prop :=
  ∃ rejected, q.status index = some (.settled rejected)

instance (q : SerialTransmissionQueue) (index : ℕ) : Decidable (q.Settled index) :=
  decidable_of_iff (q.status index = some (.settled true) ∨ q.status index = some (.settled false))
    ⟨fun h => h.elim (fun h => ⟨true, h⟩) (fun h => ⟨false, h⟩),
      fun ⟨rejected, h⟩ => by cases rejected <;> simp [h]⟩

/-- The promise a transmission waits for is settled. -/
def Ready (q : SerialTransmissionQueue) (transmission : Transmission) : Prop :=
  ∀ index ∈ transmission.ready, q.Settled index

instance (q : SerialTransmissionQueue) (transmission : Transmission) :
    Decidable (q.Ready transmission) :=
  inferInstanceAs (Decidable (∀ index ∈ transmission.ready, q.Settled index))

/-- Write the status of a transmission. -/
def setStatus (q : SerialTransmissionQueue) (index : ℕ) (status : Status) :
    SerialTransmissionQueue :=
  { q with transmissions := q.transmissions.modify index ({ · with status }) }

/-- Enqueue a task behind the promise returned last. -/
def enqueue (q : SerialTransmissionQueue) : SerialTransmissionQueue :=
  { q with
    tail := some q.transmissions.length
    transmissions := q.transmissions ++ [{ generation := q.generation, ready := q.tail }] }

/-- Begin a new generation. -/
def reset (q : SerialTransmissionQueue) : SerialTransmissionQueue :=
  { q with generation := q.generation + 1 }

/-- The continuation of a transmission: throw after a reset, else call the task. -/
def resume (q : SerialTransmissionQueue) (index : ℕ) : SerialTransmissionQueue :=
  match q.transmissions[index]? with
  | none => q
  | some transmission =>
    if transmission.status = .waiting ∧ q.Ready transmission then
      if transmission.generation ≠ q.generation then q.setStatus index (.settled true)
      else { q.setStatus index .running with started := q.started ++ [index] }
    else q

/-- The promise of a running task settles. -/
def settle (q : SerialTransmissionQueue) (index : ℕ) (rejected : Bool) : SerialTransmissionQueue :=
  if q.status index = some .running then q.setStatus index (.settled rejected) else q

/-- One event. -/
def step (q : SerialTransmissionQueue) : QueueEvent → SerialTransmissionQueue
  | .enqueue => q.enqueue
  | .reset => q.reset
  | .resume index => q.resume index
  | .settle index rejected => q.settle index rejected

variable {q : SerialTransmissionQueue} {index : ℕ}

/-- A new status is that of one transmission. -/
theorem status_setStatus (q : SerialTransmissionQueue) (index other : ℕ) (status : Status) :
    (q.setStatus index status).status other =
      if index = other then (q.status other).map (fun _ => status) else q.status other := by
  unfold setStatus SerialTransmissionQueue.status
  rw [List.getElem?_modify]
  by_cases h : index = other
  · simp [h, Function.comp_def]
  · simp [h]

/-- A transmission that is added waits, behind all others. -/
theorem status_enqueue (q : SerialTransmissionQueue) (index : ℕ) :
    q.enqueue.status index =
      if index = q.transmissions.length then some .waiting else q.status index := by
  unfold enqueue SerialTransmissionQueue.status
  rcases Nat.lt_trichotomy index q.transmissions.length with hlt | heq | hgt
  · rw [List.getElem?_append_left hlt, if_neg (by omega)]
  · subst heq
    simp
  · have hnone : q.transmissions[index]? = none := List.getElem?_eq_none (by omega)
    have hlong : (q.transmissions ++
        [({ generation := q.generation, ready := q.tail } : Transmission)])[index]? = none := by
      rw [List.getElem?_eq_none]
      simp only [List.length_append, List.length_cons, List.length_nil]
      omega
    rw [hlong, hnone, if_neg (by omega)]

/-- What one event can do to a queue. -/
inductive Moved (q : SerialTransmissionQueue) : SerialTransmissionQueue → Prop
  /-- Nothing happens. -/
  | same : Moved q q
  /-- A transmission is enqueued. -/
  | enqueued : Moved q q.enqueue
  /-- The generation changes. -/
  | reset : Moved q q.reset
  /-- A transmission of an earlier generation is cancelled. -/
  | cancelled (index : ℕ) (transmission : Transmission)
      (hget : q.transmissions[index]? = some transmission)
      (hwaiting : transmission.status = .waiting) (hready : q.Ready transmission)
      (hstale : transmission.generation ≠ q.generation) :
      Moved q (q.setStatus index (.settled true))
  /-- A task is called. -/
  | started (index : ℕ) (transmission : Transmission)
      (hget : q.transmissions[index]? = some transmission)
      (hwaiting : transmission.status = .waiting) (hready : q.Ready transmission)
      (hcurrent : transmission.generation = q.generation) :
      Moved q { q.setStatus index .running with started := q.started ++ [index] }
  /-- The promise of a task settles. -/
  | settled (index : ℕ) (rejected : Bool) (hrunning : q.status index = some .running) :
      Moved q (q.setStatus index (.settled rejected))

/-- Every event moves the queue by one of its moves, or leaves it. -/
theorem step_moved (q : SerialTransmissionQueue) (event : QueueEvent) : Moved q (q.step event) := by
  cases event with
  | enqueue => exact .enqueued
  | reset => exact .reset
  | resume index =>
    simp only [step, resume]
    split
    · exact .same
    · next transmission hget =>
      split
      · next hturn =>
        split
        · next hstale => exact .cancelled index transmission hget hturn.1 hturn.2 hstale
        · next hcurrent =>
          exact .started index transmission hget hturn.1 hturn.2 (not_not.mp hcurrent)
      · exact .same
  | settle index rejected =>
    simp only [step, settle]
    split
    · next hrunning => exact .settled index rejected hrunning
    · exact .same

/-- The number before a number. -/
def previous : ℕ → Option ℕ
  | 0 => none
  | index + 1 => some index

/-- What holds of a queue at every moment. -/
structure Serial (q : SerialTransmissionQueue) : Prop where
  /-- Every transmission waits for the one before it. -/
  chain : ∀ index transmission, q.transmissions[index]? = some transmission →
    transmission.ready = previous index
  /-- The promise returned last is that of the last transmission. -/
  tail : q.tail = previous q.transmissions.length
  /-- No transmission is of a later generation. -/
  past : ∀ transmission ∈ q.transmissions, transmission.generation ≤ q.generation
  /-- Behind a transmission whose turn came everything is settled. -/
  front : ∀ index status, q.status index = some status → status ≠ .waiting →
    ∀ earlier < index, q.Settled earlier
  /-- A task that was called does not wait. -/
  called : ∀ index ∈ q.started, ∃ status, q.status index = some status ∧ status ≠ .waiting
  /-- Tasks were called in the order of their transmissions. -/
  order : q.started.Pairwise (· < ·)

/-- The status of a transmission is read off its place. -/
theorem status_of_get {transmission : Transmission}
    (h : q.transmissions[index]? = some transmission) :
    q.status index = some transmission.status := by
  unfold SerialTransmissionQueue.status
  rw [h]
  rfl

/-- A transmission with a status has a place. -/
theorem get_of_status {status : Status} (h : q.status index = some status) :
    ∃ transmission, q.transmissions[index]? = some transmission ∧ transmission.status = status := by
  obtain ⟨transmission, hget, hstatus⟩ := Option.map_eq_some_iff.mp h
  exact ⟨transmission, hget, hstatus⟩

/-- A transmission whose promise is settled stays as it is. -/
theorem settled_get {t : SerialTransmissionQueue} {transmission : Transmission} {rejected : Bool}
    (hmoved : Moved q t) (hget : q.transmissions[index]? = some transmission)
    (hsettled : transmission.status = .settled rejected) :
    t.transmissions[index]? = some transmission := by
  have hstatus := status_of_get hget
  have hother : ∀ other status, other ≠ index →
      (q.setStatus other status).transmissions[index]? = some transmission := by
    intro other status hne
    unfold SerialTransmissionQueue.setStatus
    rw [List.getElem?_modify, hget]
    simp [hne]
  have hwaits : ∀ other waiting, q.transmissions[other]? = some waiting →
      waiting.status = .waiting → other ≠ index := by
    rintro other waiting hwaitingGet hwaiting rfl
    rw [hget] at hwaitingGet
    cases hwaitingGet
    rw [hsettled] at hwaiting
    cases hwaiting
  cases hmoved with
  | same => exact hget
  | enqueued =>
    unfold enqueue
    dsimp only
    rw [List.getElem?_append_left (List.getElem?_eq_some_iff.mp hget).1]
    exact hget
  | reset => exact hget
  | cancelled other waiting hwaitingGet hwaiting =>
    exact hother other _ (hwaits other waiting hwaitingGet hwaiting)
  | started other waiting hwaitingGet hwaiting =>
    exact hother other _ (hwaits other waiting hwaitingGet hwaiting)
  | settled other _ hrunning =>
    refine hother other _ ?_
    rintro rfl
    rw [hstatus, hsettled] at hrunning
    cases hrunning

/-- A promise that is settled stays so. -/
theorem Settled.moved {t : SerialTransmissionQueue} (h : q.Settled index) (hmoved : Moved q t) :
    t.Settled index := by
  obtain ⟨rejected, hstatus⟩ := h
  obtain ⟨transmission, hget, hsettled⟩ := get_of_status hstatus
  refine ⟨rejected, ?_⟩
  rw [status_of_get (settled_get hmoved hget hsettled), hsettled]

/-- When the turn of a transmission comes, everything behind it is settled. -/
theorem Serial.settled_of_ready (h : Serial q) {transmission : Transmission}
    (hget : q.transmissions[index]? = some transmission) (hready : q.Ready transmission) :
    ∀ earlier < index, q.Settled earlier := by
  intro earlier hearlier
  cases index with
  | zero => omega
  | succ index =>
    have hchain : transmission.ready = some index := h.chain _ _ hget
    have hlast : q.Settled index := hready index hchain
    rcases Nat.lt_or_eq_of_le (Nat.le_of_lt_succ hearlier) with hlt | heq
    · obtain ⟨rejected, hstatus⟩ := hlast
      exact h.front index _ hstatus (by simp) earlier hlt
    · rw [heq]
      exact hlast

/-- Writing the status of the transmission whose turn it is. Everything earlier has settled, and
what waits behind it is untouched. -/
theorem Serial.setStatus (h : Serial q) {old : Status} {status : Status}
    (hold : q.status index = some old) (hnot : ∀ rejected, old ≠ .settled rejected)
    (hbehind : ∀ earlier < index, q.Settled earlier) (hstatus : status ≠ .waiting) :
    Serial (q.setStatus index status) := by
  have hsettled : ∀ other, q.Settled other → (q.setStatus index status).Settled other := by
    rintro other ⟨rejected, hother⟩
    refine ⟨rejected, ?_⟩
    rw [status_setStatus, if_neg, hother]
    rintro rfl
    rw [hold] at hother
    exact hnot rejected (Option.some.inj hother)
  refine ⟨?_, ?_, ?_, ?_, ?_, h.order⟩
  · intro other transmission hget
    obtain ⟨before, hbefore, hready⟩ : ∃ before, q.transmissions[other]? = some before ∧
        transmission.ready = before.ready := by
      unfold SerialTransmissionQueue.setStatus at hget
      rw [List.getElem?_modify] at hget
      obtain ⟨before, hbefore, heq⟩ := Option.map_eq_some_iff.mp hget
      refine ⟨before, hbefore, ?_⟩
      rw [← heq]
      split <;> rfl
    rw [hready]
    exact h.chain other before hbefore
  · have hlength : (q.setStatus index status).transmissions.length = q.transmissions.length := by
      unfold SerialTransmissionQueue.setStatus
      exact List.length_modify _ _ _
    rw [hlength]
    exact h.tail
  · intro transmission hmem
    obtain ⟨other, hget⟩ := List.mem_iff_getElem?.mp hmem
    unfold SerialTransmissionQueue.setStatus at hget
    rw [List.getElem?_modify] at hget
    obtain ⟨before, hbefore, heq⟩ := Option.map_eq_some_iff.mp hget
    have hpast := h.past before (List.mem_of_getElem? hbefore)
    rw [← heq]
    split <;> exact hpast
  · intro other written hwritten hne earlier hearlier
    refine hsettled earlier ?_
    rw [status_setStatus] at hwritten
    split at hwritten
    · next heq =>
      subst heq
      exact hbehind earlier hearlier
    · exact h.front other written hwritten hne earlier hearlier
  · intro other hmem
    obtain ⟨before, hbefore, hne⟩ := h.called other hmem
    rw [status_setStatus]
    split
    · rw [hbefore]
      exact ⟨status, rfl, hstatus⟩
    · exact ⟨before, hbefore, hne⟩

/-- A transmission that joins the queue leaves it serial: it waits for the tail, which is the one
enqueued before it. -/
theorem Serial.enqueue (h : Serial q) : Serial q.enqueue := by
  have hsettled : ∀ other, q.Settled other → q.enqueue.Settled other := fun other hother =>
    hother.moved .enqueued
  have hget : ∀ other transmission, q.enqueue.transmissions[other]? = some transmission →
      q.transmissions[other]? = some transmission ∨
        other = q.transmissions.length ∧ transmission = ⟨q.generation, q.tail, .waiting⟩ := by
    intro other transmission hget
    unfold SerialTransmissionQueue.enqueue at hget
    dsimp only at hget
    rcases Nat.lt_trichotomy other q.transmissions.length with hlt | heq | hgt
    · rw [List.getElem?_append_left hlt] at hget
      exact .inl hget
    · subst heq
      rw [List.getElem?_concat_length] at hget
      exact .inr ⟨rfl, (Option.some.inj hget).symm⟩
    · rw [List.getElem?_eq_none] at hget
      · cases hget
      · simp only [List.length_append, List.length_cons, List.length_nil]
        omega
  refine ⟨?_, ?_, ?_, ?_, ?_, h.order⟩
  · intro other transmission hother
    rcases hget other transmission hother with hold | ⟨rfl, rfl⟩
    · exact h.chain other transmission hold
    · exact h.tail
  · unfold SerialTransmissionQueue.enqueue
    simp [previous]
  · intro transmission hmem
    obtain ⟨other, hother⟩ := List.mem_iff_getElem?.mp hmem
    rcases hget other transmission hother with hold | ⟨-, rfl⟩
    · exact h.past transmission (List.mem_of_getElem? hold)
    · exact Nat.le_refl q.generation
  · intro other status hstatus hne earlier hearlier
    rw [status_enqueue] at hstatus
    split at hstatus
    · exact absurd (Option.some.inj hstatus).symm hne
    · exact hsettled earlier (h.front other status hstatus hne earlier hearlier)
  · intro other hmem
    obtain ⟨status, hstatus, hne⟩ := h.called other hmem
    refine ⟨status, ?_, hne⟩
    rw [status_enqueue, if_neg, hstatus]
    rintro rfl
    obtain ⟨transmission, hother, -⟩ := get_of_status hstatus
    rw [List.getElem?_eq_none (Nat.le_refl _)] at hother
    cases hother

/-- Every event keeps the queue serial. -/
theorem Serial.moved {t : SerialTransmissionQueue} (h : Serial q) (hmoved : Moved q t) :
    Serial t := by
  cases hmoved with
  | same => exact h
  | enqueued => exact h.enqueue
  | reset => exact ⟨h.chain, h.tail, fun t ht => Nat.le_succ_of_le (h.past t ht), h.front, h.called,
      h.order⟩
  | cancelled index transmission hget hwaiting hready =>
    have hstatus := status_of_get hget
    rw [hwaiting] at hstatus
    exact h.setStatus hstatus (by simp) (h.settled_of_ready hget hready) (by simp)
  | started index transmission hget hwaiting hready =>
    have hstatus := status_of_get hget
    rw [hwaiting] at hstatus
    have hset : Serial (q.setStatus index .running) :=
      h.setStatus hstatus (by simp) (h.settled_of_ready hget hready) (by simp)
    refine ⟨hset.chain, hset.tail, hset.past, hset.front, ?_, ?_⟩
    · intro other hmem
      rcases List.mem_append.mp hmem with hmem | hmem
      · exact hset.called other hmem
      · rw [List.mem_singleton.mp hmem]
        have hrunning : (q.setStatus index .running).status index = some .running := by
          rw [status_setStatus, if_pos rfl, hstatus]
          rfl
        exact ⟨.running, hrunning, by simp⟩
    · refine List.pairwise_append.mpr ⟨h.order, List.pairwise_singleton _ _, ?_⟩
      intro other hmem last hlast
      rw [List.mem_singleton.mp hlast]
      obtain ⟨status, hother, hne⟩ := h.called other hmem
      by_contra hbehind
      rcases Nat.lt_or_eq_of_le (Nat.le_of_not_lt hbehind) with hlt | heq
      · obtain ⟨rejected, hsettled⟩ := h.front other status hother hne index hlt
        rw [hstatus] at hsettled
        cases hsettled
      · rw [← heq, hstatus] at hother
        exact hne (Option.some.inj hother).symm
  | settled index rejected hrunning =>
    exact h.setStatus hrunning (by simp) (h.front index _ hrunning (by simp)) (by simp)

/-- A transmission that waits is left alone, called or cancelled. -/
theorem waiting_moved {t : SerialTransmissionQueue} {transmission : Transmission}
    (hmoved : Moved q t) (hget : q.transmissions[index]? = some transmission)
    (hwaiting : transmission.status = .waiting) :
    t.transmissions[index]? = some transmission ∨
      (transmission.generation = q.generation ∧ index ∈ t.started ∧
        t.status index = some .running) ∨
      (transmission.generation ≠ q.generation ∧ t.started = q.started ∧
        t.transmissions[index]? = some { transmission with status := .settled true }) := by
  have hstatus := status_of_get hget
  have hother : ∀ other status, other ≠ index →
      (q.setStatus other status).transmissions[index]? = some transmission := by
    intro other status hne
    unfold SerialTransmissionQueue.setStatus
    rw [List.getElem?_modify, hget]
    simp [hne]
  have hsame : ∀ status, (q.setStatus index status).transmissions[index]? =
      some { transmission with status } := by
    intro status
    unfold SerialTransmissionQueue.setStatus
    rw [List.getElem?_modify, hget]
    simp
  cases hmoved with
  | same => exact .inl hget
  | enqueued =>
    refine .inl ?_
    unfold enqueue
    dsimp only
    rw [List.getElem?_append_left (List.getElem?_eq_some_iff.mp hget).1]
    exact hget
  | reset => exact .inl hget
  | cancelled other stale hstale _ _ hgeneration =>
    by_cases heq : other = index
    · subst heq
      rw [hget] at hstale
      cases hstale
      exact .inr (.inr ⟨hgeneration, rfl, hsame _⟩)
    · exact .inl (hother other _ heq)
  | started other current hcurrent _ _ hgeneration =>
    by_cases heq : other = index
    · subst heq
      rw [hget] at hcurrent
      cases hcurrent
      refine .inr (.inl ⟨hgeneration, List.mem_append_right _ (List.mem_singleton.mpr rfl), ?_⟩)
      exact status_of_get (hsame .running)
    · exact .inl (hother other _ heq)
  | settled other rejected hrunning =>
    refine .inl (hother other _ ?_)
    rintro rfl
    rw [hstatus, hwaiting] at hrunning
    cases hrunning

/-- A task that is called waited, in the current generation. -/
theorem started_moved {t : SerialTransmissionQueue} (hmoved : Moved q t) (hmem : index ∈ t.started) :
    index ∈ q.started ∨ ∃ transmission, q.transmissions[index]? = some transmission ∧
      transmission.status = .waiting ∧ q.Ready transmission ∧
      transmission.generation = q.generation := by
  cases hmoved with
  | started other current hget hwaiting hready hcurrent =>
    rcases List.mem_append.mp hmem with hmem | hmem
    · exact .inl hmem
    · rw [List.mem_singleton.mp hmem]
      exact .inr ⟨current, hget, hwaiting, hready, hcurrent⟩
  | same => exact .inl hmem
  | enqueued => exact .inl hmem
  | reset => exact .inl hmem
  | cancelled => exact .inl hmem
  | settled => exact .inl hmem

/-- What was started stays on the record of starts. -/
theorem started_of_moved {t : SerialTransmissionQueue} (hmoved : Moved q t)
    (hmem : index ∈ q.started) : index ∈ t.started := by
  cases hmoved with
  | started => exact List.mem_append_left _ hmem
  | same => exact hmem
  | enqueued => exact hmem
  | reset => exact hmem
  | cancelled => exact hmem
  | settled => exact hmem

/-- A task that runs runs on until its promise settles. -/
theorem running_moved {t : SerialTransmissionQueue} (hmoved : Moved q t)
    (h : q.status index = some .running) : t.status index = some .running ∨ t.Settled index := by
  have hother : ∀ other status, other ≠ index →
      (q.setStatus other status).status index = some .running := by
    intro other status hne
    rw [status_setStatus, if_neg hne, h]
  cases hmoved with
  | same => exact .inl h
  | enqueued =>
    refine .inl ?_
    rw [status_enqueue, if_neg, h]
    rintro rfl
    obtain ⟨transmission, hget, -⟩ := get_of_status h
    rw [List.getElem?_eq_none (Nat.le_refl _)] at hget
    cases hget
  | reset => exact .inl h
  | cancelled other transmission hget hwaiting =>
    refine .inl (hother other _ ?_)
    rintro rfl
    rw [status_of_get hget, hwaiting] at h
    cases h
  | started other transmission hget hwaiting =>
    refine .inl (hother other _ ?_)
    rintro rfl
    rw [status_of_get hget, hwaiting] at h
    cases h
  | settled other rejected hrunning =>
    by_cases heq : other = index
    · subst heq
      refine .inr ⟨rejected, ?_⟩
      rw [status_setStatus, if_pos rfl, h]
      rfl
    · exact .inl (hother other _ heq)

/-- Only a reset begins a new generation. -/
theorem generation_step (q : SerialTransmissionQueue) {event : QueueEvent} (h : event ≠ .reset) :
    (q.step event).generation = q.generation := by
  cases event with
  | enqueue => rfl
  | reset => exact absurd rfl h
  | resume index =>
    simp only [step, resume]
    split
    · rfl
    · split
      · split <;> rfl
      · rfl
  | settle index rejected =>
    simp only [step, settle]
    split <;> rfl

/-- No move goes back to an older generation. -/
theorem generation_moved {t : SerialTransmissionQueue} (hmoved : Moved q t) :
    q.generation ≤ t.generation := by
  cases hmoved with
  | reset => exact Nat.le_succ q.generation
  | same => exact Nat.le_refl _
  | enqueued => exact Nat.le_refl _
  | cancelled => exact Nat.le_refl _
  | started => exact Nat.le_refl _
  | settled => exact Nat.le_refl _

/-- An empty queue is serial. -/
theorem serial_empty : Serial {} := by
  refine ⟨?_, rfl, ?_, ?_, ?_, List.Pairwise.nil⟩
  · intro index transmission hget
    cases hget
  · intro transmission hmem
    cases hmem
  · intro index status hstatus
    cases hstatus
  · intro index hmem
    cases hmem

end SerialTransmissionQueue

open SerialTransmissionQueue

/-- The queue at a moment. -/
def queueAt (schedule : ℕ → QueueEvent) (n : ℕ) : SerialTransmissionQueue :=
  stateAt SerialTransmissionQueue.step {} schedule n

/-- A transmission waits and the promise before it is settled. -/
def Due (index : ℕ) (q : SerialTransmissionQueue) : Prop :=
  ∃ transmission, q.transmissions[index]? = some transmission ∧ transmission.status = .waiting ∧
    q.Ready transmission

/-- Continuations run in the end, and the promises of tasks settle in the end. -/
structure Fair (schedule : ℕ → QueueEvent) : Prop where
  /-- A continuation that may run does. -/
  resumes : ∀ index, FairTo SerialTransmissionQueue.step {} schedule (Due index)
    (· = .resume index)
  /-- A task that was called comes to an end, either way. -/
  settles : ∀ index, FairTo SerialTransmissionQueue.step {} schedule
    (fun q => q.status index = some .running) (fun event => ∃ rejected, event = .settle index rejected)

/-- A transmission of the current generation waits. -/
def Pending (index : ℕ) (q : SerialTransmissionQueue) : Prop :=
  ∃ transmission, q.transmissions[index]? = some transmission ∧ transmission.status = .waiting ∧
    transmission.generation = q.generation

/-- A transmission of an earlier generation whose task was never called. -/
def Cancelled (index : ℕ) (q : SerialTransmissionQueue) : Prop :=
  index ∉ q.started ∧ ∃ transmission, q.transmissions[index]? = some transmission ∧
    transmission.generation < q.generation ∧
    (transmission.status = .waiting ∨ transmission.status = .settled true)

section Moments

variable {schedule : ℕ → QueueEvent} {index n m : ℕ}

/-- From one state of a schedule to the next there is one move. -/
theorem moved_next (schedule : ℕ → QueueEvent) (n : ℕ) :
    Moved (queueAt schedule n) (queueAt schedule (n + 1)) :=
  step_moved _ _

/-- The queue is serial at every time of every schedule. -/
theorem serial_at (schedule : ℕ → QueueEvent) (n : ℕ) : Serial (queueAt schedule n) :=
  stateAt_invariant _ _ _ serial_empty (fun q event h => h.moved (step_moved q event)) n

/-- A transmission that has settled stays so. -/
theorem settled_of_le (hle : n ≤ m) (h : (queueAt schedule n).Settled index) :
    (queueAt schedule m).Settled index :=
  stateAt_of_le (P := fun q : SerialTransmissionQueue => q.Settled index) hle
    (fun k _ hk => hk.moved (moved_next schedule k)) h

/-- A transmission that is due stays so until it runs or has settled. -/
theorem Due.moved {q t : SerialTransmissionQueue} (h : Due index q) (hmoved : Moved q t) :
    Due index t ∨ t.status index = some .running ∨ t.Settled index := by
  obtain ⟨transmission, hget, hwaiting, hready⟩ := h
  rcases waiting_moved hmoved hget hwaiting with hsame | ⟨-, -, hrunning⟩ | ⟨-, -, hcancelled⟩
  · exact .inl ⟨transmission, hsame, hwaiting, fun other hother => (hready other hother).moved hmoved⟩
  · exact .inr (.inl hrunning)
  · exact .inr (.inr ⟨true, status_of_get hcancelled⟩)

/-- A due continuation that runs leaves its transmission running or settled. -/
theorem Due.resume {q : SerialTransmissionQueue} (h : Due index q) :
    (q.resume index).status index = some .running ∨ (q.resume index).Settled index := by
  obtain ⟨transmission, hget, hwaiting, hready⟩ := h
  unfold SerialTransmissionQueue.resume
  rw [hget]
  dsimp only
  rw [if_pos ⟨hwaiting, hready⟩]
  have hstatus := status_of_get hget
  split
  · refine .inr ⟨true, ?_⟩
    rw [status_setStatus, if_pos rfl, hstatus]
    rfl
  · refine .inl ?_
    change (q.setStatus index .running).status index = some .running
    rw [status_setStatus, if_pos rfl, hstatus]
    rfl

/-- A transmission that has joined the queue is never forgotten. -/
theorem entered_moved {q t : SerialTransmissionQueue} (hmoved : Moved q t)
    (h : q.status index ≠ none) : t.status index ≠ none := by
  have hwritten : ∀ other status, (q.setStatus other status).status index ≠ none := by
    intro other status
    rw [status_setStatus]
    split
    · rwa [ne_eq, Option.map_eq_none_iff]
    · exact h
  cases hmoved with
  | same => exact h
  | enqueued =>
    rw [status_enqueue]
    split
    · simp
    · exact h
  | reset => exact h
  | cancelled => exact hwritten _ _
  | started => exact hwritten _ _
  | settled => exact hwritten _ _

/-- A transmission stays enqueued. -/
theorem entered_of_le (hle : n ≤ m) (h : (queueAt schedule n).status index ≠ none) :
    (queueAt schedule m).status index ≠ none :=
  stateAt_of_le (P := fun q : SerialTransmissionQueue => q.status index ≠ none) hle
    (fun k _ hk => entered_moved (moved_next schedule k) hk) h

/-- Under a fair schedule a running task comes to an end. -/
theorem settles_of_running (hfair : Fair schedule)
    (h : (queueAt schedule n).status index = some .running) :
    ∃ m, n ≤ m ∧ (queueAt schedule m).Settled index := by
  refine (hfair.settles index).leave (P := fun q => q.status index = some .running)
    (Q := fun q => q.Settled index) (fun m _ hm => running_moved (moved_next schedule m) hm)
    (fun _ h => h) ?_ h
  rintro q event hstatus ⟨rejected, rfl⟩
  refine ⟨rejected, ?_⟩
  simp only [step, settle, if_pos hstatus]
  rw [status_setStatus, if_pos rfl, hstatus]
  rfl

/-- Under a fair schedule a due transmission is called or cancelled, and settles. -/
theorem settles_of_due (hfair : Fair schedule) (h : Due index (queueAt schedule n)) :
    ∃ m, n ≤ m ∧ (queueAt schedule m).Settled index := by
  obtain ⟨m, hm, hleft⟩ := (hfair.resumes index).leave
    (Q := fun q => q.status index = some .running ∨ q.Settled index)
    (fun m _ hm => hm.moved (moved_next schedule m)) (fun _ h => h)
    (fun q event hq hevent => by
      rw [hevent]
      exact hq.resume) h
  rcases hleft with hrunning | hsettled
  · obtain ⟨last, hlast, hsettled⟩ := settles_of_running hfair hrunning
    exact ⟨last, by omega, hsettled⟩
  · exact ⟨m, hm, hsettled⟩

/-- Once the promise before it is settled, a transmission settles. -/
theorem settles_of_previous (hfair : Fair schedule)
    (hentered : (queueAt schedule n).status index ≠ none)
    (hprevious : ∀ earlier ∈ previous index, (queueAt schedule n).Settled earlier) :
    ∃ m, n ≤ m ∧ (queueAt schedule m).Settled index := by
  obtain ⟨status, hstatus⟩ := Option.ne_none_iff_exists'.mp hentered
  obtain ⟨transmission, hget, heq⟩ := get_of_status hstatus
  cases status with
  | waiting =>
    refine settles_of_due hfair ⟨transmission, hget, heq, fun earlier hearlier => ?_⟩
    rw [(serial_at schedule n).chain index transmission hget] at hearlier
    exact hprevious earlier hearlier
  | running => exact settles_of_running hfair hstatus
  | settled rejected => exact ⟨n, Nat.le_refl n, rejected, hstatus⟩

/-- Under a fair schedule every promise settles. -/
theorem settles_at (hfair : Fair schedule) (hentered : (queueAt schedule n).status index ≠ none) :
    ∃ m, n ≤ m ∧ (queueAt schedule m).Settled index := by
  induction index with
  | zero => exact settles_of_previous hfair hentered (fun earlier hearlier => by cases hearlier)
  | succ index ih =>
    have hbefore : (queueAt schedule n).status index ≠ none := by
      obtain ⟨status, hstatus⟩ := Option.ne_none_iff_exists'.mp hentered
      obtain ⟨transmission, hget, -⟩ := get_of_status hstatus
      have hlength := (List.getElem?_eq_some_iff.mp hget).1
      have hfirst := List.getElem?_eq_getElem (Nat.lt_of_succ_lt hlength)
      rw [status_of_get hfirst]
      simp
    obtain ⟨k, hk, hsettled⟩ := ih hbefore
    obtain ⟨m, hm, hdone⟩ := settles_of_previous hfair (entered_of_le hk hentered)
      (fun earlier hearlier => by
        cases hearlier
        exact hsettled)
    exact ⟨m, by omega, hdone⟩

/-- What waits in the current generation is started, unless it is reset. -/
theorem pending_moved {q t : SerialTransmissionQueue} (hmoved : Moved q t)
    (hgeneration : t.generation = q.generation) (h : Pending index q ∨ index ∈ q.started) :
    Pending index t ∨ index ∈ t.started := by
  rcases h with ⟨transmission, hget, hwaiting, hcurrent⟩ | hstarted
  · rcases waiting_moved hmoved hget hwaiting with hsame | ⟨-, hmem, -⟩ | ⟨hstale, -, -⟩
    · exact .inl ⟨transmission, hsame, hwaiting, by rw [hgeneration, hcurrent]⟩
    · exact .inr hmem
    · exact absurd hcurrent hstale
  · exact .inr (started_of_moved hmoved hstarted)

/-- Under a fair schedule without further resets what waits is started. -/
theorem starts_at (hfair : Fair schedule) (hpending : Pending index (queueAt schedule n))
    (hreset : ∀ m, n ≤ m → schedule m ≠ .reset) : ∃ m, n ≤ m ∧ index ∈ (queueAt schedule m).started := by
  have hnext : ∀ m, n ≤ m →
      (queueAt schedule (m + 1)).generation = (queueAt schedule m).generation :=
    fun m hm => generation_step _ (hreset m hm)
  have hentered : (queueAt schedule n).status index ≠ none := by
    obtain ⟨transmission, hget, -⟩ := hpending
    rw [status_of_get hget]
    simp
  obtain ⟨m, hm, rejected, hsettled⟩ := settles_at hfair hentered
  have hlast : Pending index (queueAt schedule m) ∨ index ∈ (queueAt schedule m).started :=
    stateAt_of_le (P := fun q => Pending index q ∨ index ∈ q.started) hm
      (fun k hk h => pending_moved (moved_next schedule k) (hnext k hk) h) (.inl hpending)
  rcases hlast with ⟨transmission, hget, hwaiting, -⟩ | hstarted
  · rw [status_of_get hget, hwaiting] at hsettled
    cases hsettled
  · exact ⟨m, hm, hstarted⟩

/-- A reset cancels what waits. -/
theorem cancelled_of_reset {q : SerialTransmissionQueue} (hserial : Serial q)
    (h : q.status index = some .waiting) : Cancelled index q.reset := by
  obtain ⟨transmission, hget, hwaiting⟩ := get_of_status h
  refine ⟨?_, transmission, hget, ?_, .inl hwaiting⟩
  · intro hmem
    obtain ⟨status, hstatus, hne⟩ := hserial.called index hmem
    rw [h] at hstatus
    exact hne (Option.some.inj hstatus).symm
  · exact Nat.lt_succ_of_le (hserial.past transmission (List.mem_of_getElem? hget))

/-- What is cancelled stays so. -/
theorem Cancelled.moved {q t : SerialTransmissionQueue} (h : Cancelled index q)
    (hmoved : Moved q t) : Cancelled index t := by
  obtain ⟨hnot, transmission, hget, hstale, hstatus⟩ := h
  have hgeneration := generation_moved hmoved
  have hunstarted : index ∉ t.started := by
    intro hmem
    rcases started_moved hmoved hmem with hbefore | ⟨other, hother, -, -, hcurrent⟩
    · exact hnot hbefore
    · rw [hget] at hother
      cases hother
      omega
  rcases hstatus with hwaiting | hsettled
  · rcases waiting_moved hmoved hget hwaiting with hsame | ⟨hcurrent, -, -⟩ | ⟨-, -, hcancelled⟩
    · exact ⟨hunstarted, transmission, hsame, by omega, .inl hwaiting⟩
    · omega
    · exact ⟨hunstarted, _, hcancelled, by dsimp only; omega, .inr rfl⟩
  · have hsame := settled_get hmoved hget hsettled
    exact ⟨hunstarted, transmission, hsame, by omega, .inr hsettled⟩

/-- A transmission that was cancelled stays so. -/
theorem cancelled_of_le (hle : n ≤ m) (h : Cancelled index (queueAt schedule n)) :
    Cancelled index (queueAt schedule m) :=
  stateAt_of_le (P := Cancelled index) hle (fun k _ hk => hk.moved (moved_next schedule k)) h

/-- A transmission that waits when the queue is reset is cancelled from then on. -/
theorem cancelled_after (hreset : schedule n = .reset)
    (h : (queueAt schedule n).status index = some .waiting) (hle : n < m) :
    Cancelled index (queueAt schedule m) := by
  have hnext : queueAt schedule (n + 1) = (queueAt schedule n).reset := by
    change SerialTransmissionQueue.step (queueAt schedule n) (schedule n) = _
    rw [hreset]
    rfl
  refine cancelled_of_le (n := n + 1) hle ?_
  rw [hnext]
  exact cancelled_of_reset (serial_at schedule n) h

end Moments

/-- Tasks start in the order they were enqueued in, none before those started
earlier have settled. A task starts whichever way the tasks before it settle,
unless the queue is reset first; then it never starts and its promise rejects. -/
theorem serial_transmissions (schedule : ℕ → QueueEvent) :
    (∀ n, (queueAt schedule n).started.Pairwise (· < ·)) ∧
    (∀ n index, index ∈ (queueAt schedule (n + 1)).started →
      index ∉ (queueAt schedule n).started →
      ∀ earlier ∈ (queueAt schedule n).started, (queueAt schedule n).Settled earlier) ∧
    (Fair schedule → ∀ n index, Pending index (queueAt schedule n) →
      (∀ m, n ≤ m → schedule m ≠ .reset) → ∃ m, n ≤ m ∧ index ∈ (queueAt schedule m).started) ∧
    (∀ n index, schedule n = .reset → (queueAt schedule n).status index = some .waiting →
      (∀ m, index ∉ (queueAt schedule m).started) ∧
      (∀ m rejected, (queueAt schedule m).status index = some (.settled rejected) →
        rejected = true) ∧
      (Fair schedule → ∃ m, (queueAt schedule m).status index = some (.settled true))) := by
  refine ⟨fun n => (serial_at schedule n).order, ?_, ?_, ?_⟩
  · intro n index hafter hbefore earlier hearlier
    have hserial := serial_at schedule n
    have hnext := serial_at schedule (n + 1)
    rcases started_moved (moved_next schedule n) hafter with
      hmem | ⟨transmission, hget, hwaiting, hready, -⟩
    · exact absurd hmem hbefore
    · refine hserial.settled_of_ready hget hready earlier ?_
      obtain ⟨status, hstatus, hne⟩ := hserial.called earlier hearlier
      by_contra hbehind
      rcases Nat.lt_or_eq_of_le (Nat.le_of_not_lt hbehind) with hlt | heq
      · obtain ⟨rejected, hsettled⟩ := hserial.front earlier status hstatus hne index hlt
        rw [status_of_get hget, hwaiting] at hsettled
        cases hsettled
      · rw [← heq, status_of_get hget, hwaiting] at hstatus
        exact hne (Option.some.inj hstatus).symm
  · intro hfair n index hpending hreset
    exact starts_at hfair hpending hreset
  · intro n index hreset hwaiting
    have hstart : ∀ m, index ∉ (queueAt schedule m).started ∧ ∀ rejected,
        (queueAt schedule m).status index = some (.settled rejected) → rejected = true := by
      intro m
      rcases Nat.lt_or_ge n m with hlt | hge
      · obtain ⟨hnot, transmission, hget, -, hstatus⟩ := cancelled_after hreset hwaiting hlt
        refine ⟨hnot, fun rejected hsettled => ?_⟩
        rw [status_of_get hget] at hsettled
        rcases hstatus with hstill | hcancelled
        · rw [hstill] at hsettled
          cases hsettled
        · rw [hcancelled] at hsettled
          cases hsettled
          rfl
      · refine ⟨fun hmem => ?_, fun rejected hsettled => ?_⟩
        · have hlater : index ∈ (queueAt schedule n).started :=
            stateAt_of_le (P := fun q : SerialTransmissionQueue => index ∈ q.started) hge
              (fun k _ hk => started_of_moved (moved_next schedule k) hk) hmem
          obtain ⟨status, hstatus, hne⟩ := (serial_at schedule n).called index hlater
          rw [hwaiting] at hstatus
          exact hne (Option.some.inj hstatus).symm
        · obtain ⟨later, hlater⟩ := settled_of_le hge ⟨rejected, hsettled⟩
          rw [hwaiting] at hlater
          cases hlater
    refine ⟨fun m => (hstart m).1, fun m => (hstart m).2, fun hfair => ?_⟩
    have hentered : (queueAt schedule n).status index ≠ none := by
      rw [hwaiting]
      simp
    obtain ⟨m, -, rejected, hsettled⟩ := settles_at hfair hentered
    have htrue := (hstart m).2 rejected hsettled
    rw [htrue] at hsettled
    exact ⟨m, hsettled⟩

/-- A transmission that fails, one that is cancelled behind it, and one enqueued after the reset. -/
def benchEvents : List QueueEvent :=
  [.enqueue, .enqueue, .resume 0, .reset, .settle 0 true, .enqueue, .resume 1, .resume 2,
    .settle 2 true]

/-- The bench events, and then nothing. -/
def benchSchedule (n : ℕ) : QueueEvent := benchEvents.getD n (.resume 0)

/-- From its ninth event on the schedule resumes what is there. -/
theorem benchSchedule_last {n : ℕ} (h : 9 ≤ n) : benchSchedule n = .resume 0 := by
  have hnone : benchEvents[n]? = none := List.getElem?_eq_none h
  rw [benchSchedule, List.getD_eq_getElem?_getD, hnone]
  rfl

/-- Then nothing is left to be resumed. -/
theorem benchSchedule_end {n : ℕ} (h : 9 ≤ n) : queueAt benchSchedule n = queueAt benchSchedule 9 := by
  refine stateAt_of_le (P := fun q => q = queueAt benchSchedule 9) h (fun k hk heq => ?_) rfl
  have hlast := benchSchedule_last hk
  change SerialTransmissionQueue.step (queueAt benchSchedule k) (benchSchedule k) = _
  rw [hlast]
  change stateAt SerialTransmissionQueue.step {} benchSchedule k = _ at heq
  rw [queueAt, heq]
  decide

/-- The schedule of the example is fair. -/
theorem benchSchedule_fair : Fair benchSchedule := by
  have hover : ∀ transmission ∈ (queueAt benchSchedule 9).transmissions,
      transmission.status ≠ .waiting ∧ transmission.status ≠ .running := by decide
  constructor
  · intro index n h
    obtain ⟨transmission, hget, hwaiting, -⟩ := h (max n 9) (Nat.le_max_left n 9)
    have hend := benchSchedule_end (Nat.le_max_right n 9)
    rw [queueAt] at hend
    rw [hend] at hget
    exact absurd hwaiting (hover transmission (List.mem_of_getElem? hget)).1
  · intro index n h
    have hrunning := h (max n 9) (Nat.le_max_left n 9)
    have hend := benchSchedule_end (Nat.le_max_right n 9)
    rw [queueAt] at hend
    rw [hend] at hrunning
    obtain ⟨transmission, hget, hstatus⟩ := get_of_status hrunning
    exact absurd hstatus (hover transmission (List.mem_of_getElem? hget)).2

/-- It does not reset after its sixth event. -/
theorem benchSchedule_noReset {m : ℕ} (h : 6 ≤ m) : benchSchedule m ≠ .reset := by
  rcases Nat.lt_or_ge m 9 with hlt | hge
  · interval_cases m <;> decide
  · rw [benchSchedule_last hge]
    simp

/-- On the bench the third task starts and the second never does. -/
theorem serial_transmissions_bench :
    (∃ m, 6 ≤ m ∧ 2 ∈ (queueAt benchSchedule m).started) ∧
      (∀ m, 1 ∉ (queueAt benchSchedule m).started) ∧
      ∃ m, (queueAt benchSchedule m).status 1 = some (.settled true) := by
  obtain ⟨-, -, hstarts, hcancels⟩ := serial_transmissions benchSchedule
  have hcancelled := hcancels 3 1 rfl (by decide)
  refine ⟨hstarts benchSchedule_fair 6 2 ?_ (fun m hm => benchSchedule_noReset hm),
    hcancelled.1, hcancelled.2.2 benchSchedule_fair⟩
  exact ⟨⟨1, some 1, .waiting⟩, by decide, rfl, by decide⟩

end Fipwave.SerialTransmissions
