import Fipwave.TransitionRun

/-!
# The authenticated sender of an image

A poll asks whether the peer is ready; the image is sent when the peer has
become ready, and again after a failure while it stays ready. One attempt runs
at a time and arms the timer of the next one. Sends never overlap, a
successful one is followed by another only after the peer was not ready, and
the polls go on until the sender is closed. A poll that was in flight when the
sender was closed is not told: it may still begin a send.
-/

namespace Fipwave.AuthenticatedSender

open TransitionRun

/-- How a poll ends. -/
inductive PollAnswer where
  | ready | notReady | rejected
  deriving DecidableEq, Repr

/-- What an attempt waits for. -/
inductive Attempt where
  | polling | sending
  deriving DecidableEq, Repr

/-- What happened, as far as the rules of a sender speak of it; nothing in the sender reads it. -/
inductive Entry where
  | answered (answer : PollAnswer)
  | sendStarted
  | sendSucceeded
  | sendFailed
  | closed
  deriving DecidableEq, Repr

/-- The variables of a sender, and its attempts in flight. -/
structure ImageSender where
  /-- Delay between attempts. -/
  retryMs : ℕ
  /-- It was closed. -/
  closed : Bool := false
  /-- It has sent. -/
  sentOnce : Bool := false
  /-- The peer was ready at the last poll that was answered. -/
  peerWasReady : Bool := false
  /-- The image is to be sent. -/
  sendNeeded : Bool := true
  /-- An attempt runs. -/
  running : Bool := false
  /-- Delay of the timer, while it is armed. -/
  timer : Option ℕ := none
  /-- Attempts that wait for something. -/
  attempts : List Attempt := []
  /-- What happened, oldest first. -/
  log : List Entry := []
  deriving DecidableEq, Repr

/-- Arm the timer of the next attempt. -/
def schedule (delay : ℕ) (s : ImageSender) : ImageSender :=
  if s.closed ∨ s.timer ≠ none then s else { s with timer := some delay }

/-- Largest delay between attempts. -/
def maxRetryMs : ℕ := 60000

/-- Start a sender. -/
def startAuthenticatedImageSender (retryMs : Option ℕ) : Except String ImageSender :=
  let retryMs := retryMs.getD 1500
  if retryMs < 1 ∨ retryMs > maxRetryMs then .error "image_retry_invalid"
  else .ok (schedule 0 { retryMs })

/-- Begin an attempt. -/
def attempt (s : ImageSender) : ImageSender :=
  if s.closed ∨ s.running then s
  else { s with running := true, attempts := s.attempts ++ [.polling] }

/-- The timer fires. -/
def fireTimer (s : ImageSender) : ImageSender :=
  match s.timer with
  | none => s
  | some _ => attempt { s with timer := none }

/-- The end of an attempt. -/
def finish (index : ℕ) (s : ImageSender) : ImageSender :=
  let s := { s with running := false, attempts := s.attempts.eraseIdx index }
  if s.closed then s else schedule s.retryMs s

/-- What an answer that arrives says of the peer. -/
def noteAnswer (answer : PollAnswer) (s : ImageSender) : ImageSender :=
  let s := { s with log := s.log ++ [.answered answer] }
  match answer with
  | .ready => { s with sendNeeded := s.sendNeeded || !s.peerWasReady, peerWasReady := true }
  | .notReady => { s with peerWasReady := false, sendNeeded := true }
  | .rejected => s

/-- A poll is answered. -/
def settlePoll (index : ℕ) (answer : PollAnswer) (s : ImageSender) : ImageSender :=
  if s.attempts[index]? = some .polling then
    let s := noteAnswer answer s
    if answer = .ready ∧ s.sendNeeded then
      { s with attempts := s.attempts.set index .sending, log := s.log ++ [.sendStarted] }
    else finish index s
  else s

/-- A send settles. -/
def settleSend (index : ℕ) (succeeded : Bool) (s : ImageSender) : ImageSender :=
  if s.attempts[index]? = some .sending then
    if succeeded then
      finish index { s with
        sendNeeded := false
        sentOnce := true
        log := s.log ++ [.sendSucceeded] }
    else finish index { s with log := s.log ++ [.sendFailed] }
  else s

/-- Close the sender. -/
def close (s : ImageSender) : ImageSender :=
  { s with closed := true, timer := none, log := s.log ++ [.closed] }

/-- What happens to a sender. -/
inductive SenderEvent where
  | timer
  | poll (index : ℕ) (answer : PollAnswer)
  | send (index : ℕ) (succeeded : Bool)
  | close
  deriving DecidableEq, Repr

/-- One event. -/
def step (s : ImageSender) : SenderEvent → ImageSender
  | .timer => fireTimer s
  | .poll index answer => settlePoll index answer s
  | .send index succeeded => settleSend index succeeded s
  | .close => close s

/-- What the rules of a sender say of a state and of what happened before it. -/
structure Disciplined (s : ImageSender) : Prop where
  /-- Sends never overlap. -/
  single : s.attempts.count .sending ≤ 1
  /-- Between two successful sends a poll found the peer not ready. -/
  between : ∀ front middle back,
    s.log = front ++ .sendSucceeded :: (middle ++ .sendSucceeded :: back) →
    .answered .notReady ∈ middle
  /-- After a failed send, every poll that finds the peer ready begins a send, until one succeeds
  or the sender is closed. -/
  retried : ∀ front middle back,
    s.log = front ++ .sendFailed :: (middle ++ .answered .ready :: back) →
    .sendSucceeded ∈ middle ∨ .closed ∈ front ++ middle ∨ back.head? = some .sendStarted
  /-- Until the sender is closed, an attempt runs or the next one is due. -/
  polling : s.closed = false → s.attempts ≠ [] ∨ s.timer ≠ none
  /-- After the sender was closed no send begins. -/
  silent : ∀ front back, s.log = front ++ .closed :: back → .sendStarted ∉ back

/-- The event begins a send of a sender that was closed: a poll in flight finds the peer ready, and
a send is due. -/
def SendsClosed (s : ImageSender) (event : SenderEvent) : Prop :=
  s.closed = true ∧ (s.sendNeeded = true ∨ s.peerWasReady = false) ∧
    ∃ index, s.attempts[index]? = some .polling ∧ event = .poll index .ready


section Moves

variable {s t : ImageSender} {event : SenderEvent}

/-- The attempts of a sender and its timer. -/
structure Steady (s : ImageSender) : Prop where
  /-- At most one attempt is in flight. -/
  attempts : s.attempts = [] ∨ s.attempts = [.polling] ∨ s.attempts = [.sending]
  /-- The flag tells whether one is. -/
  running : s.running = true ↔ s.attempts ≠ []
  /-- The timer is not armed while one is. -/
  idle : s.attempts ≠ [] → s.timer = none
  /-- It is not armed once the sender was closed. -/
  closed : s.closed = true → s.timer = none
  /-- Before that an attempt is in flight or due. -/
  polling : s.closed = false → s.attempts ≠ [] ∨ s.timer ≠ none
  /-- A send is due while it is in flight. -/
  sending : s.attempts = [.sending] → s.sendNeeded = true ∧ s.peerWasReady = true

/-- The timer after an attempt. -/
def nextTimer (s : ImageSender) : Option ℕ := if s.closed then none else some s.retryMs

/-- The sender after its attempt. -/
def ended (s : ImageSender) : ImageSender :=
  { s with running := false, attempts := [], timer := nextTimer s }

/-- What an event does to a sender. -/
inductive Moved (s : ImageSender) : SenderEvent → ImageSender → Prop
  /-- Nothing is there that it could concern. -/
  | nothing (event : SenderEvent) : Moved s event s
  /-- An attempt begins. -/
  | begins (hidle : s.attempts = []) :
      Moved s .timer { s with timer := none, running := true, attempts := [.polling] }
  /-- The peer is not ready. -/
  | notReady (index : ℕ) (hpoll : s.attempts = [.polling]) :
      Moved s (.poll index .notReady) (ended { s with
        peerWasReady := false, sendNeeded := true, log := s.log ++ [.answered .notReady] })
  /-- The poll fails. -/
  | rejected (index : ℕ) (hpoll : s.attempts = [.polling]) :
      Moved s (.poll index .rejected) (ended { s with log := s.log ++ [.answered .rejected] })
  /-- The peer is still ready, and no send is due. -/
  | still (index : ℕ) (hpoll : s.attempts = [.polling]) (hsent : s.sendNeeded = false)
      (hready : s.peerWasReady = true) :
      Moved s (.poll index .ready) (ended { s with log := s.log ++ [.answered .ready] })
  /-- The peer is ready, and a send begins. -/
  | starts (hpoll : s.attempts = [.polling])
      (hdue : s.sendNeeded = true ∨ s.peerWasReady = false) :
      Moved s (.poll 0 .ready) { s with
        peerWasReady := true, sendNeeded := true, attempts := [.sending]
        log := s.log ++ [.answered .ready] ++ [.sendStarted] }
  /-- The send succeeds. -/
  | succeeds (index : ℕ) (hsend : s.attempts = [.sending]) :
      Moved s (.send index true) (ended { s with
        sendNeeded := false, sentOnce := true, log := s.log ++ [.sendSucceeded] })
  /-- The send fails. -/
  | fails (index : ℕ) (hsend : s.attempts = [.sending]) :
      Moved s (.send index false) (ended { s with log := s.log ++ [.sendFailed] })
  /-- The sender is closed. -/
  | closes : Moved s .close (close s)

/-- An attempt that is waited for is the only one. -/
theorem Steady.only (h : Steady s) {index : ℕ} {waiting : Attempt}
    (hwaiting : s.attempts[index]? = some waiting) : index = 0 ∧ s.attempts = [waiting] := by
  rcases h.attempts with hone | hone | hone <;> rw [hone] at hwaiting ⊢
  · cases hwaiting
  · cases index with
    | zero => exact ⟨rfl, by cases hwaiting; rfl⟩
    | succ index => cases hwaiting
  · cases index with
    | zero => exact ⟨rfl, by cases hwaiting; rfl⟩
    | succ index => cases hwaiting

/-- A move that ends the only attempt may be finished with the next one. -/
theorem Moved.finish {waiting : Attempt} (h : Moved s event (ended t))
    (hattempts : t.attempts = [waiting]) (htimer : t.timer = none) :
    Moved s event (finish 0 t) := by
  have hend : AuthenticatedSender.finish 0 t = ended t := by
    unfold AuthenticatedSender.finish ended nextTimer schedule
    dsimp only
    rw [hattempts, htimer]
    cases t.closed <;> rfl
  rw [hend]
  exact h

/-- Every event is one of the sender's moves, or does nothing: a poll or a send that is no longer in
flight, and a timer that is not armed. -/
theorem Steady.step (h : Steady s) (event : SenderEvent) : Moved s event (step s event) := by
  cases event with
  | timer =>
    change Moved s .timer (fireTimer s)
    unfold fireTimer
    cases htimer : s.timer with
    | none => exact .nothing _
    | some delay =>
      have hnone : s.attempts = [] := by
        by_contra hsome
        rw [h.idle hsome] at htimer
        cases htimer
      have hopen : s.closed = false := by
        by_contra hclosed
        rw [h.closed (Bool.not_eq_false _ ▸ hclosed)] at htimer
        cases htimer
      have hstopped : s.running = false := by
        by_contra hrunning
        exact (h.running.mp (Bool.not_eq_false _ ▸ hrunning)) hnone
      have hbegins := Moved.begins (s := s) hnone
      unfold attempt
      dsimp only
      rw [hopen, hstopped, hnone, if_neg (by decide)]
      rw [hopen] at hbegins
      exact hbegins
  | poll index answer =>
    change Moved s (.poll index answer) (settlePoll index answer s)
    unfold settlePoll
    split
    · next hwaiting =>
      obtain ⟨rfl, hpoll⟩ := h.only hwaiting
      have htimer : s.timer = none := h.idle (by rw [hpoll]; exact List.cons_ne_nil _ _)
      cases answer with
      | ready =>
        by_cases hdue : s.sendNeeded = true ∨ s.peerWasReady = false
        · have hneeded : (s.sendNeeded || !s.peerWasReady) = true := by
            rcases hdue with hneeded | hfirst
            · rw [hneeded]
              rfl
            · rw [hfirst, Bool.not_false, Bool.or_true]
          have hstarts := Moved.starts hpoll hdue
          unfold noteAnswer
          dsimp only
          rw [hneeded, hpoll]
          exact hstarts
        · simp only [not_or, Bool.not_eq_true, Bool.not_eq_false] at hdue
          have hsame : (s.sendNeeded || !s.peerWasReady) = false := by
            rw [hdue.1, hdue.2]
            rfl
          have hstill := Moved.still 0 hpoll hdue.1 hdue.2
          unfold noteAnswer
          dsimp only
          rw [hsame, if_neg (by simp)]
          rw [hdue.1, hdue.2] at hstill
          exact hstill.finish hpoll htimer
      | notReady =>
        have hnot := Moved.notReady 0 hpoll
        unfold noteAnswer
        dsimp only
        rw [if_neg (by simp)]
        exact hnot.finish hpoll htimer
      | rejected =>
        have hrejected := Moved.rejected 0 hpoll
        unfold noteAnswer
        dsimp only
        rw [if_neg (by simp)]
        exact hrejected.finish hpoll htimer
    · exact .nothing _
  | send index succeeded =>
    change Moved s (.send index succeeded) (settleSend index succeeded s)
    unfold settleSend
    split
    · next hwaiting =>
      obtain ⟨rfl, hsend⟩ := h.only hwaiting
      have htimer : s.timer = none := h.idle (by rw [hsend]; exact List.cons_ne_nil _ _)
      cases succeeded with
      | true =>
        have hsucceeds := Moved.succeeds 0 hsend
        rw [if_pos rfl]
        exact hsucceeds.finish hsend htimer
      | false =>
        have hfails := Moved.fails 0 hsend
        rw [if_neg (by decide)]
        exact hfails.finish hsend htimer
    · exact .nothing _
  | close => exact .closes

/-- The sender after an attempt is steady. -/
theorem steady_ended (s : ImageSender) : Steady (ended s) := by
  refine ⟨.inl rfl, ⟨fun hrunning => (by cases hrunning), fun hsome => absurd rfl hsome⟩,
    fun hsome => absurd rfl hsome, fun hclosed => ?_, fun hopen => .inr ?_,
    fun hsending => (by cases hsending)⟩
  · change s.closed = true at hclosed
    change nextTimer s = none
    unfold nextTimer
    rw [if_pos hclosed]
  · change s.closed = false at hopen
    change nextTimer s ≠ none
    unfold nextTimer
    rw [hopen]
    exact Option.some_ne_none _

/-- The attempts and the timer keep in step through every move. -/
theorem Steady.moved (h : Steady s) (hmoved : Moved s event t) : Steady t := by
  cases hmoved with
  | nothing => exact h
  | begins hidle =>
    refine ⟨.inr (.inl rfl), ⟨fun _ => List.cons_ne_nil _ _, fun _ => rfl⟩, fun _ => rfl,
      fun _ => rfl, fun _ => .inl (List.cons_ne_nil _ _), fun hsending => (by cases hsending)⟩
  | notReady index hpoll => exact steady_ended _
  | rejected index hpoll => exact steady_ended _
  | still index hpoll hsent hready => exact steady_ended _
  | starts hpoll hdue =>
    have hsome : s.attempts ≠ [] := by
      rw [hpoll]
      exact List.cons_ne_nil _ _
    refine ⟨.inr (.inr rfl), ⟨fun _ => List.cons_ne_nil _ _, fun _ => h.running.mpr hsome⟩,
      fun _ => h.idle hsome, h.closed, fun _ => .inl (List.cons_ne_nil _ _), fun _ => ⟨rfl, rfl⟩⟩
  | succeeds index hsend => exact steady_ended _
  | fails index hsend => exact steady_ended _
  | closes =>
    exact ⟨h.attempts, h.running, fun _ => rfl, fun _ => rfl, fun hopen => (by cases hopen),
      h.sending⟩

end Moves

section Logs

variable {log front middle back : List Entry} {entry added : Entry}

/-- An entry of a log with one more at its end. -/
theorem split_concat (h : log ++ [added] = front ++ entry :: back) :
    (front = log ∧ entry = added ∧ back = []) ∨
      ∃ rest, back = rest ++ [added] ∧ log = front ++ entry :: rest := by
  rcases List.eq_nil_or_concat back with rfl | ⟨rest, last, rfl⟩
  · obtain ⟨hlog, hentry⟩ := List.append_inj' h rfl
    exact .inl ⟨hlog.symm, (List.cons.inj hentry).1.symm, rfl⟩
  · have hsplit : log ++ [added] = (front ++ entry :: rest) ++ [last] := by simpa using h
    obtain ⟨hlog, hlast⟩ := List.append_inj' hsplit rfl
    have hsame : added = last := (List.cons.inj hlast).1
    exact .inr ⟨rest, by rw [hsame, List.concat_eq_append], hlog⟩

/-- Between two successful sends a poll found the peer not ready. -/
def Between (log : List Entry) : Prop :=
  ∀ front middle back, log = front ++ .sendSucceeded :: (middle ++ .sendSucceeded :: back) →
    .answered .notReady ∈ middle

/-- After a failed send, every poll that finds the peer ready begins a send, until one succeeds. -/
def Retried (log : List Entry) : Prop :=
  ∀ front middle back, log = front ++ .sendFailed :: (middle ++ .answered .ready :: back) →
    .sendSucceeded ∈ middle ∨ back.head? = some .sendStarted

/-- After a successful send the peer was found not ready, or a condition holds. -/
def Calm (log : List Entry) (condition : Prop) : Prop :=
  ∀ front back, log = front ++ .sendSucceeded :: back → .answered .notReady ∈ back ∨ condition

/-- After a failed send another succeeded, or a condition holds. -/
def Owed (log : List Entry) (condition : Prop) : Prop :=
  ∀ front back, log = front ++ .sendFailed :: back → .sendSucceeded ∈ back ∨ condition

/-- An entry behind the log starts no second success that no poll separates. -/
theorem Between.concat (h : Between log) {condition : Prop} (hcalm : Calm log condition)
    (hnew : added = .sendSucceeded → ¬condition) : Between (log ++ [added]) := by
  intro front middle back hsplit
  have hassoc : log ++ [added] = (front ++ .sendSucceeded :: middle) ++ .sendSucceeded :: back := by
    simpa using hsplit
  rcases split_concat hassoc with ⟨hlog, hadded, -⟩ | ⟨rest, -, hlog⟩
  · rcases hcalm front middle hlog.symm with hmem | hcondition
    · exact hmem
    · exact absurd hcondition (hnew hadded.symm)
  · exact h front middle rest (by simpa using hlog)

/-- The condition after a success is carried over the entry behind the log. -/
theorem Calm.concat {condition later : Prop} (h : Calm log condition)
    (hnew : added = .sendSucceeded → later)
    (hkeep : condition → added = .answered .notReady ∨ later) : Calm (log ++ [added]) later := by
  intro front back hsplit
  rcases split_concat hsplit with ⟨-, hadded, -⟩ | ⟨rest, rfl, hlog⟩
  · exact .inr (hnew hadded.symm)
  · rcases h front rest hlog with hmem | hcondition
    · exact .inl (List.mem_append_left _ hmem)
    · rcases hkeep hcondition with rfl | hlater
      · exact .inl (List.mem_append_right _ (List.mem_singleton_self _))
      · exact .inr hlater

/-- The condition after a failure is carried over the entry behind the log. -/
theorem Owed.concat {condition later : Prop} (h : Owed log condition)
    (hnew : added = .sendFailed → later)
    (hkeep : condition → added = .sendSucceeded ∨ later) : Owed (log ++ [added]) later := by
  intro front back hsplit
  rcases split_concat hsplit with ⟨-, hadded, -⟩ | ⟨rest, rfl, hlog⟩
  · exact .inr (hnew hadded.symm)
  · rcases h front rest hlog with hmem | hcondition
    · exact .inl (List.mem_append_left _ hmem)
    · rcases hkeep hcondition with rfl | hlater
      · exact .inl (List.mem_append_right _ (List.mem_singleton_self _))
      · exact .inr hlater

/-- An entry that follows a poll that found the peer ready. -/
theorem head?_concat {rest : List Entry} (h : rest.head? = some .sendStarted) (added : Entry) :
    (rest ++ [added]).head? = some .sendStarted := by
  cases rest with
  | nil => cases h
  | cons first rest => exact h

/-- An entry behind the log breaks no retry, if no poll is answered ready while one is owed. -/
theorem Retried.concat (h : Retried log) {condition : Prop} (howed : Owed log condition)
    (hnew : added = .answered .ready → ¬condition) : Retried (log ++ [added]) := by
  intro front middle back hsplit
  have hassoc : log ++ [added] = (front ++ .sendFailed :: middle) ++ .answered .ready :: back := by
    simpa using hsplit
  rcases split_concat hassoc with ⟨hlog, hadded, -⟩ | ⟨rest, rfl, hlog⟩
  · rcases howed front middle hlog.symm with hmem | hcondition
    · exact .inl hmem
    · exact absurd hcondition (hnew hadded.symm)
  · rcases h front middle rest (by simpa using hlog) with hmem | hhead
    · exact .inl hmem
    · exact .inr (head?_concat hhead added)

/-- A poll that finds the peer ready and begins a send. -/
theorem Retried.starts (h : Retried log) :
    Retried (log ++ [.answered .ready] ++ [.sendStarted]) := by
  intro front middle back hsplit
  have hassoc : log ++ [.answered .ready] ++ [.sendStarted] =
      (front ++ .sendFailed :: middle) ++ .answered .ready :: back := by simpa using hsplit
  rcases split_concat hassoc with ⟨-, hadded, -⟩ | ⟨rest, rfl, hlog⟩
  · cases hadded
  · rcases split_concat hlog with ⟨-, -, rfl⟩ | ⟨before, rfl, hbefore⟩
    · exact .inr rfl
    · rcases h front middle before (by simpa using hbefore) with hmem | hhead
      · exact .inl hmem
      · exact .inr (head?_concat (head?_concat hhead _) _)

end Logs

section Runs

variable {s t : ImageSender} {event : SenderEvent}

/-- What the log of a sender tells, with its flags. -/
structure Told (s : ImageSender) : Prop where
  /-- Between two successful sends a poll found the peer not ready. -/
  between : Between s.log
  /-- A failed send is retried. -/
  retried : Retried s.log
  /-- After a successful send none is due while the peer stays ready. -/
  calm : Calm s.log (s.sendNeeded = false ∧ s.peerWasReady = true)
  /-- After a failed send one is due. -/
  owed : Owed s.log (s.sendNeeded = true)
  /-- The log tells when the sender was closed. -/
  closed : s.closed = true ↔ .closed ∈ s.log

/-- An entry other than the one added was there already. -/
theorem mem_concat_iff {log : List Entry} {entry added : Entry} (h : entry ≠ added) :
    entry ∈ log ++ [added] ↔ entry ∈ log := by
  rw [List.mem_append, List.mem_singleton]
  constructor
  · rintro (hmem | hsame)
    · exact hmem
    · exact absurd hsame h
  · exact .inl

/-- What the log tells survives every move. A move that logs an entry leaves the flags as the log
then ends. -/
theorem Told.moved (h : Told s) (hsteady : Steady s) (hmoved : Moved s event t) : Told t := by
  cases hmoved with
  | nothing => exact h
  | begins hidle => exact ⟨h.between, h.retried, h.calm, h.owed, h.closed⟩
  | notReady index hpoll =>
    refine ⟨h.between.concat h.calm (fun hadded => (by cases hadded)),
      h.retried.concat h.owed (fun hadded => (by cases hadded)),
      h.calm.concat (fun hadded => (by cases hadded)) (fun _ => .inl rfl),
      h.owed.concat (fun hadded => (by cases hadded)) (fun _ => .inr rfl), ?_⟩
    rw [show (ended _).log = s.log ++ [.answered .notReady] from rfl, mem_concat_iff (by decide)]
    exact h.closed
  | rejected index hpoll =>
    refine ⟨h.between.concat h.calm (fun hadded => (by cases hadded)),
      h.retried.concat h.owed (fun hadded => (by cases hadded)),
      h.calm.concat (fun hadded => (by cases hadded)) .inr,
      h.owed.concat (fun hadded => (by cases hadded)) .inr, ?_⟩
    rw [show (ended _).log = s.log ++ [.answered .rejected] from rfl, mem_concat_iff (by decide)]
    exact h.closed
  | still index hpoll hsent hready =>
    have hnone : ¬s.sendNeeded = true := by
      rw [hsent]
      exact Bool.false_ne_true
    refine ⟨h.between.concat h.calm (fun hadded => (by cases hadded)),
      h.retried.concat h.owed (fun _ => hnone),
      h.calm.concat (fun hadded => (by cases hadded)) .inr,
      h.owed.concat (fun hadded => (by cases hadded)) .inr, ?_⟩
    rw [show (ended _).log = s.log ++ [.answered .ready] from rfl, mem_concat_iff (by decide)]
    exact h.closed
  | starts hpoll hdue =>
    have hbusy : ¬(s.sendNeeded = false ∧ s.peerWasReady = true) := by
      rintro ⟨hsent, hready⟩
      rcases hdue with hneeded | hfirst
      · rw [hsent] at hneeded
        cases hneeded
      · rw [hready] at hfirst
        cases hfirst
    have hcalm : Calm (s.log ++ [.answered .ready]) False :=
      h.calm.concat (fun hadded => (by cases hadded)) (fun hquiet => absurd hquiet hbusy)
    have howed : Owed (s.log ++ [.answered .ready]) True :=
      h.owed.concat (fun _ => trivial) (fun _ => .inr trivial)
    have hbetween : Between (s.log ++ [.answered .ready]) :=
      h.between.concat h.calm (fun hadded => (by cases hadded))
    refine ⟨hbetween.concat hcalm (fun hadded => (by cases hadded)), h.retried.starts,
      hcalm.concat (fun hadded => (by cases hadded)) False.elim,
      howed.concat (fun _ => rfl) (fun _ => .inr rfl), ?_⟩
    rw [mem_concat_iff (by decide), mem_concat_iff (by decide)]
    exact h.closed
  | succeeds index hsend =>
    obtain ⟨hneeded, hready⟩ := hsteady.sending hsend
    have hbusy : ¬(s.sendNeeded = false ∧ s.peerWasReady = true) := by
      rintro ⟨hsent, -⟩
      rw [hneeded] at hsent
      cases hsent
    refine ⟨h.between.concat h.calm (fun _ => hbusy),
      h.retried.concat h.owed (fun hadded => (by cases hadded)),
      h.calm.concat (fun _ => ⟨rfl, hready⟩) (fun hquiet => absurd hquiet hbusy),
      h.owed.concat (fun hadded => (by cases hadded)) (fun _ => .inl rfl), ?_⟩
    rw [show (ended _).log = s.log ++ [.sendSucceeded] from rfl, mem_concat_iff (by decide)]
    exact h.closed
  | fails index hsend =>
    obtain ⟨hneeded, -⟩ := hsteady.sending hsend
    refine ⟨h.between.concat h.calm (fun hadded => (by cases hadded)),
      h.retried.concat h.owed (fun hadded => (by cases hadded)),
      h.calm.concat (fun hadded => (by cases hadded)) .inr,
      h.owed.concat (fun _ => hneeded) .inr, ?_⟩
    rw [show (ended _).log = s.log ++ [.sendFailed] from rfl, mem_concat_iff (by decide)]
    exact h.closed
  | closes =>
    refine ⟨h.between.concat h.calm (fun hadded => (by cases hadded)),
      h.retried.concat h.owed (fun hadded => (by cases hadded)),
      h.calm.concat (fun hadded => (by cases hadded)) .inr,
      h.owed.concat (fun hadded => (by cases hadded)) .inr,
      ⟨fun _ => List.mem_append_right _ (List.mem_singleton_self _), fun _ => rfl⟩⟩

/-- After the sender was closed no send begins. -/
def Silent (s : ImageSender) : Prop :=
  ∀ front back, s.log = front ++ .closed :: back → .sendStarted ∉ back

/-- One more entry that is not the beginning of a send of a closed sender. -/
theorem silent_concat {log : List Entry} {added : Entry}
    (h : ∀ front back, log = front ++ .closed :: back → .sendStarted ∉ back)
    (hadded : added = .sendStarted → .closed ∉ log) :
    ∀ front back, log ++ [added] = front ++ .closed :: back → .sendStarted ∉ back := by
  intro front back hsplit
  rcases split_concat hsplit with ⟨-, -, rfl⟩ | ⟨rest, rfl, hlog⟩
  · exact List.not_mem_nil
  · intro hmem
    rcases List.mem_append.mp hmem with hmem | hmem
    · exact h front rest hlog hmem
    · refine hadded (List.mem_singleton.mp hmem).symm ?_
      rw [hlog]
      exact List.mem_append_right _ List.mem_cons_self

/-- No send begins after the close, unless the event begins one of a closed sender. -/
theorem Silent.moved (h : Silent s) (htold : Told s) (hmoved : Moved s event t)
    (hopen : ¬SendsClosed s event) : Silent t := by
  have hlater : ∀ added, added ≠ .sendStarted → t.log = s.log ++ [added] → Silent t := by
    intro added hadded hlog front back hsplit
    rw [hlog] at hsplit
    exact silent_concat h (fun hsame => absurd hsame hadded) front back hsplit
  cases hmoved with
  | nothing => exact h
  | begins hidle => exact h
  | notReady index hpoll => exact hlater _ (by decide) rfl
  | rejected index hpoll => exact hlater _ (by decide) rfl
  | still index hpoll hsent hready => exact hlater _ (by decide) rfl
  | starts hpoll hdue =>
    have hfirst : ∀ front back, s.log ++ [.answered .ready] = front ++ .closed :: back →
        .sendStarted ∉ back := silent_concat h (fun hadded => (by cases hadded))
    refine silent_concat hfirst (fun _ hmem => hopen ?_)
    rw [mem_concat_iff (by decide)] at hmem
    exact ⟨htold.closed.mpr hmem, hdue, 0, by rw [hpoll]; rfl, rfl⟩
  | succeeds index hsend => exact hlater _ (by decide) rfl
  | fails index hsend => exact hlater _ (by decide) rfl
  | closes => exact hlater _ (by decide) rfl

/-- The event that begins a send of a closed sender. -/
theorem SendsClosed.not_silent (h : SendsClosed s event) (htold : Told s) :
    ¬Silent (step s event) := by
  obtain ⟨hclosed, hdue, index, hpoll, rfl⟩ := h
  have hneeded : (s.sendNeeded || !s.peerWasReady) = true := by
    rcases hdue with hneeded | hfirst
    · rw [hneeded]
      rfl
    · rw [hfirst, Bool.not_false, Bool.or_true]
  have hlog : (step s (.poll index .ready)).log =
      s.log ++ [.answered .ready] ++ [.sendStarted] := by
    change (settlePoll index .ready s).log = _
    unfold settlePoll noteAnswer
    dsimp only
    rw [if_pos hpoll, hneeded]
    rfl
  obtain ⟨front, back, hsplit⟩ := List.append_of_mem (htold.closed.mp hclosed)
  intro hsilent
  refine hsilent front (back ++ [.answered .ready] ++ [.sendStarted]) ?_
    (List.mem_append_right _ (List.mem_singleton_self _))
  rw [hlog, hsplit]
  simp

/-- What holds in every state of every run. -/
theorem steady_run (hs : Steady s) (ht : Told s) (events : List SenderEvent) :
    Steady (run step s events) ∧ Told (run step s events) :=
  invariant step (I := fun u => Steady u ∧ Told u)
    (fun _ event h => ⟨h.1.moved (h.1.step event), h.2.moved h.1 (h.1.step event)⟩) ⟨hs, ht⟩ events

/-- A sender that keeps its books is disciplined exactly when it is silent once closed. -/
theorem disciplined_iff (hs : Steady s) (ht : Told s) : Disciplined s ↔ Silent s := by
  constructor
  · exact fun h => h.silent
  · intro h
    refine ⟨?_, ht.between, fun front middle back hsplit => ?_, hs.polling, h⟩
    · rcases hs.attempts with hone | hone | hone <;> rw [hone] <;> decide
    · exact (ht.retried front middle back hsplit).imp_right .inr

/-- A sender as it is started keeps its books, its log tells so, and it is silent. -/
theorem started (retryMs : Option ℕ) (h : startAuthenticatedImageSender retryMs = .ok s) :
    Steady s ∧ Told s ∧ Silent s := by
  unfold startAuthenticatedImageSender at h
  dsimp only at h
  split at h
  · cases h
  · cases h
    have hempty : ∀ {front back : List Entry} {entry : Entry}, [] ≠ front ++ entry :: back := by
      intro front back entry hsplit
      exact List.append_ne_nil_of_right_ne_nil front (List.cons_ne_nil _ _) hsplit.symm
    refine ⟨⟨.inl rfl, ⟨fun hrunning => (by cases hrunning), fun hsome => absurd rfl hsome⟩,
      fun hsome => absurd rfl hsome, fun hclosed => (by cases hclosed),
      fun _ => .inr (Option.some_ne_none _), fun hsending => (by cases hsending)⟩,
      ⟨fun _ _ _ hsplit => absurd hsplit hempty, fun _ _ _ hsplit => absurd hsplit hempty,
        fun _ _ hsplit => absurd hsplit hempty, fun _ _ hsplit => absurd hsplit hempty,
        ⟨fun hclosed => (by cases hclosed), fun hmem => (by cases hmem)⟩⟩,
      fun _ _ hsplit => absurd hsplit hempty⟩

/-- A sender is disciplined in every state of a run exactly if no poll that was in flight when it
was closed begins a send. -/
theorem disciplined_run_iff (retryMs : Option ℕ)
    (h : startAuthenticatedImageSender retryMs = .ok s) (events : List SenderEvent) :
    (∀ front back, events = front ++ back → Disciplined (run step s front)) ↔
      Along step (fun u event => ¬SendsClosed u event) s events := by
  obtain ⟨hsteady, htold, hsilent⟩ := started retryMs h
  constructor
  · intro hall
    refine (along_iff step).mpr (fun front event back hsplit => ?_)
    have hdisciplined := (hall (front ++ [event]) back (by simpa using hsplit)).silent
    rw [run_append] at hdisciplined
    obtain ⟨-, htold'⟩ := steady_run hsteady htold front
    exact fun hcloses => hcloses.not_silent htold' hdisciplined
  · intro hopen front back hsplit
    rw [hsplit, along_append] at hopen
    have hkeep : ∀ u event, ¬SendsClosed u event → (Steady u ∧ Told u) ∧ Silent u →
        (Steady (step u event) ∧ Told (step u event)) ∧ Silent (step u event) := by
      rintro u event hevent ⟨⟨hu, htoldu⟩, hquiet⟩
      have hmoved := hu.step event
      exact ⟨⟨hu.moved hmoved, htoldu.moved hu hmoved⟩, hquiet.moved htoldu hmoved hevent⟩
    have hrun := invariant_along step (I := fun u => (Steady u ∧ Told u) ∧ Silent u) hkeep
      ⟨⟨hsteady, htold⟩, hsilent⟩ hopen.1
    exact (disciplined_iff hrun.1.1 hrun.1.2).mpr hrun.2

/-- A sender with the usual delay. -/
def benchSender : ImageSender := { retryMs := 1500, timer := some 0 }

/-- A send answered before the close meets the condition. -/
theorem disciplined_run_iff_bench :
    (∀ front back, [SenderEvent.timer, .poll 0 .ready, .send 0 true, .close] = front ++ back →
      Disciplined (run step benchSender front)) ↔
      Along step (fun u event => ¬SendsClosed u event) benchSender
        [.timer, .poll 0 .ready, .send 0 true, .close] :=
  disciplined_run_iff none rfl [.timer, .poll 0 .ready, .send 0 true, .close]

/-- The sender is closed while its first poll is in flight, and the peer is ready. -/
theorem not_disciplined_run :
    ¬∀ (retryMs : Option ℕ) (s : ImageSender),
      startAuthenticatedImageSender retryMs = .ok s → ∀ events : List SenderEvent,
      Disciplined (run step s events) := by
  intro h
  have hsilent := (h none benchSender rfl [.timer, .close, .poll 0 .ready]).silent
  exact hsilent [] [.answered .ready, .sendStarted] (by decide) (by decide)

end Runs

end Fipwave.AuthenticatedSender
