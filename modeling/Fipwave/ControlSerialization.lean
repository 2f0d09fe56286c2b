import Fipwave.ControlClient

/-!
# One control request at a time

In every run of a client at most one stream is open, streams are opened in the
order of submission, every request is settled once and only with the response
that arrived on its own stream, and none is opened after the client was closed.
That no stream is opened for an aborted request needs that the signal of a
request has not fired when its turn comes.
-/

namespace Fipwave.ControlSerialization

open ByteWords ThrowingMethod TransitionRun ControlResponse ControlClient

section Logs

variable {α : Type} {rule : List α → α → Prop} {log : List α} {entry : α}

theorem chronicle_nil : Chronicle rule [] := by
  intro front entry back h
  cases front <;> cases h

/-- A log with one more entry at its end. -/
theorem chronicle_concat :
    Chronicle rule (log ++ [entry]) ↔ Chronicle rule log ∧ rule log entry := by
  constructor
  · intro h
    refine ⟨fun front other back hsplit => ?_, h log entry [] rfl⟩
    refine h front other (back ++ [entry]) ?_
    rw [hsplit, List.append_assoc, List.cons_append]
  · rintro ⟨hlog, hentry⟩ front other back hsplit
    rcases List.eq_nil_or_concat back with rfl | ⟨rest, last, rfl⟩
    · obtain ⟨hfront, hlast⟩ := List.append_inj' hsplit rfl
      rw [← hfront, ← (List.cons.inj hlast).1]
      exact hentry
    · have hassoc : log ++ [entry] = (front ++ other :: rest) ++ [last] := by simpa using hsplit
      exact hlog front other rest (List.append_inj' hassoc rfl).1

end Logs

section Invariant

variable {platform : ControlPlatform} {s : Client} {request : Request}

/-- A request that was submitted and has had no stream and no outcome. -/
structure Waiting (log : List Entry) (request : Request) : Prop where
  /-- It was submitted. -/
  submitted : .submitted request ∈ log
  /-- It is not settled. -/
  unsettled : ∀ other outcome, .settled other outcome ∈ log → other.id ≠ request.id
  /-- Streams were opened for earlier requests only. -/
  later : ∀ other, .opened other ∈ log → other.id < request.id

/-- A request with an open stream that is not settled. -/
structure Flying (log : List Entry) (request : Request) : Prop where
  /-- It was submitted. -/
  submitted : .submitted request ∈ log
  /-- Its stream was opened. -/
  opened : .opened request ∈ log
  /-- It is not settled. -/
  unsettled : ∀ other outcome, .settled other outcome ∈ log → other.id ≠ request.id

/-- What holds of a log and the number of submissions. -/
structure Recorded (platform : ControlPlatform) (log : List Entry) (submissions : ℕ) : Prop where
  /-- Numbers that were given. -/
  numbers : ∀ request, .submitted request ∈ log → request.id < submissions
  /-- A request with a stream was submitted. -/
  opened : ∀ request, .opened request ∈ log → .submitted request ∈ log
  /-- A settled request was submitted. -/
  settled : ∀ request outcome, .settled request outcome ∈ log → .submitted request ∈ log
  /-- Chunks are received on streams. -/
  received : ∀ id chunk, .received id chunk ∈ log →
    ∃ request, .opened request ∈ log ∧ request.id = id
  /-- Every entry is allowed. -/
  allowed : Chronicle (Allowed platform) log

/-- What holds of a client in every run. -/
structure Inv (platform : ControlPlatform) (s : Client) : Prop where
  /-- At most one request is in flight. -/
  single : s.inFlight.length ≤ 1
  /-- None is when none runs. -/
  idle : s.running = false → s.inFlight = []
  /-- The log tells whether the client was closed. -/
  closed : .closed ∈ s.log → s.isClosed = true
  /-- The log tells which signals have fired. -/
  fired : ∀ signal, .fired signal ∈ s.log ↔ signal ∈ s.fired
  /-- The queue is in the order of submission. -/
  sorted : s.queue.Pairwise (fun first second => first.id < second.id)
  /-- Its requests wait. -/
  waiting : ∀ request ∈ s.queue, Waiting s.log request
  /-- Requests in flight. -/
  flights : ∀ flight ∈ s.inFlight, Flying s.log flight.request
  /-- A request with a stream is settled or in flight. -/
  pending : ∀ request, .opened request ∈ s.log →
    (∃ outcome, .settled request outcome ∈ s.log) ∨ ∃ flight ∈ s.inFlight, flight.request = request
  /-- The log. -/
  recorded : Recorded platform s.log s.submissions

/-- A new client has no request and nothing in its log. -/
theorem inv_initial : Inv platform {} where
  single := Nat.zero_le 1
  idle := fun _ => rfl
  closed := fun h => absurd h List.not_mem_nil
  fired := fun _ => iff_of_false List.not_mem_nil List.not_mem_nil
  sorted := List.Pairwise.nil
  waiting := fun _ h => absurd h List.not_mem_nil
  flights := fun _ h => absurd h List.not_mem_nil
  pending := fun _ h => absurd h List.not_mem_nil
  recorded := ⟨fun _ h => absurd h List.not_mem_nil, fun _ h => absurd h List.not_mem_nil,
    fun _ _ h => absurd h List.not_mem_nil, fun _ _ h => absurd h List.not_mem_nil, chronicle_nil⟩

/-- What a request in flight remembers is what its stream brought. -/
def Replies (s : Client) : Prop :=
  ∀ flight ∈ s.inFlight, (receivedBy flight.request.id s.log).foldlM onData {} = .ok flight.reply

/-- An entry of a longer log is an old one or the last. -/
theorem mem_concat {log : List Entry} {entry added : Entry} :
    entry ∈ log ++ [added] ↔ entry ∈ log ∨ entry = added := by
  rw [List.mem_append, List.mem_singleton]

/-- Only what arrives on a stream is received on it. -/
theorem receivedBy_concat (id : ℕ) (log : List Entry) (entry : Entry)
    (h : ∀ chunk, entry ≠ .received id chunk) :
    receivedBy id (log ++ [entry]) = receivedBy id log := by
  unfold receivedBy
  rw [List.filterMap_append]
  cases entry with
  | received other chunk =>
    have hother : other ≠ id := fun heq => h chunk (by rw [heq])
    simp [hother]
  | _ => simp

/-- What arrives is received last. -/
theorem receivedBy_received (id : ℕ) (log : List Entry) (chunk : Bytes) :
    receivedBy id (log ++ [.received id chunk]) = receivedBy id log ++ [chunk] := by
  unfold receivedBy
  rw [List.filterMap_append]
  simp

/-- Nothing is received without a stream. -/
theorem Inv.receivedBy_waiting (h : Inv platform s) (hwaiting : Waiting s.log request) :
    receivedBy request.id s.log = [] := by
  unfold receivedBy
  rw [List.filterMap_eq_nil_iff]
  intro entry hentry
  cases entry with
  | received id chunk =>
    obtain ⟨other, hopened, hid⟩ := h.recorded.received id chunk hentry
    have hlater := hwaiting.later other hopened
    have hne : id ≠ request.id := by omega
    simp [hne]
  | _ => rfl

/-- A request goes on waiting unless the entry settles or opens it. -/
theorem Waiting.concat {log : List Entry} (h : Waiting log request) {entry : Entry}
    (hsettled : ∀ other outcome, entry = .settled other outcome → other.id ≠ request.id)
    (hopened : ∀ other, entry = .opened other → other.id < request.id) :
    Waiting (log ++ [entry]) request where
  submitted := mem_concat.mpr (.inl h.submitted)
  unsettled := by
    intro other outcome hmem
    rcases mem_concat.mp hmem with hmem | heq
    · exact h.unsettled other outcome hmem
    · exact hsettled other outcome heq.symm
  later := by
    intro other hmem
    rcases mem_concat.mp hmem with hmem | heq
    · exact h.later other hmem
    · exact hopened other heq.symm

/-- A request stays in flight unless the entry settles it. -/
theorem Flying.concat {log : List Entry} (h : Flying log request) {entry : Entry}
    (hsettled : ∀ other outcome, entry = .settled other outcome → other.id ≠ request.id) :
    Flying (log ++ [entry]) request where
  submitted := mem_concat.mpr (.inl h.submitted)
  opened := mem_concat.mpr (.inl h.opened)
  unsettled := by
    intro other outcome hmem
    rcases mem_concat.mp hmem with hmem | heq
    · exact h.unsettled other outcome hmem
    · exact hsettled other outcome heq.symm

/-- The request in flight is the only one. -/
theorem Inv.only (h : Inv platform s) {flight : InFlight} (hflight : flight ∈ s.inFlight) :
    s.inFlight = [flight] := by
  have hsingle := h.single
  cases hlist : s.inFlight with
  | nil =>
    rw [hlist] at hflight
    cases hflight
  | cons first rest =>
    rw [hlist, List.length_cons] at hsingle
    have hrest : rest = [] := List.length_eq_zero_iff.mp (by omega)
    rw [hlist, hrest, List.mem_singleton] at hflight
    rw [hrest, hflight]

/-- A waiting request has a greater number than those in flight. -/
theorem Inv.flight_lt (h : Inv platform s) (hwaiting : Waiting s.log request) {flight : InFlight}
    (hflight : flight ∈ s.inFlight) : flight.request.id < request.id :=
  hwaiting.later _ (h.flights flight hflight).opened

end Invariant

section Moves

variable {platform : ControlPlatform} {s : Client} {request : Request} {log : List Entry}
  {entry : Entry}

/-- One more entry is recorded if the rules allow it behind the log. -/
theorem Recorded.concat {submissions : ℕ} (h : Recorded platform log submissions)
    (hallowed : Allowed platform log entry)
    (hnumber : ∀ request, entry = .submitted request → request.id < submissions)
    (hreceived : ∀ id chunk, entry = .received id chunk →
      ∃ request, .opened request ∈ log ∧ request.id = id) :
    Recorded platform (log ++ [entry]) submissions where
  numbers := by
    intro request hmem
    rcases mem_concat.mp hmem with hmem | heq
    · exact h.numbers request hmem
    · exact hnumber request heq.symm
  opened := by
    intro request hmem
    rcases mem_concat.mp hmem with hmem | heq
    · exact mem_concat.mpr (.inl (h.opened request hmem))
    · rw [← heq] at hallowed
      exact mem_concat.mpr (.inl hallowed.1)
  settled := by
    intro request outcome hmem
    rcases mem_concat.mp hmem with hmem | heq
    · exact mem_concat.mpr (.inl (h.settled request outcome hmem))
    · rw [← heq] at hallowed
      exact mem_concat.mpr (.inl hallowed.1)
  received := by
    intro id chunk hmem
    rcases mem_concat.mp hmem with hmem | heq
    · obtain ⟨request, hopened, hid⟩ := h.received id chunk hmem
      exact ⟨request, mem_concat.mpr (.inl hopened), hid⟩
    · obtain ⟨request, hopened, hid⟩ := hreceived id chunk heq.symm
      exact ⟨request, mem_concat.mpr (.inl hopened), hid⟩
  allowed := chronicle_concat.mpr ⟨h.allowed, hallowed⟩

/-- An entry that opens and settles nothing leaves what waits and flies. -/
structure Aside (entry : Entry) : Prop where
  /-- It opens no stream. -/
  opens : ∀ request, entry ≠ .opened request
  /-- It settles no request. -/
  settles : ∀ request outcome, entry ≠ .settled request outcome

/-- An entry that concerns no stream leaves every open stream with its request. -/
theorem Inv.pending_aside (h : Inv platform s) (haside : Aside entry) (request : Request)
    (hopened : .opened request ∈ s.log ++ [entry]) :
    (∃ outcome, .settled request outcome ∈ s.log ++ [entry]) ∨
      ∃ flight ∈ s.inFlight, flight.request = request := by
  rcases mem_concat.mp hopened with hmem | heq
  · refine (h.pending request hmem).imp_left ?_
    rintro ⟨outcome, hsettled⟩
    exact ⟨outcome, mem_concat.mpr (.inl hsettled)⟩
  · exact absurd heq.symm (haside.opens request)

/-- A request goes on waiting beside such an entry. -/
theorem Waiting.aside (h : Waiting log request) (haside : Aside entry) :
    Waiting (log ++ [entry]) request :=
  h.concat (fun other outcome heq => absurd heq (haside.settles other outcome))
    (fun other heq => absurd heq (haside.opens other))

/-- A request stays in flight beside such an entry. -/
theorem Flying.aside (h : Flying log request) (haside : Aside entry) :
    Flying (log ++ [entry]) request :=
  h.concat (fun other outcome heq => absurd heq (haside.settles other outcome))

/-- A call is noted under the next number, which no request has had. -/
theorem Inv.submitted (h : Inv platform s) (hid : request.id = s.submissions) :
    Inv platform { s with
        submissions := s.submissions + 1
        log := s.log ++ [.submitted request] } ∧
      Waiting (s.log ++ [.submitted request]) request := by
  have hfresh : ∀ other, .submitted other ∈ s.log → other.id < request.id := by
    intro other hother
    rw [hid]
    exact h.recorded.numbers other hother
  have haside : Aside (.submitted request) := ⟨nofun, nofun⟩
  have hwider : Recorded platform s.log (s.submissions + 1) :=
    ⟨fun other hother => Nat.lt_succ_of_lt (h.recorded.numbers other hother), h.recorded.opened,
      h.recorded.settled, h.recorded.received, h.recorded.allowed⟩
  constructor
  · refine ⟨h.single, h.idle, fun hmem => ?_, fun signal => ?_, h.sorted,
      fun other hother => (h.waiting other hother).aside haside,
      fun flight hflight => (h.flights flight hflight).aside haside, h.pending_aside haside,
      hwider.concat hfresh (fun other heq => ?_) nofun⟩
    · exact h.closed ((mem_concat.mp hmem).resolve_right nofun)
    · rw [mem_concat, h.fired signal]
      exact or_iff_left nofun
    · cases heq
      exact hid ▸ Nat.lt_succ_self _
  · refine ⟨mem_concat.mpr (.inr rfl), fun other outcome hmem => ?_, fun other hmem => ?_⟩
    · have hsettled := (mem_concat.mp hmem).resolve_right nofun
      exact (hfresh other (h.recorded.settled other outcome hsettled)).ne
    · have hopened := (mem_concat.mp hmem).resolve_right nofun
      exact hfresh other (h.recorded.opened other hopened)

/-- A request joins the queue behind all that were submitted before it. -/
theorem Inv.enqueued (h : Inv platform s) (hwaiting : Waiting s.log request)
    (hlast : ∀ other ∈ s.queue, other.id < request.id) :
    Inv platform { s with queue := s.queue ++ [request] } := by
  refine ⟨h.single, h.idle, h.closed, h.fired, ?_, fun other hother => ?_, h.flights, h.pending,
    h.recorded⟩
  · refine List.pairwise_append.mpr ⟨h.sorted, List.pairwise_singleton _ _, ?_⟩
    intro first hfirst second hsecond
    rw [List.mem_singleton.mp hsecond]
    exact hlast first hfirst
  · rcases List.mem_append.mp hother with hother | hother
    · exact h.waiting other hother
    · rw [List.mem_singleton.mp hother]
      exact hwaiting

/-- Only the answer of the daemon fails with its error. -/
theorem fromDaemon_error {code : ControlError} (h : code ≠ .daemonError) :
    fromDaemon (.error code) ≠ true := by
  cases code with
  | daemonError => exact absurd rfl h
  | _ => decide

/-- A request is settled: it has one outcome now, and waits and flies no longer. -/
theorem Inv.settled (h : Inv platform s) {outcome : Outcome} {queue : List Request}
    {flights : List InFlight} {running : Bool} (hqueue : queue.Sublist s.queue)
    (hflights : flights.Sublist s.inFlight) (hrunning : running = false → flights = [])
    (hsubmitted : .submitted request ∈ s.log)
    (hunsettled : ∀ other earlier, .settled other earlier ∈ s.log → other.id ≠ request.id)
    (hwaiting : ∀ other ∈ queue, request.id ≠ other.id)
    (hflying : ∀ flight ∈ flights, request.id ≠ flight.request.id)
    (hgone : ∀ flight ∈ s.inFlight, flight ∈ flights ∨ flight.request = request)
    (hown : fromDaemon outcome = true →
      settle (parseFor platform request.command) (receivedBy request.id s.log) = outcome) :
    Inv platform { s with
      queue := queue
      inFlight := flights
      running := running
      log := s.log ++ [.settled request outcome] } := by
  refine ⟨hflights.length_le.trans h.single, hrunning, fun hmem => ?_, fun signal => ?_,
    h.sorted.sublist hqueue, fun other hother => ?_, fun flight hflight => ?_,
    fun other hmem => ?_, h.recorded.concat ⟨hsubmitted, hunsettled, hown⟩ nofun nofun⟩
  · exact h.closed ((mem_concat.mp hmem).resolve_right nofun)
  · rw [mem_concat, h.fired signal]
    exact or_iff_left nofun
  · refine (h.waiting other (hqueue.subset hother)).concat (fun settled earlier heq => ?_) nofun
    cases heq
    exact hwaiting other hother
  · refine (h.flights flight (hflights.subset hflight)).concat (fun settled earlier heq => ?_)
    cases heq
    exact hflying flight hflight
  · have hopened := (mem_concat.mp hmem).resolve_right nofun
    rcases h.pending other hopened with ⟨earlier, hsettled⟩ | ⟨flight, hflight, hrequest⟩
    · exact .inl ⟨earlier, mem_concat.mpr (.inl hsettled)⟩
    · rcases hgone flight hflight with hstays | hends
      · exact .inr ⟨flight, hstays, hrequest⟩
      · refine .inl ⟨outcome, mem_concat.mpr (.inr ?_)⟩
        rw [← hrequest, hends]

/-- The next request gets a stream. What was opened before it has settled, since nothing is in
flight. -/
theorem Inv.openStream {rest : List Request} (h : Inv platform { s with queue := request :: rest })
    (hidle : s.running = false) (hopen : s.isClosed = false) :
    Inv platform (openStream platform request { s with queue := rest }) := by
  have hwaiting : Waiting s.log request := h.waiting request List.mem_cons_self
  have hnone : s.inFlight = [] := h.idle hidle
  have hnotClosed : .closed ∉ s.log := fun hmem => by
    have hclosed : s.isClosed = true := h.closed hmem
    rw [hopen] at hclosed
    cases hclosed
  have hlog : s.log ++ [.opened request,
      .wrote request (encodedRequest platform request.command)] =
        s.log ++ [.opened request] ++
          [.wrote request (encodedRequest platform request.command)] := by
    rw [List.append_assoc]
    rfl
  have hsorted := List.pairwise_cons.mp h.sorted
  have hearlier : ∀ other, .opened other ∈ s.log →
      other.id < request.id ∧ ∃ outcome, .settled other outcome ∈ s.log := by
    intro other hother
    refine ⟨hwaiting.later other hother, ?_⟩
    rcases h.pending other hother with hsettled | ⟨flight, hflight, -⟩
    · exact hsettled
    · have hmem : flight ∈ s.inFlight := hflight
      rw [hnone] at hmem
      cases hmem
  have hopened : .opened request ∈ s.log ++ [.opened request] := mem_concat.mpr (.inr rfl)
  have hwriteAside : Aside (.wrote request (encodedRequest platform request.command)) :=
    ⟨nofun, nofun⟩
  have hstill : ∀ entry, entry ∈ s.log ++ [.opened request] ++
      [.wrote request (encodedRequest platform request.command)] → entry ∈ s.log ∨
        entry = .opened request ∨
          entry = .wrote request (encodedRequest platform request.command) := by
    intro entry hmem
    rcases mem_concat.mp hmem with hmem | heq
    · rcases mem_concat.mp hmem with hmem | heq
      · exact .inl hmem
      · exact .inr (.inl heq)
    · exact .inr (.inr heq)
  have hkept : ∀ entry ∈ s.log, entry ∈ s.log ++ [.opened request] ++
      [.wrote request (encodedRequest platform request.command)] := fun entry hmem =>
    mem_concat.mpr (.inl (mem_concat.mpr (.inl hmem)))
  unfold ControlClient.openStream
  dsimp only
  rw [hlog, hnone, List.nil_append]
  refine ⟨le_refl 1, nofun, fun hmem => ?_, fun signal => ?_, hsorted.2, fun other hother => ?_,
    fun flight hflight => ?_, fun other hmem => ?_, ?_⟩
  · rcases hstill _ hmem with hmem | heq | heq
    · exact h.closed hmem
    · cases heq
    · cases heq
  · constructor
    · intro hmem
      rcases hstill _ hmem with hmem | heq | heq
      · exact (h.fired signal).mp hmem
      · cases heq
      · cases heq
    · intro hfired
      exact hkept _ ((h.fired signal).mpr hfired)
  · refine Waiting.aside ?_ hwriteAside
    refine (h.waiting other (List.mem_cons_of_mem _ hother)).concat nofun (fun opened heq => ?_)
    cases heq
    exact hsorted.1 other hother
  · rw [List.mem_singleton] at hflight
    rw [hflight]
    refine Flying.aside ?_ hwriteAside
    refine ⟨mem_concat.mpr (.inl hwaiting.submitted), hopened, fun other outcome hmem => ?_⟩
    exact hwaiting.unsettled other outcome ((mem_concat.mp hmem).resolve_right nofun)
  · rcases hstill _ hmem with hmem | heq | heq
    · obtain ⟨-, outcome, hsettled⟩ := hearlier other hmem
      exact .inl ⟨outcome, hkept _ hsettled⟩
    · cases heq
      exact .inr ⟨{ request }, List.mem_singleton.mpr rfl, rfl⟩
    · cases heq
  · have hfirst : Recorded platform (s.log ++ [.opened request]) s.submissions :=
      h.recorded.concat ⟨hwaiting.submitted, hnotClosed, hearlier⟩ nofun nofun
    refine hfirst.concat ⟨hopened, fun hmem => ?_, rfl⟩ nofun nofun
    exact hnotClosed ((mem_concat.mp hmem).resolve_right nofun)

/-- A stream has brought nothing when it was opened. -/
theorem replies_openStream {rest : List Request}
    (h : Inv platform { s with queue := request :: rest }) (hidle : s.running = false) :
    Replies (openStream platform request { s with queue := rest }) := by
  have hwaiting : Waiting s.log request := h.waiting request List.mem_cons_self
  have hnone : s.inFlight = [] := h.idle hidle
  have hnothing : receivedBy request.id s.log = [] := h.receivedBy_waiting hwaiting
  have hlog : s.log ++ [.opened request,
      .wrote request (encodedRequest platform request.command)] =
        s.log ++ [.opened request] ++
          [.wrote request (encodedRequest platform request.command)] := by
    rw [List.append_assoc]
    rfl
  have hopened : receivedBy request.id (s.log ++ [.opened request]) = receivedBy request.id s.log :=
    receivedBy_concat _ _ _ nofun
  have hwrote : receivedBy request.id (s.log ++ [.opened request] ++
      [.wrote request (encodedRequest platform request.command)]) =
        receivedBy request.id (s.log ++ [.opened request]) :=
    receivedBy_concat _ _ _ nofun
  intro flight hflight
  unfold ControlClient.openStream at hflight ⊢
  dsimp only at hflight ⊢
  rw [hnone, List.nil_append, List.mem_singleton] at hflight
  rw [hflight, hlog, hwrote, hopened, hnothing]
  rfl

/-- Draining the queue keeps the invariant, by induction over the requests that are rejected before
one opens its stream. -/
theorem drainQueue_inv (queue : List Request) {s : Client}
    (h : Inv platform { s with queue := queue }) (hreplies : Replies s) :
    Inv platform (drainQueue platform queue s) ∧ Replies (drainQueue platform queue s) := by
  induction queue generalizing s with
  | nil => exact ⟨h, hreplies⟩
  | cons request rest ih =>
    have hwaiting : Waiting s.log request := h.waiting request List.mem_cons_self
    have hsorted := List.pairwise_cons.mp h.sorted
    have hrejected : ∀ code, code ≠ .daemonError → s.running = false →
        Inv platform { reject request code s with queue := rest } ∧
          Replies (reject request code s) := by
      intro code hcode hidle
      have hnone : s.inFlight = [] := h.idle hidle
      have hnobody : ∀ flight ∈ s.inFlight, False := by
        intro flight hflight
        rw [hnone] at hflight
        cases hflight
      constructor
      · have hqueue : rest.Sublist (request :: rest) := List.sublist_cons_self _ _
        have hflights : s.inFlight.Sublist s.inFlight := List.Sublist.refl _
        exact h.settled hqueue hflights (fun _ => hnone) hwaiting.submitted
          hwaiting.unsettled (fun other hother => (hsorted.1 other hother).ne)
          (fun flight hflight => (hnobody flight hflight).elim) (fun flight hflight => .inl hflight)
          (fun hread => absurd hread (fromDaemon_error hcode))
      · exact fun flight hflight => (hnobody flight hflight).elim
    unfold drainQueue
    split
    · exact ⟨h, hreplies⟩
    · next hrunning =>
      have hidle : s.running = false := Bool.eq_false_of_not_eq_true hrunning
      split
      · obtain ⟨hinv, hkept⟩ := hrejected .clientClosed (by decide) hidle
        exact ih hinv hkept
      · next hclosed =>
        split
        · obtain ⟨hinv, hkept⟩ := hrejected .queryInvalid (by decide) hidle
          exact ih hinv hkept
        · split
          · obtain ⟨hinv, hkept⟩ := hrejected .transportError (by decide) hidle
            exact ih hinv hkept
          · exact ⟨h.openStream hidle (Bool.eq_false_of_not_eq_true hclosed),
              replies_openStream h hidle⟩

/-- The request in flight is settled, and its connection is free. -/
theorem Inv.finish (h : Inv platform s) {flight : InFlight} (hflight : flight ∈ s.inFlight)
    {outcome : Outcome} (hown : fromDaemon outcome = true →
      settle (parseFor platform flight.request.command) (receivedBy flight.request.id s.log) =
        outcome) :
    Inv platform (finish platform flight outcome s) ∧
      Replies (finish platform flight outcome s) := by
  have honly := h.only hflight
  have hflying := h.flights flight hflight
  have hnone : s.inFlight.filter (fun other => other.request ≠ flight.request) = [] := by
    rw [honly]
    simp
  have hlater : ∀ other ∈ s.queue, flight.request.id ≠ other.id := fun other hother =>
    (h.flight_lt (h.waiting other hother) hflight).ne
  have hsettled := h.settled (List.Sublist.refl s.queue) (List.nil_sublist s.inFlight)
    (fun _ : false = false => rfl) hflying.submitted hflying.unsettled hlater nofun
    (fun other hother => by
      rw [honly, List.mem_singleton] at hother
      exact .inr (by rw [hother])) hown
  unfold ControlClient.finish drain
  dsimp only
  rw [hnone]
  exact drainQueue_inv s.queue hsettled nofun

/-- The request in flight fails, and its connection is free. -/
theorem Inv.fail (h : Inv platform s) {flight : InFlight} (hflight : flight ∈ s.inFlight)
    {code : ControlError} (hcode : code ≠ .daemonError) :
    Inv platform (fail platform flight code s) ∧ Replies (fail platform flight code s) := by
  have hreason : (if s.isClosed then .clientClosed else code) ≠ ControlError.daemonError := by
    split
    · decide
    · exact hcode
  exact h.finish hflight (fun hread => absurd hread (fromDaemon_error hreason))

/-- A chunk is refused for the form of the response. -/
theorem onData_error {reply : Reply} {chunk : Bytes} {code : ControlError}
    (h : onData reply chunk = .error code) : code = .protocolInvalid := by
  unfold onData at h
  dsimp only at h
  split at h
  · exact (Except.error.inj h).symm
  · split at h
    · cases h
    · split at h
      · exact (Except.error.inj h).symm
      · cases h

/-- A chunk is noted for the request in flight. -/
theorem Inv.received (h : Inv platform s) {flight : InFlight} (hflight : flight ∈ s.inFlight)
    (chunk : Bytes) :
    Inv platform { s with log := s.log ++ [.received flight.request.id chunk] } := by
  have haside : Aside (.received flight.request.id chunk) := ⟨nofun, nofun⟩
  refine ⟨h.single, h.idle, fun hmem => ?_, fun signal => ?_, h.sorted,
    fun other hother => (h.waiting other hother).aside haside,
    fun other hother => (h.flights other hother).aside haside, h.pending_aside haside,
    h.recorded.concat trivial nofun (fun id other heq => ?_)⟩
  · exact h.closed ((mem_concat.mp hmem).resolve_right nofun)
  · rw [mem_concat, h.fired signal]
    exact or_iff_left nofun
  · cases heq
    exact ⟨flight.request, (h.flights flight hflight).opened, rfl⟩

/-- The variables of the request in flight change. -/
theorem Inv.update (h : Inv platform s) {flight changed : InFlight} (hflight : flight ∈ s.inFlight)
    (hsame : changed.request = flight.request) :
    Inv platform (update flight changed s) ∧ (update flight changed s).inFlight = [changed] := by
  have honly := h.only hflight
  have hlist : s.inFlight.map (fun other => if other = flight then changed else other) =
      [changed] := by
    rw [honly]
    simp
  have hidle : s.running = false → [changed] = [] := by
    intro hidle
    rw [h.idle hidle] at honly
    cases honly
  unfold ControlClient.update
  rw [hlist]
  refine ⟨⟨le_refl 1, hidle, h.closed, h.fired, h.sorted, h.waiting, fun other hother => ?_,
    fun other hmem => ?_, h.recorded⟩, rfl⟩
  · rw [List.mem_singleton.mp hother, hsame]
    exact h.flights flight hflight
  · refine (h.pending other hmem).imp_right ?_
    rintro ⟨running, hrunning, hrequest⟩
    rw [honly, List.mem_singleton] at hrunning
    refine ⟨changed, List.mem_singleton.mpr rfl, ?_⟩
    rw [hsame, ← hrequest, hrunning]

/-- A chunk arrives: it is noted, or it fails the request it came for. -/
theorem Inv.receive (h : Inv platform s) (hreplies : Replies s) {flight : InFlight}
    (hflight : flight ∈ s.inFlight) (chunk : Bytes) :
    Inv platform (receive platform flight chunk s) ∧
      Replies (receive platform flight chunk s) := by
  have hnoted := h.received hflight chunk
  unfold ControlClient.receive
  dsimp only
  cases hdata : onData flight.reply chunk with
  | error code =>
    refine hnoted.fail hflight ?_
    rw [onData_error hdata]
    decide
  | ok reply =>
    have hsame : ({ flight with reply := reply } : InFlight).request = flight.request := rfl
    have hchanged := hnoted.update hflight hsame
    refine ⟨hchanged.1, fun other hother => ?_⟩
    rw [hchanged.2, List.mem_singleton] at hother
    have hbefore := hreplies flight hflight
    have hlog : receivedBy flight.request.id (s.log ++ [.received flight.request.id chunk]) =
        receivedBy flight.request.id s.log ++ [chunk] := receivedBy_received _ _ _
    rw [hother]
    change (receivedBy flight.request.id
      (s.log ++ [.received flight.request.id chunk])).foldlM onData {} = .ok reply
    rw [hlog, List.foldlM_append, hbefore, ok_bind, List.foldlM_cons, hdata, ok_bind]
    rfl

/-- The stream ends: the request in flight is settled with what was received. -/
theorem Inv.endOf (h : Inv platform s) (hreplies : Replies s) {flight : InFlight}
    (hflight : flight ∈ s.inFlight) :
    Inv platform (endOf platform flight s) ∧ Replies (endOf platform flight s) := by
  unfold ControlClient.endOf
  split
  · exact h.fail hflight (by decide)
  · next hsaw =>
    refine h.finish hflight (fun _ => ?_)
    unfold settle
    rw [hreplies flight hflight, ok_bind, onEnd, if_neg hsaw]

/-- A signal that fires is noted. -/
theorem Inv.noteFired (h : Inv platform s) (signal : ℕ) :
    Inv platform { s with fired := s.fired ++ [signal], log := s.log ++ [.fired signal] } := by
  have haside : Aside (.fired signal) := ⟨nofun, nofun⟩
  refine ⟨h.single, h.idle, fun hmem => ?_, fun other => ?_, h.sorted,
    fun other hother => (h.waiting other hother).aside haside,
    fun other hother => (h.flights other hother).aside haside, h.pending_aside haside,
    h.recorded.concat trivial nofun nofun⟩
  · exact h.closed ((mem_concat.mp hmem).resolve_right nofun)
  · rw [mem_concat, h.fired other, List.mem_append, List.mem_singleton]
    refine or_congr_right ⟨fun heq => ?_, fun heq => ?_⟩
    · cases heq
      rfl
    · rw [heq]

/-- Something that concerns no stream is noted. -/
theorem Replies.aside (h : Replies s) {t : Client} (hflights : t.inFlight = s.inFlight)
    (hlog : t.log = s.log ++ [entry]) (hnone : ∀ id chunk, entry ≠ .received id chunk) :
    Replies t := by
  intro flight hflight
  rw [hflights] at hflight
  rw [hlog, receivedBy_concat _ _ _ (hnone flight.request.id)]
  exact h flight hflight

/-- A signal that fires is noted, and fails the request in flight that listens to it. -/
theorem Inv.abort (h : Inv platform s) (hreplies : Replies s) (signal : ℕ) :
    Inv platform (abort platform signal s) ∧ Replies (abort platform signal s) := by
  unfold ControlClient.abort
  split
  · exact ⟨h, hreplies⟩
  · have hnoted := h.noteFired signal
    have hkept : Replies { s with fired := s.fired ++ [signal], log := s.log ++ [.fired signal] } :=
      hreplies.aside rfl rfl nofun
    dsimp only
    split
    · exact ⟨hnoted, hkept⟩
    · next flight hfound => exact hnoted.fail (List.mem_of_find?_eq_some hfound) (by decide)

/-- The client is closed: what is in flight fails, and what waits is rejected. -/
theorem Inv.close (h : Inv platform s) (hreplies : Replies s) :
    Inv platform (close s) ∧ Replies (close s) := by
  unfold ControlClient.close
  split
  · exact ⟨h, hreplies⟩
  · have haside : Aside .closed := ⟨nofun, nofun⟩
    have hclosed : Inv platform { s with isClosed := true, log := s.log ++ [.closed] } := by
      refine ⟨h.single, h.idle, fun _ => rfl, fun signal => ?_, h.sorted,
        fun other hother => (h.waiting other hother).aside haside,
        fun other hother => (h.flights other hother).aside haside, h.pending_aside haside,
        h.recorded.concat trivial nofun nofun⟩
      rw [mem_concat, h.fired signal]
      exact or_iff_left nofun
    have hkept : Replies { s with isClosed := true, queue := [], log := s.log ++ [.closed] } :=
      hreplies.aside rfl rfl nofun
    have hrejected : ∀ (queue : List Request) (t : Client), t.queue = [] →
        Inv platform { t with queue := queue } → Replies t →
          Inv platform (queue.foldl (fun s request => reject request .clientClosed s) t) ∧
            Replies (queue.foldl (fun s request => reject request .clientClosed s) t) := by
      intro queue
      induction queue with
      | nil =>
        intro t hqueue ht hreplies
        refine ⟨?_, hreplies⟩
        rw [← hqueue] at ht
        exact ht
      | cons request rest ih =>
        intro t hqueue ht hreplies
        have hwaiting : Waiting t.log request := ht.waiting request List.mem_cons_self
        have hsorted := List.pairwise_cons.mp ht.sorted
        have hstep : Inv platform { reject request .clientClosed t with queue := rest } :=
          ht.settled (List.sublist_cons_self request rest) (List.Sublist.refl t.inFlight) ht.idle
            hwaiting.submitted hwaiting.unsettled (fun other hother => (hsorted.1 other hother).ne)
            (fun flight hflight => (ht.flight_lt hwaiting hflight).ne')
            (fun flight hflight => .inl hflight) nofun
        exact ih _ hqueue hstep (hreplies.aside rfl rfl nofun)
    exact hrejected s.queue _ rfl hclosed hkept

/-- A call keeps the invariant, whether it is rejected, opens its stream or waits. -/
theorem Inv.submit (h : Inv platform s) (hreplies : Replies s) (command : Command)
    (signal : Option ℕ) (connects : Bool) :
    Inv platform (submit platform command signal connects s) ∧
      Replies (submit platform command signal connects s) := by
  have hnumber : (⟨s.submissions, command, signal, connects⟩ : Request).id = s.submissions := rfl
  have hnoted := h.submitted hnumber
  have hkept : Replies { s with
      submissions := s.submissions + 1
      log := s.log ++ [.submitted ⟨s.submissions, command, signal, connects⟩] } :=
    hreplies.aside rfl rfl nofun
  have hlast : ∀ other ∈ s.queue, other.id < s.submissions := fun other hother =>
    h.recorded.numbers other (h.waiting other hother).submitted
  have hrejected : ∀ code, code ≠ .daemonError →
      Inv platform (reject ⟨s.submissions, command, signal, connects⟩ code
      { s with
        submissions := s.submissions + 1
        log := s.log ++ [.submitted ⟨s.submissions, command, signal, connects⟩] }) ∧
      Replies (reject ⟨s.submissions, command, signal, connects⟩ code { s with
        submissions := s.submissions + 1
        log := s.log ++ [.submitted ⟨s.submissions, command, signal, connects⟩] }) := by
    intro code hcode
    refine ⟨?_, hkept.aside rfl rfl nofun⟩
    exact hnoted.1.settled (List.Sublist.refl s.queue) (List.Sublist.refl s.inFlight) hnoted.1.idle
      hnoted.2.submitted hnoted.2.unsettled (fun other hother => (hlast other hother).ne')
      (fun flight hflight => (hnoted.1.flight_lt hnoted.2 hflight).ne')
      (fun flight hflight => .inl hflight)
      (fun hread => absurd hread (fromDaemon_error hcode))
  unfold ControlClient.submit
  dsimp only
  split
  · exact hrejected .queryInvalid (by decide)
  · split
    · exact hrejected .clientClosed (by decide)
    · exact drainQueue_inv _ (hnoted.1.enqueued hnoted.2 hlast) hkept

/-- Every event keeps what holds of a client. -/
theorem Inv.step (h : Inv platform s ∧ Replies s) (event : ControlEvent) :
    Inv platform (step platform s event) ∧ Replies (step platform s event) := by
  obtain ⟨hinv, hreplies⟩ := h
  have htell : ∀ (id : ℕ) (act : InFlight → Client → Client),
      (∀ flight ∈ s.inFlight, Inv platform (act flight s) ∧ Replies (act flight s)) →
        Inv platform (tell id act s) ∧ Replies (tell id act s) := by
    intro id act hact
    unfold ControlClient.tell
    cases hflight : flightOf s id with
    | none => exact ⟨hinv, hreplies⟩
    | some flight => exact hact flight (List.mem_of_find?_eq_some hflight)
  cases event with
  | submit command signal connects => exact hinv.submit hreplies command signal connects
  | abort signal => exact hinv.abort hreplies signal
  | connected id =>
    refine htell id _ (fun flight hflight => ?_)
    have hsame : ({ flight with connectTimer := false } : InFlight).request = flight.request := rfl
    obtain ⟨hchanged, honly⟩ := hinv.update hflight hsame
    refine ⟨hchanged, fun other hother => ?_⟩
    rw [honly, List.mem_singleton] at hother
    rw [hother]
    exact hreplies flight hflight
  | data id chunk => exact htell id _ (fun flight hflight => hinv.receive hreplies hflight chunk)
  | ended id => exact htell id _ (fun flight hflight => hinv.endOf hreplies hflight)
  | errored id => exact htell id _ (fun flight hflight => hinv.fail hflight (by decide))
  | timer id which =>
    refine htell id _ (fun flight hflight => ?_)
    unfold fireTimer
    split
    · exact ⟨hinv, hreplies⟩
    · exact hinv.fail hflight (by cases which <;> decide)
  | close => exact hinv.close hreplies

/-- What holds of a client in every run. -/
theorem inv_run (events : List ControlEvent) : Inv platform (runClient platform events) := by
  have hrun := invariant (ControlClient.step platform)
    (I := fun s => Inv platform s ∧ Replies s) (fun s event h => Inv.step h event)
    ⟨inv_initial, nofun⟩ events
  exact hrun.1

end Moves

section Turns

variable {platform : ControlPlatform} {s t u : Client} {request : Request} {log : List Entry}
  {entry : Entry} {next : Option Request}

/-- An entry that opens nothing, writes nothing and tells of no signal. -/
structure Silent (entry : Entry) : Prop where
  /-- It opens no stream. -/
  opens : ∀ request, entry ≠ .opened request
  /-- It writes nothing. -/
  writes : ∀ request bytes, entry ≠ .wrote request bytes
  /-- It tells of no signal. -/
  fires : ∀ signal, entry ≠ .fired signal

/-- The entries of a turn. -/
def openings (platform : ControlPlatform) : Option Request → List Entry
  | none => []
  | some request => [.opened request, .wrote request (encodedRequest platform request.command)]

/-- From one client to the next silent entries are logged, and then those of a turn. -/
def Logs (platform : ControlPlatform) (s t : Client) (next : Option Request) : Prop :=
  ∃ before, (∀ entry ∈ before, Silent entry) ∧ t.log = s.log ++ before ++ openings platform next

/-- Nothing is logged where the log is the same. -/
theorem logs_refl (h : t.log = s.log) : Logs platform s t none :=
  ⟨[], nofun, by rw [h]; simp [openings]⟩

/-- A silent entry comes first. -/
theorem Logs.after (hlog : t.log = s.log ++ [entry]) (hsilent : Silent entry)
    (h : Logs platform t u next) : Logs platform s u next := by
  obtain ⟨before, hbefore, hrest⟩ := h
  refine ⟨entry :: before, fun other hother => ?_, ?_⟩
  · rcases List.mem_cons.mp hother with rfl | hother
    · exact hsilent
    · exact hbefore other hother
  · rw [hrest, hlog]
    simp

/-- The silent entries change nothing, and the turn may not be that of a fired signal. The first is
part of every log, the second the condition. -/
theorem Logs.unfired (h : Logs platform s t next) :
    Chronicle Unfired t.log ↔ Chronicle Unfired s.log ∧
      ∀ request signal, next = some request → request.signal = some signal →
        .fired signal ∉ s.log := by
  obtain ⟨before, hbefore, hlog⟩ := h
  have hsilent : Chronicle Unfired (s.log ++ before) ↔ Chronicle Unfired s.log := by
    clear hlog
    induction before using List.reverseRecOn with
    | nil => rw [List.append_nil]
    | append_singleton before entry ih =>
      have hentry := hbefore entry (List.mem_append_right _ List.mem_cons_self)
      have hkept := ih (fun other hother => hbefore other (List.mem_append_left _ hother))
      have hrule : Unfired (s.log ++ before) entry := by
        cases entry with
        | opened request => exact absurd rfl (hentry.opens request)
        | wrote request bytes => exact absurd rfl (hentry.writes request bytes)
        | _ => trivial
      rw [← List.append_assoc, chronicle_concat, hkept]
      exact and_iff_left hrule
  have hmem : ∀ signal, .fired signal ∈ s.log ++ before ↔ .fired signal ∈ s.log := by
    intro signal
    rw [List.mem_append]
    exact or_iff_left (fun hmem => (hbefore _ hmem).fires signal rfl)
  rw [hlog]
  cases next with
  | none =>
    unfold openings
    rw [List.append_nil, hsilent]
    exact (and_iff_left nofun).symm
  | some request =>
    have hsplit : s.log ++ before ++ openings platform (some request) =
        s.log ++ before ++ [.opened request] ++
          [.wrote request (encodedRequest platform request.command)] := by
      unfold openings
      simp
    rw [hsplit, chronicle_concat, chronicle_concat, hsilent]
    constructor
    · rintro ⟨⟨hbase, hopened⟩, -⟩
      refine ⟨hbase, fun other signal hother hsignal => ?_⟩
      cases hother
      exact fun hfired => hopened signal hsignal ((hmem signal).mpr hfired)
    · rintro ⟨hbase, hnew⟩
      have hopened : ∀ signal, request.signal = some signal →
          .fired signal ∉ s.log ++ before := fun signal hsignal hfired =>
        hnew request signal rfl hsignal ((hmem signal).mp hfired)
      refine ⟨⟨hbase, hopened⟩, fun signal hsignal hfired => hopened signal hsignal ?_⟩
      exact (mem_concat.mp hfired).resolve_right nofun

/-- To be settled is neither to be opened nor to be written nor fired. -/
theorem silent_settled (request : Request) (outcome : Outcome) :
    Silent (.settled request outcome) := ⟨nofun, nofun, nofun⟩

/-- The request whose turn comes when a queue is drained. -/
def nextTurn (platform : ControlPlatform) (queue : List Request) (s : Client) : Option Request :=
  if s.running || s.isClosed then none else queue.find? (served platform)

/-- Draining a queue opens the stream of the request whose turn comes. Those in front of it are
rejected, which is silent. -/
theorem drainQueue_logs (queue : List Request) (s : Client) :
    Logs platform s (drainQueue platform queue s) (nextTurn platform queue s) := by
  induction queue generalizing s with
  | nil =>
    have hnone : nextTurn platform [] s = none := by
      unfold nextTurn
      rw [List.find?_nil, ite_self]
    rw [hnone]
    exact logs_refl rfl
  | cons request rest ih =>
    have hrejected : ∀ code, nextTurn platform (request :: rest) s = nextTurn platform rest s →
        Logs platform s (drainQueue platform rest (reject request code s))
          (nextTurn platform (request :: rest) s) := by
      intro code hsame
      rw [hsame]
      exact (ih (reject request code s)).after rfl (silent_settled request _)
    unfold drainQueue
    split
    · next hrunning =>
      have hnone : nextTurn platform (request :: rest) s = none := by
        unfold nextTurn
        rw [hrunning, Bool.true_or, if_pos rfl]
      rw [hnone]
      exact logs_refl rfl
    · next hrunning =>
      have hidle : s.running = false := Bool.eq_false_of_not_eq_true hrunning
      split
      · next hclosed =>
        refine hrejected .clientClosed ?_
        unfold nextTurn
        rw [hclosed, Bool.or_true, if_pos rfl, if_pos rfl]
      · next hclosed =>
        have hopen : s.isClosed = false := Bool.eq_false_of_not_eq_true hclosed
        have hfind : ∀ queue, nextTurn platform queue s = queue.find? (served platform) := by
          intro queue
          unfold nextTurn
          rw [hidle, hopen, Bool.or_self, if_neg Bool.false_ne_true]
        have hunserved : served platform request = false →
            nextTurn platform (request :: rest) s = nextTurn platform rest s := by
          intro hnot
          rw [hfind, hfind, List.find?_cons_of_neg (by rw [hnot]; exact Bool.false_ne_true)]
        split
        · next hlarge =>
          refine hrejected .queryInvalid (hunserved ?_)
          unfold served
          rw [decide_eq_false (Nat.not_le.mpr hlarge), Bool.false_and]
        · next hsmall =>
          split
          · next hthrows =>
            have hno : request.connects = false := by simpa using hthrows
            refine hrejected .transportError (hunserved ?_)
            unfold served
            rw [hno, Bool.and_false]
          · next hconnects =>
            have hserved : served platform request = true := by
              unfold served
              rw [decide_eq_true (Nat.le_of_not_lt hsmall), Bool.true_and]
              simpa using hconnects
            rw [hfind, List.find?_cons_of_pos hserved]
            exact ⟨[], nofun, by simp [ControlClient.openStream, openings]⟩

/-- The turn that comes when the request in flight is settled. -/
theorem finish_logs (flight : InFlight) (outcome : Outcome) (s : Client) :
    Logs platform s (finish platform flight outcome s)
      (if s.isClosed then none else s.queue.find? (served platform)) := by
  have hdrained := @drainQueue_logs platform s.queue { s with
    running := false
    inFlight := s.inFlight.filter (fun other => other.request ≠ flight.request)
    log := s.log ++ [.settled flight.request outcome] }
  have hturn : nextTurn platform s.queue { s with
      running := false
      inFlight := s.inFlight.filter (fun other => other.request ≠ flight.request)
      log := s.log ++ [.settled flight.request outcome] } =
        if s.isClosed then none else s.queue.find? (served platform) := by
    unfold nextTurn
    rw [Bool.false_or]
  rw [hturn] at hdrained
  exact hdrained.after rfl (silent_settled flight.request outcome)

/-- An event that frees an open client gives the turn to the first request that gets a stream. -/
theorem turn_of_frees {event : ControlEvent} (h : frees s event = true) :
    turn platform s event =
      if s.isClosed then none else (waitingAt s event).find? (served platform) := by
  unfold turn
  rw [h, Bool.not_true, Bool.or_false]

/-- Any other event gives the turn to nobody. -/
theorem turn_of_not_frees {event : ControlEvent} (h : frees s event = false) :
    turn platform s event = none := by
  unfold turn
  rw [h, Bool.not_false, Bool.or_true, if_pos rfl]

/-- A call is noted as submitted; then it is rejected, opens its stream, or joins the queue. -/
theorem submit_logs (command : Command) (signal : Option ℕ) (connects : Bool) :
    Logs platform s (submit platform command signal connects s)
      (turn platform s (.submit command signal connects)) := by
  have hnoted : Silent (.submitted ⟨s.submissions, command, signal, connects⟩) :=
    ⟨nofun, nofun, nofun⟩
  have hrejected : ∀ code, Logs platform s
      (reject ⟨s.submissions, command, signal, connects⟩ code { s with
        submissions := s.submissions + 1
        log := s.log ++ [.submitted ⟨s.submissions, command, signal, connects⟩] }) none := by
    intro code
    refine Logs.after rfl hnoted (Logs.after rfl (silent_settled _ _) (logs_refl rfl))
  have hfrees : frees s (.submit command signal connects) =
      (validCommand command && !s.running) := rfl
  have hline : waitingAt s (.submit command signal connects) =
      s.queue ++ [⟨s.submissions, command, signal, connects⟩] := rfl
  unfold submit
  dsimp only
  split
  · next hinvalid =>
    have hvalid : validCommand command = false := by simpa using hinvalid
    rw [turn_of_not_frees (by rw [hfrees, hvalid, Bool.false_and])]
    exact hrejected .queryInvalid
  · next hvalid =>
    have haccepted : validCommand command = true := by simpa using hvalid
    split
    · next hclosed =>
      have hnone : turn platform s (.submit command signal connects) = none := by
        unfold turn
        rw [hclosed, Bool.true_or, if_pos rfl]
      rw [hnone]
      exact hrejected .clientClosed
    · next hopen =>
      have hturn : turn platform s (.submit command signal connects) =
          nextTurn platform (s.queue ++ [⟨s.submissions, command, signal, connects⟩]) { s with
            submissions := s.submissions + 1
            queue := s.queue ++ [⟨s.submissions, command, signal, connects⟩]
            log := s.log ++ [.submitted ⟨s.submissions, command, signal, connects⟩] } := by
        unfold turn nextTurn
        rw [hfrees, hline, haccepted, Bool.true_and, Bool.not_not, Bool.or_comm]
      rw [hturn]
      exact (drainQueue_logs _ _).after rfl hnoted

/-- What is logged when the request in flight with a number is told of something. -/
theorem tell_logs {id : ℕ} {act : InFlight → Client → Client} {event : ControlEvent}
    (hqueue : waitingAt s event = s.queue)
    (hnone : flightOf s id = none → frees s event = false)
    (hfreed : ∀ flight, flightOf s id = some flight → frees s event = true →
      Logs platform s (act flight s) (if s.isClosed then none else s.queue.find? (served platform)))
    (hkept : ∀ flight, flightOf s id = some flight → frees s event = false →
      Logs platform s (act flight s) none) :
    Logs platform s (tell id act s) (turn platform s event) := by
  unfold ControlClient.tell
  cases hflight : flightOf s id with
  | none =>
    rw [turn_of_not_frees (hnone hflight)]
    exact logs_refl rfl
  | some flight =>
    cases hcase : frees s event with
    | true =>
      rw [turn_of_frees hcase, hqueue]
      exact hfreed flight hflight hcase
    | false =>
      rw [turn_of_not_frees hcase]
      exact hkept flight hflight hcase

/-- A chunk logs what was received; one that is refused fails its request and lets the next one
in. -/
theorem receive_logs (flight : InFlight) (chunk : Bytes) :
    Logs platform s (receive platform flight chunk s)
      (if (onData flight.reply chunk).isOk || s.isClosed then none
        else s.queue.find? (served platform)) := by
  have hnoted : Silent (.received flight.request.id chunk) := ⟨nofun, nofun, nofun⟩
  unfold receive
  dsimp only
  cases hdata : onData flight.reply chunk with
  | error code => exact (finish_logs flight _ _).after rfl hnoted
  | ok reply => exact Logs.after rfl hnoted (logs_refl rfl)

/-- What an event logs that is not the first firing of a signal: silent entries, and the turn of the
request it frees the connection for. -/
theorem step_logs (event : ControlEvent) (hold : ∀ signal, event = .abort signal →
    signal ∈ s.fired) : Logs platform s (step platform s event) (turn platform s event) := by
  cases event with
  | submit command signal connects => exact submit_logs command signal connects
  | abort signal =>
    have hmem := hold signal rfl
    have hfrees : frees s (.abort signal) = (decide (signal ∉ s.fired) &&
      (s.inFlight.find? (fun flight => flight.request.signal = some signal)).isSome) := rfl
    have hsame : step platform s (.abort signal) = s := if_pos hmem
    rw [turn_of_not_frees (by rw [hfrees, decide_eq_false (not_not.mpr hmem), Bool.false_and]),
      hsame]
    exact logs_refl rfl
  | connected id =>
    refine tell_logs rfl (fun _ => rfl) (fun flight _ hfrees => ?_) (fun flight _ _ => logs_refl rfl)
    cases hfrees
  | data id chunk =>
    have hfrees : ∀ flight, flightOf s id = some flight →
        frees s (.data id chunk) = !(onData flight.reply chunk).isOk := by
      intro flight hflight
      unfold frees
      simp only [hflight]
    refine tell_logs rfl (fun hnone => ?_) (fun flight hflight hfreed => ?_)
      (fun flight hflight hkept => ?_)
    · unfold frees
      simp only [hnone]
    · have hreceived := @receive_logs platform s flight chunk
      rw [hfrees flight hflight, Bool.not_eq_true'] at hfreed
      rw [hfreed, Bool.false_or] at hreceived
      exact hreceived
    · have hreceived := @receive_logs platform s flight chunk
      rw [hfrees flight hflight, Bool.not_eq_false'] at hkept
      rw [hkept, Bool.true_or, if_pos rfl] at hreceived
      exact hreceived
  | ended id =>
    have hfrees : frees s (.ended id) = (flightOf s id).isSome := rfl
    refine tell_logs rfl (fun hnone => by rw [hfrees, hnone]; rfl) (fun flight _ _ => ?_)
      (fun flight hflight hkept => ?_)
    · unfold endOf
      split
      · exact finish_logs flight _ s
      · exact finish_logs flight _ s
    · rw [hfrees, hflight] at hkept
      cases hkept
  | errored id =>
    have hfrees : frees s (.errored id) = (flightOf s id).isSome := rfl
    refine tell_logs rfl (fun hnone => by rw [hfrees, hnone]; rfl)
      (fun flight _ _ => finish_logs flight _ s) (fun flight hflight hkept => ?_)
    rw [hfrees, hflight] at hkept
    cases hkept
  | timer id which =>
    have hfrees : ∀ flight, flightOf s id = some flight → frees s (.timer id which) =
        !decide (which = .connect ∧ (!flight.connectTimer) = true) := by
      intro flight hflight
      unfold frees
      simp only [hflight]
    refine tell_logs rfl (fun hnone => ?_) (fun flight hflight hfreed => ?_)
      (fun flight hflight hkept => ?_)
    · unfold frees
      simp only [hnone]
    · rw [hfrees flight hflight, Bool.not_eq_true', decide_eq_false_iff_not] at hfreed
      unfold fireTimer
      rw [if_neg hfreed]
      exact finish_logs flight _ s
    · rw [hfrees flight hflight, Bool.not_eq_false', decide_eq_true_eq] at hkept
      unfold fireTimer
      rw [if_pos hkept]
      exact logs_refl rfl
  | close =>
    have hfrees : frees s .close = false := rfl
    rw [turn_of_not_frees hfrees]
    change Logs platform s (close s) none
    have hclosed : Silent .closed := ⟨nofun, nofun, nofun⟩
    have hrejected : ∀ (queue : List Request) (t : Client), Logs platform t
        (queue.foldl (fun s request => reject request .clientClosed s) t) none := by
      intro queue
      induction queue with
      | nil => exact fun t => logs_refl rfl
      | cons request rest ih =>
        exact fun t => (ih (reject request .clientClosed t)).after rfl (silent_settled request _)
    unfold close
    split
    · exact logs_refl rfl
    · exact (hrejected s.queue _).after rfl hclosed

/-- What the first firing of a signal logs after it. -/
theorem abort_logs {signal : ℕ} (hnew : signal ∉ s.fired) :
    Logs platform { s with fired := s.fired ++ [signal], log := s.log ++ [.fired signal] }
      (step platform s (.abort signal)) (turn platform s (.abort signal)) := by
  have hfrees : frees s (.abort signal) = (decide (signal ∉ s.fired) &&
    (s.inFlight.find? (fun flight => flight.request.signal = some signal)).isSome) := rfl
  change Logs platform _ (abort platform signal s) _
  unfold abort
  rw [if_neg hnew]
  dsimp only
  cases hflight : s.inFlight.find? (fun flight => flight.request.signal = some signal) with
  | none =>
    rw [turn_of_not_frees (by rw [hfrees, hflight, Option.isSome_none, Bool.and_false])]
    exact logs_refl rfl
  | some flight =>
    rw [turn_of_frees (by rw [hfrees, hflight, decide_eq_true hnew]; rfl)]
    exact finish_logs flight _ _

/-- A step keeps that no aborted request has its turn, unless it gives one its turn. -/
theorem step_unfired (h : Inv platform s) (event : ControlEvent) :
    Chronicle Unfired (step platform s event).log ↔
      Chronicle Unfired s.log ∧ ¬FiredTurn platform s event := by
  have hold : (∀ signal, event = .abort signal → signal ∈ s.fired) →
      (Chronicle Unfired (step platform s event).log ↔
        Chronicle Unfired s.log ∧ ¬FiredTurn platform s event) := by
    intro hfired
    rw [(step_logs event hfired).unfired]
    refine and_congr_right (fun _ => ?_)
    constructor
    · rintro hturn ⟨request, signal, hnext, hsignal, hmem | heq⟩
      · exact hturn request signal hnext hsignal ((h.fired signal).mpr hmem)
      · exact hturn request signal hnext hsignal ((h.fired signal).mpr (hfired signal heq))
    · intro hnone request signal hnext hsignal hmem
      exact hnone ⟨request, signal, hnext, hsignal, .inl ((h.fired signal).mp hmem)⟩
  by_cases hfirst : ∃ signal, event = .abort signal ∧ signal ∉ s.fired
  · obtain ⟨signal, rfl, hnew⟩ := hfirst
    have hnoted : Chronicle Unfired (s.log ++ [.fired signal]) ↔ Chronicle Unfired s.log := by
      rw [chronicle_concat]
      exact and_iff_left trivial
    rw [(abort_logs hnew).unfired]
    dsimp only
    rw [hnoted]
    refine and_congr_right (fun _ => ?_)
    constructor
    · rintro hturn ⟨request, other, hnext, hsignal, hmem | heq⟩
      · exact hturn request other hnext hsignal (mem_concat.mpr (.inl ((h.fired other).mpr hmem)))
      · cases heq
        exact hturn request signal hnext hsignal (mem_concat.mpr (.inr rfl))
    · intro hnone request other hnext hsignal hmem
      rcases mem_concat.mp hmem with hmem | heq
      · exact hnone ⟨request, other, hnext, hsignal, .inl ((h.fired other).mp hmem)⟩
      · cases heq
        exact hnone ⟨request, signal, hnext, hsignal, .inr rfl⟩
  · refine hold (fun signal heq => ?_)
    by_contra hnew
    exact hfirst ⟨signal, heq, hnew⟩

end Turns

section Runs

variable {platform : ControlPlatform}

/-- No aborted request has had its turn in a run exactly if no step gave one its turn. -/
theorem unfired_run_iff (events : List ControlEvent) {s : Client}
    (h : Inv platform s ∧ Replies s) :
    Chronicle Unfired (run (step platform) s events).log ↔
      Chronicle Unfired s.log ∧
        Along (step platform) (fun s event => ¬FiredTurn platform s event) s events := by
  induction events generalizing s with
  | nil => exact (and_iff_left trivial).symm
  | cons event events ih =>
    rw [run_cons, ih (Inv.step h event), step_unfired h.1 event, and_assoc]
    rfl

/-- A run keeps every promise exactly if the turn never comes of a request whose signal has fired;
the other promises are kept in every run. -/
theorem serialized_run_iff (platform : ControlPlatform) (events : List ControlEvent) :
    Serialized platform (runClient platform events) ↔
      Along (step platform) (fun s event => ¬FiredTurn platform s event) {} events := by
  have hinv : Inv platform (runClient platform events) := inv_run events
  have hfired := @unfired_run_iff platform events {} ⟨inv_initial, nofun⟩
  constructor
  · intro h
    exact (hfired.mp h.unfired).2
  · intro h
    exact ⟨hinv.single, hinv.recorded.allowed, hfired.mpr ⟨chronicle_nil, h⟩⟩

/-- A platform for examples; nothing is parsed in them. -/
def benchControl : ControlPlatform := ⟨AttestationParsing.plainText, fun _ => none⟩

/-- A second request waits, its signal fires, and the stream of the first request fails. -/
def benchAborted : List ControlEvent :=
  [.submit (.query .peers) none true, .submit (.query .links) (some 0) true, .abort 0, .errored 0]

/-- The client with an aborted request in its queue opens a stream for it. -/
theorem not_serialized :
    ¬∀ (platform : ControlPlatform) (events : List ControlEvent),
      Serialized platform (runClient platform events) := by
  intro h
  have hstart : Inv benchControl {} ∧ Replies {} := ⟨inv_initial, nofun⟩
  have halong := ((unfired_run_iff benchAborted hstart).mp (h benchControl benchAborted).unfired).2
  obtain ⟨-, -, -, hlast, -⟩ := halong
  exact hlast ⟨⟨1, .query .links, some 0, true⟩, 0, by decide +kernel, rfl, .inl (by decide +kernel)⟩

end Runs

end Fipwave.ControlSerialization
