import Fipwave.CyrinxWorker

/-!
# What overtaken commands of a native worker can do

A command that ends after its case was reset or rejected changes nothing. A
case is delivered once, played frames follow each other, and a decoder is
started once a case, with a whole capture. All of it follows from what one
move can do to a worker.
-/

namespace Fipwave.WorkerGenerations

open Relation ByteWords SpanTiling FwavProtocol QualificationSession CyrinxMetadata CyrinxWorker
  TransitionRun

section Readings

/-- An answer that delivers nothing. -/
def Silent (answer : Answer) : Prop := answer = .nothing ∨ ∃ reason, answer = .threw reason

/-- The case an answer delivers. -/
def delivery : Answer → Option CaseIdentity
  | .playback identity _ => some identity
  | .result result => some ⟨result.epoch, result.direction, result.caseId⟩
  | .nothing | .threw _ => none

/-- The frame an answer plays. -/
def played : Answer → Option Bytes
  | .playback _ encoded => some encoded
  | .nothing | .result _ | .threw _ => none

variable {answer : Answer}

/-- A silent answer delivers nothing. -/
theorem Silent.delivery (h : Silent answer) : delivery answer = none := by
  rcases h with rfl | ⟨reason, rfl⟩ <;> rfl

/-- A silent answer plays nothing. -/
theorem Silent.played (h : Silent answer) : played answer = none := by
  rcases h with rfl | ⟨reason, rfl⟩ <;> rfl

/-- First sample index and samples of an encoded PCM frame. -/
def framePcm (encoded : Bytes) : Option (ℕ × Bytes) :=
  match decodeFrame encoded with
  | .error _ => none
  | .ok frame => (readPcmPayload frame.payload 1).toOption

/-- Number of samples of a span. -/
def spanSamples (span : ℕ × Bytes) : ℕ := sampleCount span.2

variable {active : ActiveCase} {last : ℤ} {encoded : Bytes} {frame : FwavFrame} {index : ℕ}
  {samples : Bytes}

/-- The samples of a PCM payload are whole. -/
theorem readPcmPayload_whole {payload : Bytes}
    (h : readPcmPayload payload 1 = .ok (index, samples)) : samples.length = 4 * sampleCount samples := by
  unfold readPcmPayload at h
  cases hdecode : decodePcmPayload payload 1 with
  | error reason =>
    rw [hdecode] at h
    cases h
  | ok value =>
    rw [hdecode] at h
    cases h
    unfold decodePcmPayload at hdecode
    split at hdecode
    · cases hdecode
    · split at hdecode
      · cases hdecode
      · next hwhole =>
        unfold sampleCount
        rw [List.length_drop]
        omega

/-- What a captured frame is that is not refused. -/
structure Admitted (active : ActiveCase) (encoded : Bytes) (index : ℕ) (samples : Bytes) :
    Prop where
  /-- It is the payload of a frame. -/
  read : framePcm encoded = some (index, samples)
  /-- Its samples are whole. -/
  whole : samples.length = 4 * sampleCount samples
  /-- It is not empty. -/
  pos : 0 < sampleCount samples
  /-- It begins where the capture ends. -/
  next : index = active.nextSampleIndex
  /-- It fits. -/
  fits : active.samples + sampleCount samples ≤ cyrinxCaptureWindowSamples

/-- A capture is admitted as the next block of the case it names, with whole samples in it. -/
theorem captureOf_ok (h : captureOf active last encoded = .ok (frame, index, samples)) :
    Admitted active encoded index samples := by
  unfold captureOf at h
  cases hframe : decodeFrame encoded with
  | error reason =>
    rw [hframe] at h
    cases h
  | ok decoded =>
    rw [hframe] at h
    dsimp only at h
    split at h
    · cases h
    · split at h
      · cases h
      · cases hread : readPcmPayload decoded.payload 1 with
        | error reason =>
          rw [hread] at h
          cases h
        | ok pcm =>
          obtain ⟨first, chunk⟩ := pcm
          rw [hread] at h
          dsimp only at h
          split at h
          · cases h
          · next hsound =>
            split at h
            · cases h
            · next hnext =>
              split at h
              · cases h
              · next hfits =>
                cases h
                have hpos : 0 < sampleCount samples := by
                  have hne : sampleCount samples ≠ 0 := fun hzero => hsound (.inl hzero)
                  omega
                refine ⟨?_, readPcmPayload_whole hread, hpos, not_not.mp hnext, not_lt.mp hfits⟩
                unfold framePcm
                rw [hframe]
                dsimp only
                rw [hread]
                rfl

end Readings

section Moves

/-- What a worker can do at once. -/
inductive Move : World → World → Prop where
  /-- A call returns nothing or throws. -/
  | replies {w : World} {answer : Answer} (h : Silent answer) : Move w (reply answer w)
  /-- A command ends. -/
  | ends {w : World} (index : ℕ) : Move w { w with ended := index :: w.ended }
  /-- A case begins. -/
  | owns {w : World} {value : CyrinxCase} {epoch : ℤ} {mode : CyrinxCaseMode} {block : Bytes}
      {now : ℚ} (hfree : w.worker.active = none)
      (hepoch : w.worker.epoch = none ∨ w.worker.epoch = some epoch)
      (hnew : identity value epoch ∉ w.worker.delivered) : Move w (own value epoch mode block now w)
  /-- The case in hand is rejected. -/
  | rejects {w : World} (reason : String) : Move w (reject reason w)
  /-- A frame is played. -/
  | plays {w : World} {active : ActiveCase} {samples payload encoded : Bytes}
      (hactive : w.worker.active = some active) (hlength : samples.length = pcmBytes)
      (hpayload : encodePcmPayload w.worker.playbackSampleIndex samples = .ok payload)
      (hencoded : encodeFrame
        (playbackFrame active.epoch.toNat w.worker.outboundSequence payload) = .ok encoded) :
      Move w (deliver active (.playback (identity active.value active.epoch) encoded)
        { w with worker := { w.worker with
          outboundSequence := w.worker.outboundSequence + 1
          playbackSampleIndex :=
            w.worker.playbackSampleIndex + (cyrinxFrameSamples + cyrinxGuardSamples) } })
  /-- A result is returned. -/
  | results {w : World} {active : ActiveCase} {body : Bytes} {now : ℚ}
      (hactive : w.worker.active = some active) :
      Move w (deliver active (.result (resultOf active body now)) w)
  /-- A frame is captured. -/
  | captures {w : World} {active : ActiveCase} {encoded samples : Bytes} {index : ℕ} (last : ℤ)
      (hactive : w.worker.active = some active)
      (hadmitted : Admitted (withPending active encoded) encoded index samples) :
      Move w { w with worker := { w.worker with
        lastCaptureSequence := last
        active := some (withCapture (withPending active encoded) encoded samples) } }
  /-- The capture is whole and is decoded. -/
  | decodes {w : World} {active : ActiveCase} (hactive : w.worker.active = some active)
      (hdecoded : active.decoded = false) (hwhole : cyrinxCaptureWindowSamples ≤ active.samples) :
      Move w (startJob .decode (concatTo (cyrinxCaptureWindowSamples * 4) active.chunks)
        { active with decoded := true }
        { w with worker := { w.worker with active := some { active with decoded := true } } })
  /-- The worker is reset. -/
  | resets {w : World} : Move w (reset w)

variable {w : World}

/-- To answer nothing is silent. -/
theorem silent_nothing : Silent .nothing := .inl rfl

/-- To throw is silent. -/
theorem silent_threw (reason : String) : Silent (.threw reason) := .inr ⟨reason, rfl⟩

/-- A call of `begin` is one move: it owns a case, or is answered. -/
theorem move_beginCase (value : CyrinxCase) (epoch : ℤ) (mode : Option CyrinxCaseMode) (now : ℚ)
    (w : World) : Move w (beginCase value epoch mode now w) := by
  unfold beginCase
  cases mode with
  | none => exact .replies (silent_threw _)
  | some mode =>
    dsimp only
    split
    · exact .replies (silent_threw _)
    · next hfree =>
      split
      · exact .replies (silent_threw _)
      · next hepoch =>
        split
        · exact .replies (silent_threw _)
        · split
          · exact .replies (silent_threw _)
          · next hnew =>
            have hnone : w.worker.active = none := by
              rw [← Option.not_isSome_iff_eq_none]
              exact hfree
            refine .owns hnone ?_ hnew
            by_contra hother
            exact hepoch (not_or.mp hother)

/-- The case in hand after the encoder. -/
theorem move_completeEncode {active : ActiveCase} (hactive : w.worker.active = some active)
    (outcome : Option CommandResult) : Move w (completeEncode active outcome w) := by
  unfold completeEncode
  cases outcome with
  | none => exact .rejects _
  | some response =>
    dsimp only
    split
    · exact .rejects _
    · split
      · exact .rejects _
      · next hresponse =>
        have hlength : response.stdout.length = pcmBytes := by
          by_contra hother
          exact hresponse (.inr hother)
        cases hpayload : encodePcmPayload w.worker.playbackSampleIndex response.stdout with
        | error reason => exact .replies (silent_threw reason)
        | ok payload =>
          dsimp only [Except.bind, bind]
          cases hencoded : encodeFrame
              (playbackFrame active.epoch.toNat w.worker.outboundSequence payload) with
          | error reason => exact .replies (silent_threw reason)
          | ok encoded => exact .plays hactive hlength hpayload hencoded

/-- The case in hand after the decoder. -/
theorem move_completeDecode {active : ActiveCase} (hactive : w.worker.active = some active)
    (outcome : Option CommandResult) (now : ℚ) : Move w (completeDecode active outcome now w) := by
  unfold completeDecode
  cases outcome with
  | none => exact .rejects _
  | some response =>
    dsimp only
    split
    · exact .rejects _
    · split
      · exact .rejects _
      · split
        · exact .rejects _
        · exact .results hactive

/-- A job that was overtaken ends by a move. -/
theorem move_overtaken (job : Job) (w : World) : Move w (complete.overtaken job w) := by
  unfold complete.overtaken
  cases job.command with
  | encode => exact .replies (silent_threw _)
  | decode => exact .replies silent_nothing

/-- A step is at most two moves. -/
theorem moves_step (w : World) (event : Event) : ReflTransGen Move w (step w event) := by
  cases event with
  | beginCase value epoch mode now => exact .single (move_beginCase value epoch mode now w)
  | reset => exact .single .resets
  | complete index outcome now =>
    change ReflTransGen Move w (complete index outcome now w)
    unfold complete
    split
    · exact .refl
    · next job _ =>
      split
      · exact .refl
      · have hends : Move w { w with ended := index :: w.ended } := .ends index
        refine ReflTransGen.head hends (.single ?_)
        dsimp only
        split
        · exact move_overtaken job _
        · next active hactive =>
          have hsame : ({ w with ended := index :: w.ended } : World).worker.active = some active :=
            hactive
          split
          · exact move_overtaken job _
          · split
            · exact move_completeEncode hsame outcome
            · exact move_completeDecode hsame outcome now
  | receiveCapture encoded =>
    change ReflTransGen Move w (receiveCapture encoded w)
    unfold receiveCapture
    split
    · exact .single (.replies silent_nothing)
    · next active hactive =>
      split
      · exact .single (.replies silent_nothing)
      · next hlistens =>
        dsimp only
        split
        · exact .single (.rejects _)
        · next frame index samples hcapture =>
          have hcaptures : Move w _ :=
            .captures (frame.sequence : ℤ) hactive (captureOf_ok hcapture)
          have hdecoded : active.decoded = false := by
            by_contra hother
            exact hlistens (.inr (by simpa using hother))
          refine ReflTransGen.head hcaptures (.single ?_)
          split
          · exact .replies silent_nothing
          · next hwhole =>
            exact .decodes rfl hdecoded (not_lt.mp hwhole)

end Moves

section Owners

/-- Cases, their commands and their generations. -/
structure Owned (w : World) : Prop where
  /-- The case in hand has the latest generation. -/
  current : ∀ active ∈ w.worker.active,
    active.generation = w.worker.generation ∧ w.cases[active.number]? = some .current
  /-- A command has the generation and the number of a case that began. -/
  started : ∀ job ∈ w.jobs, job.generation ≤ w.worker.generation ∧ job.number < w.cases.length
  /-- A command of the generation of the case in hand belongs to this case. -/
  belongs : ∀ active ∈ w.worker.active, ∀ job ∈ w.jobs, job.generation = active.generation →
    job.number = active.number
  /-- The case in hand notes that it is decoded. -/
  decoding : ∀ active ∈ w.worker.active, ∀ job ∈ w.jobs, job.command = .decode →
    job.number = active.number → active.decoded = true
  /-- A case is decoded once. -/
  decodedOnce : ((w.jobs.filter (fun job => job.command = .decode)).map Job.number).Nodup

variable {w w' : World}

/-- The case that was active stays on record with its fate. -/
theorem length_clearActive (fate : Fate) (w : World) :
    (clearActive fate w).cases.length = w.cases.length := by
  unfold clearActive
  dsimp only
  split
  · rfl
  · exact List.length_set

/-- Nobody is left in hand. -/
theorem owned_clearActive (h : Owned w) (hfree : w'.worker.active = none)
    (hgeneration : w.worker.generation ≤ w'.worker.generation) (hjobs : w'.jobs = w.jobs)
    (hcases : w'.cases.length = w.cases.length) : Owned w' := by
  have hnone : ∀ active, active ∉ w'.worker.active := by
    intro active hactive
    rw [hfree] at hactive
    cases hactive
  refine ⟨fun active hactive => absurd hactive (hnone active), ?_,
    fun active hactive => absurd hactive (hnone active),
    fun active hactive => absurd hactive (hnone active), ?_⟩
  · rw [hjobs, hcases]
    intro job hjob
    obtain ⟨hle, hlt⟩ := h.started job hjob
    exact ⟨hle.trans hgeneration, hlt⟩
  · rw [hjobs]
    exact h.decodedOnce

/-- A case begins under a new number and generation, so no job under way is for it. -/
theorem owned_own (h : Owned w) (value : CyrinxCase) (epoch : ℤ) (mode : CyrinxCaseMode)
    (block : Bytes) (now : ℚ) : Owned (own value epoch mode block now w) := by
  have hold : ∀ job ∈ w.jobs, job.generation ≤ w.worker.generation + 1 ∧
      job.number < (w.cases ++ [Fate.current]).length := by
    intro job hjob
    obtain ⟨hle, hlt⟩ := h.started job hjob
    rw [List.length_append]
    exact ⟨hle.trans (Nat.le_succ _), Nat.lt_add_right _ hlt⟩
  have hlast : (w.cases ++ [Fate.current])[w.cases.length]? = some .current := by simp
  have hnew : w.cases.length < (w.cases ++ [Fate.current]).length := by simp
  have hother : ∀ job ∈ w.jobs, job.generation ≠ w.worker.generation + 1 := by
    intro job hjob
    have hle := (h.started job hjob).1
    omega
  have hnumber : ∀ job ∈ w.jobs, job.number ≠ w.cases.length := by
    intro job hjob
    exact (h.started job hjob).2.ne
  unfold own
  cases mode with
  | listen =>
    refine ⟨?_, hold, ?_, ?_, h.decodedOnce⟩
    · rintro active ⟨rfl⟩
      exact ⟨rfl, hlast⟩
    · rintro active ⟨rfl⟩ job hjob hsame
      exact absurd hsame (hother job hjob)
    · rintro active ⟨rfl⟩ job hjob _ hsame
      exact absurd hsame (hnumber job hjob)
  | transmit =>
    refine ⟨?_, ?_, ?_, ?_, ?_⟩
    · rintro active ⟨rfl⟩
      exact ⟨rfl, hlast⟩
    · intro job hjob
      rcases List.mem_append.mp hjob with hjob | hjob
      · exact hold job hjob
      · rw [List.mem_singleton.mp hjob]
        exact ⟨le_rfl, hnew⟩
    · rintro active ⟨rfl⟩ job hjob hsame
      rcases List.mem_append.mp hjob with hjob | hjob
      · exact absurd hsame (hother job hjob)
      · rw [List.mem_singleton.mp hjob]
    · rintro active ⟨rfl⟩ job hjob hdecode hsame
      rcases List.mem_append.mp hjob with hjob | hjob
      · exact absurd hsame (hnumber job hjob)
      · rw [List.mem_singleton.mp hjob] at hdecode
        cases hdecode
    · change (((w.jobs ++ [_]).filter _).map _).Nodup
      rw [List.filter_append, List.filter_cons_of_neg (by simp), List.filter_nil, List.append_nil]
      exact h.decodedOnce

/-- A decoder is started for the case in hand. -/
theorem owned_decodes (h : Owned w) {active : ActiveCase} (hactive : w.worker.active = some active)
    (hdecoded : active.decoded = false) (payload : Bytes) :
    Owned (startJob .decode payload { active with decoded := true }
      { w with worker := { w.worker with active := some { active with decoded := true } } }) := by
  obtain ⟨hgeneration, hcurrent⟩ := h.current active hactive
  have hlt : active.number < w.cases.length := by
    obtain ⟨hlt, -⟩ := List.getElem?_eq_some_iff.mp hcurrent
    exact hlt
  refine ⟨?_, ?_, ?_, ?_, ?_⟩
  · rintro other ⟨rfl⟩
    exact ⟨hgeneration, hcurrent⟩
  · intro job hjob
    rcases List.mem_append.mp hjob with hjob | hjob
    · exact h.started job hjob
    · rw [List.mem_singleton.mp hjob]
      exact ⟨hgeneration.le, hlt⟩
  · rintro other ⟨rfl⟩ job hjob hsame
    rcases List.mem_append.mp hjob with hjob | hjob
    · exact h.belongs active hactive job hjob hsame
    · rw [List.mem_singleton.mp hjob]
  · rintro other ⟨rfl⟩ job _ _ _
    rfl
  · change (((w.jobs ++ [_]).filter _).map _).Nodup
    rw [List.filter_append, List.filter_cons_of_pos (by simp), List.filter_nil, List.map_append,
      List.nodup_append]
    refine ⟨h.decodedOnce, List.nodup_singleton _, ?_⟩
    intro number hnumber new hnew heq
    obtain ⟨job, hjob, rfl⟩ := List.mem_map.mp hnumber
    obtain ⟨hmem, hdecode⟩ := List.mem_filter.mp hjob
    have hown : new = active.number := List.mem_singleton.mp hnew
    have hbefore := h.decoding active hactive job hmem (of_decide_eq_true hdecode) (heq.trans hown)
    rw [hdecoded] at hbefore
    cases hbefore

/-- A frame is captured by the case in hand. -/
theorem owned_captures (h : Owned w) {active : ActiveCase} (active' : ActiveCase)
    (hactive : w.worker.active = some active) (hgeneration : active'.generation = active.generation)
    (hnumber : active'.number = active.number) (hdecoded : active'.decoded = active.decoded)
    (last : ℤ) : Owned { w with worker := { w.worker with
      lastCaptureSequence := last, active := some active' } } := by
  refine ⟨?_, h.started, ?_, ?_, h.decodedOnce⟩
  · rintro other ⟨rfl⟩
    rw [hgeneration, hnumber]
    exact h.current active hactive
  · rintro other ⟨rfl⟩
    rw [hgeneration, hnumber]
    exact h.belongs active hactive
  · rintro other ⟨rfl⟩
    rw [hnumber, hdecoded]
    exact h.decoding active hactive

/-- Every move keeps what a job that waits was begun for. -/
theorem owned_move (h : Owned w) (hmove : Move w w') : Owned w' := by
  cases hmove with
  | replies hsilent => exact ⟨h.current, h.started, h.belongs, h.decoding, h.decodedOnce⟩
  | ends index => exact ⟨h.current, h.started, h.belongs, h.decoding, h.decodedOnce⟩
  | owns hfree hepoch hnew => exact owned_own h _ _ _ _ _
  | rejects reason => exact owned_clearActive h rfl (Nat.le_succ _) rfl (length_clearActive _ _)
  | plays hactive hlength hpayload hencoded =>
    exact owned_clearActive h rfl (Nat.le_succ _) rfl (length_clearActive _ _)
  | results hactive =>
    exact owned_clearActive h rfl (Nat.le_succ _) rfl (length_clearActive _ _)
  | captures last hactive hadmitted => 
    exact owned_captures h (withCapture (withPending _ _) _ _) hactive rfl rfl rfl last
  | decodes hactive hdecoded hwhole => exact owned_decodes h hactive hdecoded _
  | resets => exact owned_clearActive h rfl (Nat.le_succ _) rfl (length_clearActive _ _)

end Owners

section Deliveries

/-- Cases delivered since the last reset. -/
structure Delivered (w : World) : Prop where
  /-- The case in hand belongs to the epoch of the worker. -/
  epoch : ∀ active ∈ w.worker.active, w.worker.epoch = some active.epoch
  /-- It was not delivered. -/
  undelivered : ∀ active ∈ w.worker.active,
    identity active.value active.epoch ∉ w.worker.delivered
  /-- What was answered is what was noted. -/
  answered : w.answers.filterMap delivery = w.worker.delivered
  /-- Nothing was noted twice. -/
  nodup : w.worker.delivered.Nodup
  /-- All of it belongs to the epoch of the worker. -/
  epochs : ∀ noted ∈ w.worker.delivered, w.worker.epoch = some noted.epoch

variable {w w' : World}

/-- Nothing is delivered and no case begins. -/
theorem delivered_silent (h : Delivered w) {answer : Answer} (hsilent : Silent answer)
    (hactive : ∀ active ∈ w'.worker.active, active ∈ w.worker.active)
    (hepoch : w'.worker.epoch = w.worker.epoch) (hnoted : w'.worker.delivered = w.worker.delivered)
    (hanswers : w'.answers = w.answers ++ [answer]) : Delivered w' := by
  refine ⟨?_, ?_, ?_, ?_, ?_⟩
  · intro active hmem
    rw [hepoch]
    exact h.epoch active (hactive active hmem)
  · intro active hmem
    rw [hnoted]
    exact h.undelivered active (hactive active hmem)
  · rw [hanswers, hnoted, List.filterMap_append, h.answered, List.filterMap_cons,
      hsilent.delivery, List.filterMap_nil, List.append_nil]
  · rw [hnoted]
    exact h.nodup
  · rw [hnoted, hepoch]
    exact h.epochs

/-- The case in hand is delivered. -/
theorem delivered_deliver (h : Delivered w) {active : ActiveCase}
    (hactive : w.worker.active = some active) {answer : Answer}
    (hdelivery : delivery answer = some (identity active.value active.epoch)) (sequence index : ℕ) :
    Delivered (deliver active answer { w with worker := { w.worker with
      outboundSequence := sequence, playbackSampleIndex := index } }) := by
  have hnew := h.undelivered active hactive
  refine ⟨?_, ?_, ?_, ?_, ?_⟩
  · intro other hother
    cases hother
  · intro other hother
    cases hother
  · change (w.answers ++ [answer]).filterMap delivery = w.worker.delivered ++ [_]
    rw [List.filterMap_append, h.answered, List.filterMap_cons, hdelivery, List.filterMap_nil]
  · change (w.worker.delivered ++ [_]).Nodup
    rw [List.nodup_append]
    refine ⟨h.nodup, List.nodup_singleton _, ?_⟩
    intro noted hnoted added hadded heq
    rw [List.mem_singleton.mp hadded] at heq
    rw [heq] at hnoted
    exact hnew hnoted
  · intro noted hnoted
    rcases List.mem_append.mp hnoted with hnoted | hnoted
    · exact h.epochs noted hnoted
    · rw [List.mem_singleton.mp hnoted]
      exact h.epoch active hactive

/-- A case begins that was not delivered. -/
theorem delivered_own (h : Delivered w) {value : CyrinxCase} {epoch : ℤ}
    (hepoch : w.worker.epoch = none ∨ w.worker.epoch = some epoch)
    (hnew : identity value epoch ∉ w.worker.delivered) (mode : CyrinxCaseMode) (block : Bytes)
    (now : ℚ) : Delivered (own value epoch mode block now w) := by
  have hepochs : ∀ noted ∈ w.worker.delivered, some epoch = some noted.epoch := by
    intro noted hnoted
    have hnow := h.epochs noted hnoted
    rcases hepoch with hnone | hsame
    · rw [hnone] at hnow
      cases hnow
    · exact hsame.symm.trans hnow
  unfold own
  cases mode with
  | listen =>
    refine ⟨?_, ?_, ?_, h.nodup, hepochs⟩
    · rintro active ⟨rfl⟩
      rfl
    · rintro active ⟨rfl⟩
      exact hnew
    · change (w.answers ++ [Answer.nothing]).filterMap delivery = w.worker.delivered
      rw [List.filterMap_append, h.answered]
      exact List.append_nil _
  | transmit =>
    refine ⟨?_, ?_, h.answered, h.nodup, hepochs⟩
    · rintro active ⟨rfl⟩
      rfl
    · rintro active ⟨rfl⟩
      exact hnew

/-- Every move keeps that a case delivers once. -/
theorem delivered_move (h : Delivered w) (hmove : Move w w') : Delivered w' := by
  cases hmove with
  | replies hsilent => exact delivered_silent h hsilent (fun _ hmem => hmem) rfl rfl rfl
  | ends index => exact ⟨h.epoch, h.undelivered, h.answered, h.nodup, h.epochs⟩
  | owns hfree hepoch hnew => exact delivered_own h hepoch hnew _ _ _
  | rejects reason =>
    exact delivered_silent h (silent_threw reason) (fun _ hmem => by cases hmem) rfl rfl rfl
  | plays hactive hlength hpayload hencoded => exact delivered_deliver h hactive rfl _ _
  | results hactive => exact delivered_deliver h hactive rfl _ _
  | @captures active encoded samples index last hactive hadmitted =>
    refine ⟨?_, ?_, h.answered, h.nodup, h.epochs⟩
    · rintro other ⟨rfl⟩
      exact h.epoch active hactive
    · rintro other ⟨rfl⟩
      exact h.undelivered active hactive
  | @decodes active hactive hdecoded hwhole =>
    refine ⟨?_, ?_, h.answered, h.nodup, h.epochs⟩
    · rintro other ⟨rfl⟩
      exact h.epoch active hactive
    · rintro other ⟨rfl⟩
      exact h.undelivered active hactive
  | resets =>
    refine ⟨?_, ?_, rfl, List.nodup_nil, ?_⟩
    · intro other hother
      cases hother
    · intro other hother
      cases hother
    · intro noted hnoted
      cases hnoted

end Deliveries

section Playback

/-- The frame of a position. -/
def PlayedAt (position : ℕ) (encoded : Bytes) : Prop :=
  ∃ epoch samples payload, samples.length = pcmBytes ∧
    encodePcmPayload (position * (cyrinxFrameSamples + cyrinxGuardSamples)) samples = .ok payload ∧
    encodeFrame (playbackFrame epoch position payload) = .ok encoded

/-- Frames follow each other. -/
def InTurn (frames : List Bytes) : Prop :=
  ∀ position encoded, frames[position]? = some encoded → PlayedAt position encoded

/-- Frames played since the last reset. -/
structure Playing (w : World) : Prop where
  /-- They are counted. -/
  sequence : w.worker.outboundSequence = (w.answers.filterMap played).length
  /-- So are their samples. -/
  samples : w.worker.playbackSampleIndex =
    (w.answers.filterMap played).length * (cyrinxFrameSamples + cyrinxGuardSamples)
  /-- They follow each other. -/
  inTurn : InTurn (w.answers.filterMap played)

variable {w w' : World}

/-- What is played depends on the counters and the frames answered. -/
theorem playing_congr (h : Playing w)
    (hsequence : w'.worker.outboundSequence = w.worker.outboundSequence)
    (hindex : w'.worker.playbackSampleIndex = w.worker.playbackSampleIndex)
    (hanswers : w'.answers.filterMap played = w.answers.filterMap played) : Playing w' := by
  refine ⟨?_, ?_, ?_⟩
  · rw [hsequence, hanswers]
    exact h.sequence
  · rw [hindex, hanswers]
    exact h.samples
  · rw [hanswers]
    exact h.inTurn

/-- An answer that plays nothing adds nothing to what was played. -/
theorem filterMap_played {answer : Answer} (hplayed : played answer = none)
    (answers : List Answer) : (answers ++ [answer]).filterMap played = answers.filterMap played := by
  rw [List.filterMap_append, List.filterMap_cons, hplayed, List.filterMap_nil, List.append_nil]

/-- The next block of a playback stands behind all others. -/
theorem inTurn_append {frames : List Bytes} {encoded : Bytes} (h : InTurn frames)
    (hlast : PlayedAt frames.length encoded) : InTurn (frames ++ [encoded]) := by
  intro position other hother
  rcases Nat.lt_trichotomy position frames.length with hlt | rfl | hgt
  · rw [List.getElem?_append_left hlt] at hother
    exact h position other hother
  · rw [List.getElem?_concat_length] at hother
    cases hother
    exact hlast
  · have hnone : (frames ++ [encoded])[position]? = none := by
      rw [List.getElem?_eq_none_iff, List.length_append]
      exact hgt
    rw [hnone] at hother
    cases hother

/-- Every move keeps the blocks of a playback in their order. -/
theorem playing_move (h : Playing w) (hmove : Move w w') : Playing w' := by
  cases hmove with
  | replies hsilent => exact playing_congr h rfl rfl (filterMap_played hsilent.played _)
  | ends index => exact playing_congr h rfl rfl rfl
  | @owns value epoch mode block now hfree hepoch hnew =>
    unfold own
    cases mode with
    | listen => exact playing_congr h rfl rfl (filterMap_played rfl _)
    | transmit => exact playing_congr h rfl rfl rfl
  | rejects reason => exact playing_congr h rfl rfl (filterMap_played rfl _)
  | @plays active samples payload encoded hactive hlength hpayload hencoded =>
    have hframes : (w.answers ++
        [Answer.playback (identity active.value active.epoch) encoded]).filterMap played =
        w.answers.filterMap played ++ [encoded] := by
      rw [List.filterMap_append]
      rfl
    rw [h.samples] at hpayload
    rw [h.sequence] at hencoded
    refine ⟨?_, ?_, ?_⟩
    · change w.worker.outboundSequence + 1 = (List.filterMap played (w.answers ++ [_])).length
      rw [hframes, List.length_append, h.sequence]
      rfl
    · change w.worker.playbackSampleIndex + _ =
        (List.filterMap played (w.answers ++ [_])).length * _
      rw [hframes, List.length_append, h.samples, List.length_singleton, Nat.succ_mul]
    · change InTurn (List.filterMap played (w.answers ++ [_]))
      rw [hframes]
      exact inTurn_append h.inTurn ⟨_, samples, payload, hlength, hpayload, hencoded⟩
  | results hactive => exact playing_congr h rfl rfl (filterMap_played rfl _)
  | captures last hactive hadmitted => exact playing_congr h rfl rfl rfl
  | decodes hactive hdecoded hwhole => exact playing_congr h rfl rfl rfl
  | resets =>
    refine ⟨rfl, (Nat.zero_mul _).symm, ?_⟩
    intro position encoded hnone
    cases hnone

end Playback

section Captures

/-- Samples captured without a gap from the first one on. -/
def Contiguous (captured : List Bytes) (spans : List (ℕ × Bytes)) (samples : ℕ) : Prop :=
  captured.map framePcm = spans.map some ∧ Tiles Prod.fst spanSamples 0 spans samples

/-- What a case in hand has captured. -/
def Captures (active : ActiveCase) : Prop :=
  ∃ spans, Contiguous active.captured spans active.samples ∧
    active.chunks = spans.map Prod.snd ∧ active.nextSampleIndex = active.samples ∧
    active.samples ≤ cyrinxCaptureWindowSamples ∧
    ∀ span ∈ spans, span.2.length = 4 * spanSamples span

/-- A decoder reads all captured samples, in their order. -/
def WholeCapture (job : Job) : Prop :=
  ∃ spans, Contiguous job.captured spans cyrinxCaptureWindowSamples ∧
    job.payload = (spans.map Prod.snd).flatten

/-- Captures and what is decoded of them. -/
structure Collected (w : World) : Prop where
  /-- The case in hand. -/
  captures : ∀ active ∈ w.worker.active, Captures active
  /-- The commands. -/
  whole : ∀ job ∈ w.jobs, job.command = .decode → WholeCapture job

variable {w w' : World} {active : ActiveCase} {encoded samples : Bytes} {index : ℕ}

/-- A captured frame goes on where the capture ends. -/
theorem Captures.withCapture (h : Captures active)
    (hadmitted : Admitted (withPending active encoded) encoded index samples) :
    Captures (withCapture (withPending active encoded) encoded samples) := by
  obtain ⟨spans, ⟨hread, htiles⟩, hchunks, hnext, hfits, hwhole⟩ := h
  have hindex : index = active.samples := hadmitted.next.trans hnext
  refine ⟨spans ++ [(index, samples)], ⟨?_, ?_⟩, ?_, ?_, hadmitted.fits, ?_⟩
  · change (active.captured ++ [encoded]).map framePcm = _
    rw [List.map_append, List.map_append, hread, List.map_singleton, List.map_singleton,
      hadmitted.read]
  · exact htiles.concat hindex hadmitted.pos
  · change active.chunks ++ [samples] = _
    rw [hchunks, List.map_append]
    rfl
  · change active.nextSampleIndex + _ = active.samples + _
    rw [hnext]
  · intro span hspan
    rcases List.mem_append.mp hspan with hspan | hspan
    · exact hwhole span hspan
    · rw [List.mem_singleton.mp hspan]
      exact hadmitted.whole

/-- Chunks of whole samples have four bytes a sample. -/
theorem length_flatten_chunks {spans : List (ℕ × Bytes)}
    (hwhole : ∀ span ∈ spans, span.2.length = 4 * spanSamples span) :
    ((spans.map Prod.snd).flatten).length = 4 * (spans.map spanSamples).sum := by
  induction spans with
  | nil => rfl
  | cons span spans ih =>
    have hspan := hwhole span List.mem_cons_self
    have hrest := ih (fun other hother => hwhole other (List.mem_cons_of_mem span hother))
    simp only [List.map_cons, List.flatten_cons, List.length_append, List.sum_cons]
    omega

theorem concatTo_of_length {total : ℕ} {chunks : List Bytes} (h : chunks.flatten.length = total) :
    concatTo total chunks = chunks.flatten := by
  unfold concatTo
  exact List.take_left' h

/-- A whole capture is handed to the decoder as it is. -/
theorem Captures.wholeCapture (h : Captures active)
    (hwindow : cyrinxCaptureWindowSamples ≤ active.samples) (generation number : ℕ) :
    WholeCapture ⟨.decode, concatTo (cyrinxCaptureWindowSamples * 4) active.chunks, generation,
      number, active.captured⟩ := by
  obtain ⟨spans, ⟨hread, htiles⟩, hchunks, -, hfits, hwhole⟩ := h
  have hsamples : active.samples = cyrinxCaptureWindowSamples := le_antisymm hfits hwindow
  rw [hsamples] at htiles
  refine ⟨spans, ⟨hread, htiles⟩, ?_⟩
  have hsum := htiles.sum_size
  have hlength := length_flatten_chunks hwhole
  dsimp only
  rw [hchunks]
  refine concatTo_of_length ?_
  omega

/-- Every move keeps the blocks of a capture in their order: a block is appended with the next
index, or the capture ends. -/
theorem collected_move (h : Collected w) (hmove : Move w w') : Collected w' := by
  have hnone : ∀ active, active ∈ (none : Option ActiveCase) → Captures active := by
    intro active hactive
    cases hactive
  cases hmove with
  | replies hsilent => exact ⟨h.captures, h.whole⟩
  | ends index => exact ⟨h.captures, h.whole⟩
  | @owns value epoch mode block now hfree hepoch hnew =>
    have hcaptures : ∀ active : ActiveCase, active.captured = [] → active.chunks = [] →
        active.samples = 0 → active.nextSampleIndex = 0 → Captures active := by
      intro active hcaptured hchunks hsamples hnext
      refine ⟨[], ⟨?_, ?_⟩, hchunks, ?_, ?_, ?_⟩
      · rw [hcaptured]
        rfl
      · rw [hsamples]
        rfl
      · rw [hnext, hsamples]
      · rw [hsamples]
        exact Nat.zero_le _
      · intro span hspan
        cases hspan
    unfold own
    cases mode with
    | listen =>
      refine ⟨?_, h.whole⟩
      rintro active ⟨rfl⟩
      exact hcaptures _ rfl rfl rfl rfl
    | transmit =>
      refine ⟨?_, ?_⟩
      · rintro active ⟨rfl⟩
        exact hcaptures _ rfl rfl rfl rfl
      · intro job hjob hdecode
        rcases List.mem_append.mp hjob with hjob | hjob
        · exact h.whole job hjob hdecode
        · rw [List.mem_singleton.mp hjob] at hdecode
          cases hdecode
  | rejects reason => exact ⟨hnone, h.whole⟩
  | plays hactive hlength hpayload hencoded => exact ⟨hnone, h.whole⟩
  | results hactive => exact ⟨hnone, h.whole⟩
  | @captures active encoded samples index last hactive hadmitted =>
    refine ⟨?_, h.whole⟩
    rintro other ⟨rfl⟩
    exact (h.captures active hactive).withCapture hadmitted
  | @decodes active hactive hdecoded hwhole =>
    have hcaptures := h.captures active hactive
    refine ⟨?_, ?_⟩
    · rintro other ⟨rfl⟩
      exact hcaptures
    · intro job hjob hdecode
      rcases List.mem_append.mp hjob with hjob | hjob
      · exact h.whole job hjob hdecode
      · rw [List.mem_singleton.mp hjob]
        exact hcaptures.wholeCapture hwhole _ _
  | resets => exact ⟨hnone, h.whole⟩

end Captures

section Runs

/-- What holds of every reachable worker. -/
structure Sound (w : World) : Prop where
  /-- Its cases and commands. -/
  owned : Owned w
  /-- Its deliveries. -/
  delivered : Delivered w
  /-- Its frames. -/
  playing : Playing w
  /-- Its captures. -/
  collected : Collected w

variable {w w' : World}

/-- A worker that has done nothing is sound. -/
theorem sound_initial : Sound {} := by
  refine ⟨⟨?_, ?_, ?_, ?_, List.nodup_nil⟩, ⟨?_, ?_, rfl, List.nodup_nil, ?_⟩, ⟨rfl, rfl, ?_⟩,
    ⟨?_, ?_⟩⟩ <;> simp [InTurn]

/-- A section keeps a worker sound, by induction on its moves. -/
theorem sound_moves (h : Sound w) (hmoves : ReflTransGen Move w w') : Sound w' := by
  induction hmoves with
  | refl => exact h
  | tail _ hmove ih =>
    exact ⟨owned_move ih.owned hmove, delivered_move ih.delivered hmove,
      playing_move ih.playing hmove, collected_move ih.collected hmove⟩

/-- Every event is a section of moves. -/
theorem sound_step (w : World) (event : Event) (h : Sound w) : Sound (step w event) :=
  sound_moves h (moves_step w event)

/-- A worker is sound after every run. -/
theorem sound_run (events : List Event) : Sound (runWorker events) :=
  invariant step sound_step sound_initial events

/-- Every field of the worker is as before, and nothing is played or returned. -/
def Inert (w w' : World) : Prop :=
  w'.worker = w.worker ∧ ∃ silent : List Answer,
    w'.answers = w.answers ++ silent ∧ ∀ answer ∈ silent, Silent answer

/-- The end of a command whose case was reset or rejected has no effect. -/
def StaleInert (w : World) : Prop :=
  ∀ index job outcome now, w.jobs[index]? = some job →
    w.cases[job.number]? = some .reset ∨ w.cases[job.number]? = some .rejected →
      Inert w (step w (.complete index outcome now))

/-- What a job that was overtaken does leaves the current case alone. -/
theorem inert_overtaken (job : Job) (ended : List ℕ) (w : World) :
    Inert w (complete.overtaken job { w with ended := ended }) := by
  unfold complete.overtaken
  cases job.command with
  | encode =>
    refine ⟨rfl, [.threw "cyrinx_operation_cancelled"], rfl, fun answer hanswer => ?_⟩
    rw [List.mem_singleton.mp hanswer]
    exact silent_threw _
  | decode =>
    refine ⟨rfl, [.nothing], rfl, fun answer hanswer => ?_⟩
    rw [List.mem_singleton.mp hanswer]
    exact silent_nothing

/-- Jobs of older generations are inert in every sound worker. -/
theorem Owned.staleInert (h : Owned w) : StaleInert w := by
  intro index job outcome now hjob hfate
  have hsame : Inert w w := ⟨rfl, [], (List.append_nil _).symm, fun answer hnone => by cases hnone⟩
  change Inert w (complete index outcome now w)
  unfold complete
  rw [hjob]
  dsimp only
  split
  · exact hsame
  · split
    · exact inert_overtaken job _ w
    · next active hactive =>
      split
      · exact inert_overtaken job _ w
      · next hcurrent =>
        have hgeneration : job.generation = active.generation := by
          unfold isCurrent at hcurrent
          rw [hactive] at hcurrent
          simpa using (Eq.symm (by simpa using hcurrent) : job.generation = active.generation)
        have hnumber := h.belongs active hactive job (List.mem_of_getElem? hjob) hgeneration
        have hstill := (h.current active hactive).2
        rw [hnumber, hstill] at hfate
        simp at hfate

/-- No case is delivered twice. -/
def DeliveredOnce (w : World) : Prop :=
  ((w.answers.filterMap delivery).map (fun noted => (noted.direction, noted.id))).Nodup

/-- A case is delivered once at most in every sound worker. -/
theorem Delivered.once (h : Delivered w) : DeliveredOnce w := by
  unfold DeliveredOnce
  rw [h.answered]
  refine h.nodup.map_on ?_
  intro left hleft right hright heq
  have hepoch := (h.epochs left hleft).symm.trans (h.epochs right hright)
  obtain ⟨hdirection, hid⟩ := Prod.mk.inj heq
  cases left
  cases right
  cases hepoch
  cases hdirection
  cases hid
  rfl

/-- Decoders are started with whole captures, at most one a case. -/
def DecodesOnce (w : World) : Prop :=
  (∀ job ∈ w.jobs, job.command = .decode → WholeCapture job) ∧
    ((w.jobs.filter (fun job => job.command = .decode)).map Job.number).Nodup

/-- In every state a worker reaches, the end of a command whose case was reset or rejected has no
effect, no case was delivered twice since the last reset, the frames played since then follow each
other, and decoders were started with whole captures, at most one a case. -/
theorem generation_safety (events : List Event) :
    StaleInert (runWorker events) ∧ DeliveredOnce (runWorker events) ∧
      InTurn ((runWorker events).answers.filterMap played) ∧ DecodesOnce (runWorker events) := by
  have h := sound_run events
  exact ⟨h.owned.staleInert, h.delivered.once, h.playing.inTurn, h.collected.whole,
    h.owned.decodedOnce⟩

/-- A case whose encoder ends after a reset: the call throws, and the worker stays as it is. -/
example :
    let value : CyrinxCase := ⟨[0x63], .aToB, [7], List.replicate 64 0x30⟩
    let w := runWorker [.beginCase value 1 (some .transmit) 0, .reset]
    w.cases = [.reset] ∧ w.jobs.length = 1 ∧
      (step w (.complete 0 (some ⟨0, [], false⟩) 1)).worker = w.worker ∧
      (step w (.complete 0 (some ⟨0, [], false⟩) 1)).answers =
        [.threw "cyrinx_operation_cancelled"] := by
  decide +kernel

end Runs

end Fipwave.WorkerGenerations
