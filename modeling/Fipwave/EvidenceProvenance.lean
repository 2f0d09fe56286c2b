import Fipwave.GateAgreement
import Fipwave.ReportChain

/-!
# Where the evidence of a report comes from

A result is recorded by the native worker under Cyrinx, or by the browser while
the session is idle or under Quiet. The results are kept when the session starts
and when it falls back, and the gate asks only how complete they are. When the
session is not started while results are kept, a report that passes the gate
rests on results of the codec it names.
-/

namespace Fipwave.EvidenceProvenance

open Relation TransitionRun FwavProtocol QualificationSession BridgePorts BridgeReport BridgeTrial
  BridgeMethods BridgeServer TrialMoves BridgeMoves GateAgreement

/-- A result of the native worker under Cyrinx. -/
def IsNative (recorded : RecordedResult) : Prop :=
  recorded.origin = .native .cyrinx ∧ recorded.result.coldAcquired = false

/-- A result of the browser under Quiet. -/
def IsQuiet (recorded : RecordedResult) : Prop := recorded.origin = .browser .quiet

/-- Where the results come from once the session has started. -/
structure Sourced (codec : CyrinxSessionCodec) (results : Results) : Prop where
  /-- From the native worker, or from the browser under Quiet. -/
  known : codec ≠ .idle → ∀ entry ∈ results, IsNative entry.2 ∨ IsQuiet entry.2
  /-- Under Cyrinx from the native worker only. -/
  native : codec = .cyrinx → ∀ entry ∈ results, IsNative entry.2
  /-- With a cold one from the browser under Quiet only. -/
  quiet : codec ≠ .idle → ∀ entry ∈ results, entry.2.result.coldAcquired = true →
    ∀ other ∈ results, IsQuiet other.2

section Results

variable {codec codec' : CyrinxSessionCodec} {results results' : Results}

/-- Before a codec is chosen every result is sourced. -/
theorem sourced_idle (hidle : codec = .idle) (results : Results) : Sourced codec results := by
  subst hidle
  refine ⟨fun hne => absurd rfl hne, ?_, fun hne => absurd rfl hne⟩
  intro hcodec
  cases hcodec

theorem sourced_nil (codec : CyrinxSessionCodec) : Sourced codec [] := by
  refine ⟨fun _ entry hentry => ?_, fun _ entry hentry => ?_, fun _ entry hentry => ?_⟩
  · cases hentry
  · cases hentry
  · cases hentry

/-- A session that neither starts nor goes back to Cyrinx keeps the results as they are. -/
theorem Sourced.follow (h : Sourced codec results) (hstarted : codec' ≠ .idle → codec ≠ .idle)
    (hcyrinx : codec' = .cyrinx → codec = .cyrinx) : Sourced codec' results :=
  ⟨fun hne => h.known (hstarted hne), fun heq => h.native (hcyrinx heq),
    fun hne => h.quiet (hstarted hne)⟩

/-- Results are sourced if every one of them has the origin of a sourced one. -/
theorem Sourced.alike (h : Sourced codec results)
    (halike : ∀ entry' ∈ results', ∃ entry ∈ results, entry'.2.origin = entry.2.origin ∧
      entry'.2.result.coldAcquired = entry.2.result.coldAcquired) : Sourced codec results' := by
  have hnative : ∀ {x y : RecordedResult}, x.origin = y.origin →
      x.result.coldAcquired = y.result.coldAcquired → IsNative y → IsNative x :=
    fun horigin hcold h => ⟨horigin.trans h.1, hcold.trans h.2⟩
  refine ⟨?_, ?_, ?_⟩
  · intro hne entry' hentry'
    obtain ⟨entry, hentry, horigin, hcold⟩ := halike entry' hentry'
    rcases h.known hne entry hentry with hfirst | hsecond
    · exact .inl (hnative horigin hcold hfirst)
    · exact .inr (horigin.trans hsecond)
  · intro heq entry' hentry'
    obtain ⟨entry, hentry, horigin, hcold⟩ := halike entry' hentry'
    exact hnative horigin hcold (h.native heq entry hentry)
  · intro hne entry' hentry' hcold' other' hother'
    obtain ⟨entry, hentry, -, hcold⟩ := halike entry' hentry'
    obtain ⟨other, hother, horigin, -⟩ := halike other' hother'
    exact horigin.trans (h.quiet hne entry hentry (hcold.symm.trans hcold') other hother)

/-- A result that is put over another leaves the rest. -/
theorem mem_setResult {caseId : String} {value : RecordedResult} {entry : String × RecordedResult}
    (hentry : entry ∈ setResult caseId value results) :
    entry ∈ results ∨ entry = (caseId, value) := by
  unfold setResult at hentry
  split at hentry
  · obtain ⟨old, hold, heq⟩ := List.mem_map.mp hentry
    split at heq
    · exact .inr heq.symm
    · exact .inl (heq ▸ hold)
  · rcases List.mem_append.mp hentry with hold | hnew
    · exact .inl hold
    · exact .inr (List.mem_singleton.mp hnew)

/-- A result found under a case stands in the list. -/
theorem mem_of_lookup {caseId : String} {value : RecordedResult}
    (h : results.lookup caseId = some value) : (caseId, value) ∈ results := by
  induction results with
  | nil => cases h
  | cons head results ih =>
    obtain ⟨key, kept⟩ := head
    rw [List.lookup_cons] at h
    split at h
    · next heq =>
      rw [← Option.some.inj h, eq_of_beq heq]
      exact List.mem_cons_self
    · exact List.mem_cons_of_mem _ (ih h)

/-- A result of the native worker under Cyrinx. -/
theorem Sourced.recordNative {result : BrowserResult} (h : Sourced codec results)
    (hcodec : codec = .cyrinx) (hcold : result.coldAcquired = false) :
    Sourced codec (setResult result.caseId ⟨result, .native .cyrinx⟩ results) := by
  have hall : ∀ entry ∈ setResult result.caseId ⟨result, .native .cyrinx⟩ results,
      IsNative entry.2 := by
    intro entry hentry
    rcases mem_setResult hentry with hold | rfl
    · exact h.native hcodec entry hold
    · exact ⟨rfl, hcold⟩
  refine ⟨fun _ entry hentry => .inl (hall entry hentry), fun _ => hall, ?_⟩
  intro _ entry hentry hcold
  rw [(hall entry hentry).2] at hcold
  cases hcold

/-- A result of the browser under Quiet. -/
theorem Sourced.recordQuiet {result : BrowserResult} (h : Sourced codec results)
    (hcodec : codec = .quiet) (hcold : result.coldAcquired = true → results = []) :
    Sourced codec (setResult result.caseId ⟨result, .browser codec⟩ results) := by
  subst hcodec
  refine ⟨?_, ?_, ?_⟩
  · intro hne entry hentry
    rcases mem_setResult hentry with hold | rfl
    · exact h.known hne entry hold
    · exact .inr rfl
  · intro heq
    cases heq
  · intro hne entry hentry hacquired other hother
    rcases mem_setResult hother with hold | rfl
    · rcases mem_setResult hentry with hold' | rfl
      · exact h.quiet hne entry hold' hacquired other hold
      · rw [hcold hacquired] at hold
        cases hold
    · rfl

/-- A case that comes again keeps its origin. -/
theorem Sourced.duplicate {caseId : String} {existing value : RecordedResult}
    (h : Sourced codec results) (hold : results.lookup caseId = some existing)
    (horigin : value.origin = existing.origin)
    (hcold : value.result.coldAcquired = existing.result.coldAcquired) :
    Sourced codec (setResult caseId value results) := by
  refine h.alike (fun entry hentry => ?_)
  rcases mem_setResult hentry with hkept | rfl
  · exact ⟨entry, hkept, rfl, rfl⟩
  · exact ⟨_, mem_of_lookup hold, horigin, hcold⟩

end Results

section Moves

variable {options : TrialOptions} {a : Actor} {t t' : Trial}

/-- A change of a session other than its start does not make it start, nor go back to Cyrinx. -/
theorem codec_of_change {c c' : CyrinxQualificationSession} (hw : WellFormed c)
    (h : TrialMoves.Change c c') :
    c.codec = .idle ∧ c'.codec = .cyrinx ∨
      (c'.codec ≠ .idle → c.codec ≠ .idle) ∧ (c'.codec = .cyrinx → c.codec = .cyrinx) := by
  cases h with
  | looked h =>
    rw [h.codec]
    exact .inr ⟨id, id⟩
  | started nowMs hidle h =>
    rw [h, start_idle nowMs hidle]
    exact .inl ⟨hw.idle.mpr hidle, rfl⟩
  | fell h =>
    have hcodec := h.cyrinx
    rw [hcodec]
    exact .inr ⟨fun _ => by decide, fun _ => rfl⟩
  | failed h =>
    obtain ⟨hstage, rfl⟩ := markQuietFailed_true h
    rw [hw.quiet.mpr hstage]
    refine .inr ⟨fun _ => by decide, fun heq => ?_⟩
    cases heq
  | dropped h =>
    rw [h]
    exact .inr ⟨id, id⟩
  | progressed h =>
    rw [h.cyrinx]
    exact .inr ⟨fun _ => by decide, fun _ => rfl⟩
  | completed h =>
    rw [h.cyrinx]
    exact .inr ⟨fun _ => by decide, fun _ => rfl⟩
  | acknowledged h hpending =>
    rw [h]
    exact .inr ⟨id, id⟩

/-- Moves that leave the results or drop them. -/
theorem sourced_of_change (hw : WellFormed t.session)
    (hchange : TrialMoves.Change t.session t'.session)
    (hresults : t'.results = t.results ∨ t'.results = [])
    (h : Sourced t.session.codec t.results)
    (hclean : t.session.codec = .idle → t'.session.codec = .cyrinx → t.results = []) :
    Sourced t'.session.codec t'.results := by
  rcases hresults with hsame | hnone
  · rw [hsame]
    rcases codec_of_change hw hchange with ⟨hidle, hcyrinx⟩ | ⟨hstarted, hback⟩
    · rw [hclean hidle hcyrinx]
      exact sourced_nil _
    · exact h.follow hstarted hback
  · rw [hnone]
    exact sourced_nil _

/-- Who records a result of the browser does not start the qualification. -/
theorem mayStart_of_result (h : handledType a = some .qualificationResult) : mayStart a = false := by
  cases a with
  | operatorStart call => cases h
  | handler socket message =>
    have hstarter : mayStart (.handler socket message) =
        decide (handledType (.handler socket message) = some .qualificationCase) := rfl
    rw [hstarter, h]
    rfl
  | _ => cases h

/-- Only who may start the qualification starts it. -/
theorem mayStart_of_move (hmove : TrialMove options False a t t') (hw : WellFormed t.session)
    (hidle : t.session.codec = .idle) (hcyrinx : t'.session.codec = .cyrinx) :
    mayStart a = true := by
  have hsame : t'.session.codec ≠ t.session.codec := by
    rw [hidle, hcyrinx]
    decide
  cases hmove with
  | start nowMs hagent hnone hstage hstarter => exact hstarter
  | look h => exact absurd h.codec hsame
  | fall h =>
    rw [h.cyrinx] at hidle
    cases hidle
  | quietFails h =>
    obtain ⟨hstage, -⟩ := markQuietFailed_true h
    rw [hw.quiet.mpr hstage] at hidle
    cases hidle
  | reset h =>
    rcases h with h | ⟨rfl, -⟩
    · rw [h.cyrinx] at hidle
      cases hidle
    · exact absurd rfl hsame
  | progress h =>
    rw [h.cyrinx] at hidle
    cases hidle
  | complete caseId record h =>
    rw [h.cyrinx] at hidle
    cases hidle
  | _ => exact absurd rfl hsame

/-- Moves keep where the results come from, if who may start the qualification finds an idle
session without results. -/
theorem sourced_move (hmove : TrialMove options False a t t') (hw : WellFormed t.session)
    (h : Sourced t.session.codec t.results)
    (hclean : mayStart a = true → t.session.codec = .idle → t.results = []) :
    Sourced t'.session.codec t'.results := by
  have hchange := hmove.change
  have hstarts : t.session.codec = .idle → t'.session.codec = .cyrinx → t.results = [] :=
    fun hidle hcyrinx => hclean (mayStart_of_move hmove hw hidle hcyrinx) hidle
  cases hmove with
  | recordNative hcodec hfresh hcold hnew => exact h.recordNative hcodec hcold
  | recordBrowser hnone hcodec hcold hnew htype =>
    rcases hcodec with hidle | hquiet
    · exact sourced_idle hidle _
    · exact h.recordQuiet hquiet hcold
  | duplicate hnone hold => exact h.duplicate hold rfl rfl
  | reset h' => exact sourced_of_change hw hchange (.inr rfl) h hstarts
  | _ => exact sourced_of_change hw hchange (.inl rfl) h hstarts

/-- Who may start the qualification leaves an idle session without results as it is. -/
theorem clean_move (hmove : TrialMove options False a t t')
    (hstarter : mayStart a = true) (hclean : t.session.codec = .idle → t.results = [])
    (hidle : t'.session.codec = .idle) : t'.results = [] := by
  have hbefore : t.session.codec = .idle := by
    by_contra hne
    exact hmove.change.codec hne hidle
  have hnone := hclean hbefore
  cases hmove with
  | recordNative hcodec =>
    rw [hcodec] at hbefore
    cases hbefore
  | recordBrowser hbegun hcodec hcold hnew htype =>
    rw [mayStart_of_result htype] at hstarter
    cases hstarter
  | duplicate hbegun hold =>
    rw [hnone] at hold
    cases hold
  | reset => rfl
  | _ => exact hnone

end Moves

section Reports

variable {options : TrialOptions} {config : RunnerQualificationConfig}
variable {authority : RunnerReportAuthority} {corpus : List CorpusEntry} {e : Evidence}
variable {a : Actor} {t t' : Trial}

/-- When the report has passed the gate, every line it observed is that of a result which was
recorded under the codec the report names: by the native worker under Cyrinx, by the browser under
Quiet. -/
def Provenance (report : MachineReport) (evidence : Results) : Prop :=
  report.qualification.physicalGate = .passed →
    ∀ line ∈ report.results, line.observed = true →
      ∃ recorded ∈ evidence.lookup line.caseId,
        report.codec = cyrinxCodec ∧ recorded.origin = .native .cyrinx ∨
          report.codec = quietCodec ∧ recorded.origin = .browser .quiet

/-- Only a report in open air passes the gate, and it is certified. -/
theorem certified_of_passed
    (h : (buildReport config authority corpus e).qualification.physicalGate = .passed) :
    Certified config corpus e := by
  have hgate : (physicalGate config (expectedCorpus corpus config.role) e
      (linesOf corpus config.role e)).2 = .passed := by
    have hqualification : (buildReport config authority corpus e).qualification =
        reportQualification config e (physicalGate config (expectedCorpus corpus config.role) e
          (linesOf corpus config.role e)).2 := rfl
    rw [hqualification] at h
    unfold reportQualification at h
    split at h
    · exact h
    · exact h
  have hclass : config.evidenceClass = .openAir := by
    by_contra hne
    unfold physicalGate at hgate
    dsimp only at hgate
    rw [if_pos hne] at hgate
    cases hgate
  have hcomplete : (buildReport config authority corpus e).complete =
      (physicalGate config (expectedCorpus corpus config.role) e
        (linesOf corpus config.role e)).1 := rfl
  apply certified_of_complete hclass
  rw [hcomplete]
  unfold physicalGate at hgate ⊢
  dsimp only at hgate ⊢
  rw [if_neg (not_not.mpr hclass)] at hgate
  split at hgate
  · next hboth => exact (Bool.and_eq_true _ _ ▸ hboth).1
  · split at hgate
    · cases hgate
    · cases hgate

/-- An observed line is that of a result. -/
theorem recorded_of_observed {role : RunnerRole} {line : MachineResult}
    (hline : line ∈ linesOf corpus role e) (hobserved : line.observed = true) :
    ∃ recorded, e.results.lookup line.caseId = some recorded ∧
      line.coldAcquired = recorded.result.coldAcquired := by
  obtain ⟨entry, -, -, rfl⟩ := case_of_line hline
  rw [(canonicalResult_case role e entry).2.2.1]
  unfold canonicalResult at hobserved ⊢
  split at hobserved
  · cases hobserved
  · next observed hlookup =>
    rw [hlookup]
    exact ⟨observed, rfl, rfl⟩

/-- A report of results that come from where they should is sound. -/
theorem provenance_of_sourced (h : Sourced e.snapshot.codec e.results) :
    Provenance (buildReport config authority corpus e) e.results := by
  intro hpassed line hline hobserved
  have hcertified := certified_of_passed hpassed
  have hlines : (buildReport config authority corpus e).results =
      linesOf corpus config.role e := rfl
  rw [hlines] at hline
  obtain ⟨recorded, hlookup, -⟩ := recorded_of_observed hline hobserved
  have hmem := mem_of_lookup hlookup
  refine ⟨recorded, hlookup, ?_⟩
  rcases codec_of_certified authority hcertified with ⟨hcodec, hname⟩ | ⟨hcodec, hname⟩
  · exact .inl ⟨hname, (h.native hcodec _ hmem).1⟩
  · have hstarted : e.snapshot.codec ≠ .idle := by
      rw [hcodec]
      decide
    have hother : e.snapshot.codec ≠ .cyrinx := by
      rw [hcodec]
      decide
    have hcold := hcertified.clean.cold
    unfold coldPassed at hcold
    rw [if_neg hother] at hcold
    obtain ⟨first, -, hfirst⟩ := (Option.any_eq_true _ _).mp hcold
    obtain ⟨other, hgood, hacquired⟩ := List.any_eq_true.mp hfirst
    rw [List.mem_filter] at hgood
    rw [Bool.and_eq_true, decide_eq_true_eq] at hacquired
    have hseen : other.observed = true := by
      have hgood' := hgood.2
      unfold good at hgood'
      simp only [Bool.and_eq_true] at hgood'
      exact hgood'.1.1.1.1.1.1.1
    obtain ⟨cold, hlookup', hsame⟩ := recorded_of_observed hgood.1 hseen
    rw [hacquired.2] at hsame
    exact .inr ⟨hname, h.quiet hstarted _ (mem_of_lookup hlookup') hsame.symm _ hmem⟩

/-- A report that is built of a qualification is built of its results. -/
theorem provenance_of_built {report : MachineReport} (hbuilt : Built options report t)
    (h : Sourced t.session.codec t.results) : Provenance report t.results := by
  obtain ⟨config, authority, epoch, discontinuities, nowMs, -, -, hlooked, rfl⟩ := hbuilt
  refine provenance_of_sourced (e := evidenceOf epoch discontinuities
    (snapshot options.corpus config.role epoch nowMs t.session).1 t) ?_
  have hcodec : (evidenceOf epoch discontinuities
      (snapshot options.corpus config.role epoch nowMs t.session).1 t).snapshot.codec =
      (lookAt nowMs t.session).codec := rfl
  rw [hcodec, hlooked]
  exact h

/-- A report of the chain was there before with the same evidence, or is built of the results. -/
theorem task_of_move (hmove : TrialMove options False a t t') {n : ℕ} {task' : WriteTask}
    (htask : t'.writes[n]? = some task') :
    (∃ task, t.writes[n]? = some task ∧ task'.report = task.report ∧
      task'.evidence = task.evidence) ∨
      Built options task'.report t ∧ task'.evidence = t.results := by
  have hkept : t.writes[n]? = some task' → ∃ task, t.writes[n]? = some task ∧
      task'.report = task.report ∧ task'.evidence = task.evidence :=
    fun hold => ⟨task', hold, rfl, rfl⟩
  have hset : ∀ {index : ℕ} {status : WriteStatus},
      (setStatus index status t).writes[n]? = some task' → ∃ task, t.writes[n]? = some task ∧
        task'.report = task.report ∧ task'.evidence = task.evidence := by
    intro index status hold
    rw [getElem?_setStatus] at hold
    split at hold
    · obtain ⟨task, hfound, rfl⟩ := Option.map_eq_some_iff.mp hold
      exact ⟨task, hfound, rfl, rfl⟩
    · exact hkept hold
  cases hmove with
  | chain expired hbuilt =>
    simp only [chainWrite] at htask
    by_cases hn : n < t.writes.length
    · rw [List.getElem?_append_left hn] at htask
      exact .inl (hkept htask)
    · rw [List.getElem?_append_right (not_lt.mp hn), List.getElem?_singleton] at htask
      split at htask
      · cases htask
        exact .inr ⟨hbuilt, rfl⟩
      · cases htask
  | skip => exact .inl (hset htask)
  | hand => exact .inl (hset htask)
  | conclude => exact .inl (hset htask)
  | _ => exact .inl (hkept htask)

end Reports

section Runs

variable {options : BridgeServerOptions}

/-- The results of a qualification and its reports are accounted for. -/
structure Traced (t : Trial) : Prop where
  /-- The results come from where they should. -/
  sourced : Sourced t.session.codec t.results
  /-- So do those every report was built of. -/
  reports : ∀ (n : ℕ) (task : WriteTask), t.writes[n]? = some task →
    Provenance task.report task.evidence

/-- A move of the trial keeps the sources traced, when a start from idle finds no results. -/
theorem Traced.move {a : Actor} {t t' : Trial} (h : Traced t)
    (hmove : TrialMove options.trial False a t t') (hw : WellFormed t.session)
    (hclean : mayStart a = true → t.session.codec = .idle → t.results = []) : Traced t' := by
  refine ⟨sourced_move hmove hw h.sourced hclean, ?_⟩
  intro n task' htask
  rcases task_of_move hmove htask with ⟨task, hold, hreport, hevidence⟩ | ⟨hbuilt, hevidence⟩
  · rw [hreport, hevidence]
    exact h.reports n task hold
  · rw [hevidence]
    exact provenance_of_built hbuilt h.sourced

/-- The bridge when it begins to listen has no results. -/
theorem traced_createBridgeServer (options : BridgeServerOptions) :
    Traced (createBridgeServer options).state.trial := by
  have hidle : Traced ({} : Trial) := by
    refine ⟨sourced_idle rfl _, ?_⟩
    intro n task htask
    cases htask
  unfold createBridgeServer
  dsimp only
  split
  · exact hidle
  · next report hreport =>
    refine ⟨sourced_idle rfl _, ?_⟩
    have hfirst : Provenance report [] := by
      rcases reportNow_cases options.trial 1 0 (options.now 0) {} with ⟨hnone, -⟩ |
        ⟨built, hbuilt, hfrom⟩
      · rw [hnone] at hreport
        cases hreport
      · rw [hbuilt] at hreport
        rw [← Option.some.inj hreport]
        exact provenance_of_built hfrom (sourced_idle rfl _)
    intro n task htask
    cases n with
    | zero =>
      simp only [chainWrite, List.nil_append, List.map_cons, List.map_nil,
        List.getElem?_cons_zero, Option.some.injEq] at htask
      subst htask
      exact hfirst
    | succ n =>
      simp [chainWrite] at htask

/-- Whoever may start the qualification finds an idle session without results. -/
def StartsClean (w : World) (e : Event) : Prop :=
  mayStart (actorOf w e) = true → w.state.trial.session.codec = .idle →
    w.state.trial.results = []

instance (w : World) (e : Event) : Decidable (StartsClean w e) :=
  inferInstanceAs (Decidable (mayStart (actorOf w e) = true →
    w.state.trial.session.codec = .idle → w.state.trial.results = []))

/-- In every run in which the qualification is not started while results are kept, every report
that is built has the provenance it states. -/
theorem evidence_provenance (options : BridgeServerOptions) (events : List Event)
    (h : Along (step options) StartsClean (createBridgeServer options) events) :
    ∀ task ∈ (run (step options) (createBridgeServer options) events).state.trial.writes,
      Provenance task.report task.evidence := by
  have htraced : Traced (run (step options) (createBridgeServer options) events).state.trial := by
    refine bridge_invariant (I := fun b => Traced b.trial)
      (G := fun a b => mayStart a = true → b.trial.session.codec = .idle → b.trial.results = [])
      ?_ ?_ ?_ ?_ h
    · intro w e hclean _
      exact hclean
    · intro a b b' _ hprepares hI hG
      rw [hprepares.trial]
      exact ⟨⟨hI.sourced, hI.reports⟩, hG⟩
    · intro a b b' hb hmove hI hG
      rcases hmove.trial_cases with heq | htrial
      · rw [heq]
        exact ⟨hI, hG⟩
      · exact ⟨hI.move htrial hb.poised.wellFormed hG,
          fun hstarter hidle => clean_move htrial hstarter (hG hstarter) hidle⟩
    · exact traced_createBridgeServer options
  intro task htask
  obtain ⟨n, hn⟩ := List.mem_iff_getElem?.mp htask
  exact htraced.reports n task hn

/-- Name of a case. -/
def earlyName (index : ℕ) : String := String.ofList [Char.ofNat (97 + index)]

/-- Twenty short cases and five long ones, all to the role B. -/
def earlyCases : List CorpusEntry :=
  (List.range 25).map (fun index =>
    ⟨earlyName index, .aToB, if index < 20 then 256 else 1536, benchDigest⟩)

/-- A payload of one byte is the result of a case, one of two the audio settings. -/
def earlyJson : ByteWords.Bytes → Option Json
  | [index] => some (benchResult (earlyName index.toNat) benchDigest (index = 0))
  | [_, _] => some (.obj benchAudio)
  | _ => none

/-- A bridge with these cases. -/
def earlyBridge : BridgeServerOptions := benchOptions earlyCases earlyJson

/-- The browser sends a frame, and the report of it is written. -/
def earlyFrame (reports : ℕ) (type : MessageType) (payload : ByteWords.Bytes) (sequence : ℕ) :
    List Event :=
  [.receive 0 (benchMessage { type, epoch := 1, sequence, payload }), .process 0,
    .resume 0 .resolved, .beginWrite (sequence + reports), .endWrite (sequence + reports) true,
    .resume 0 .resolved]

/-- The browser reports every case and then its audio settings. -/
def earlyFrames (reports : ℕ) : List Event :=
  (List.range 25).flatMap (fun index =>
    earlyFrame reports .qualificationResult [ByteWords.lowByte index] index) ++
  earlyFrame reports .audioSettings [0, 0] 25 ++ [.resume 0 .resolved]

/-- The operator starts the qualification and its build fails; under Quiet the browser reports
every case and its audio settings. -/
def cleanRun : List Event :=
  [.connectBrowser, .resume 0 .resolved, .operatorStart 0, .beginWrite 1, .endWrite 1 true,
    .resume 0 .resolved, .resume 0 .resolved, .resume 0 .rejected, .beginWrite 2,
    .endWrite 2 true, .resume 0 .resolved] ++ earlyFrames 3

/-- The qualification starts without results, and the report built of all 25 passes the gate: each
of them comes from Quiet. -/
theorem evidence_provenance_bench :
    Along (step earlyBridge) StartsClean (createBridgeServer earlyBridge) cleanRun ∧
      let w := run (step earlyBridge) (createBridgeServer earlyBridge) cleanRun
      (w.state.trial.writes[28]?.any (fun task =>
        decide (task.report.qualification.physicalGate = .passed) &&
          decide (task.report.codec = quietCodec) &&
          decide (task.evidence.map (fun entry => entry.2.origin) =
            List.replicate 25 (.browser .quiet)))) = true ∧
      ∀ task ∈ w.state.trial.writes, Provenance task.report task.evidence := by
  have hclean : Along (step earlyBridge) StartsClean (createBridgeServer earlyBridge) cleanRun := by
    decide +kernel
  exact ⟨hclean, by decide +kernel, evidence_provenance earlyBridge cleanRun hclean⟩

/-- The browser reports every case while the session is idle, and then its audio settings; the
operator starts the qualification, and its build fails. -/
def earlyRun : List Event :=
  [.connectBrowser, .resume 0 .resolved] ++ earlyFrames 1 ++
    [.operatorStart 0, .beginWrite 27, .endWrite 27 true, .resume 0 .resolved,
      .resume 0 .resolved, .resume 0 .rejected]

/-- The run below writes a passed report with a line the browser recorded. -/
theorem early_passed :
    ((run (step earlyBridge) (createBridgeServer earlyBridge) earlyRun).state.trial.writes[28]?.any
      (fun task => decide (task.report.qualification.physicalGate = .passed) &&
        task.report.results.any (fun line => line.observed &&
          (task.evidence.lookup line.caseId).all
            (fun recorded => decide (recorded.origin = .browser .idle))))) = true := by
  decide +kernel

/-- The report under Quiet passes the gate with the results from before the start. -/
theorem not_provenance_early :
    ¬∀ task ∈ (run (step earlyBridge) (createBridgeServer earlyBridge) earlyRun).state.trial.writes,
      Provenance task.report task.evidence := by
  intro h
  obtain ⟨task, htask, hearly⟩ := (Option.any_eq_true _ _).mp early_passed
  rw [Bool.and_eq_true, decide_eq_true_eq] at hearly
  obtain ⟨line, hline, hobserved⟩ := List.any_eq_true.mp hearly.2
  rw [Bool.and_eq_true] at hobserved
  obtain ⟨recorded, hrecorded, horigin⟩ :=
    h task (List.mem_of_getElem? htask) hearly.1 line hline hobserved.1
  have hidle := hobserved.2
  rw [Option.mem_def] at hrecorded
  rw [hrecorded, Option.all_some, decide_eq_true_eq] at hidle
  rw [hidle] at horigin
  rcases horigin with ⟨-, hnative⟩ | ⟨-, hquiet⟩
  · cases hnative
  · cases hquiet

end Runs

end Fipwave.EvidenceProvenance
