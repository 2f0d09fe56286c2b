import Fipwave.BridgeRuns

/-!
# Reports are written in order and before they are relied on

Every report joins the chain behind the one built before it. A report leaves
the queue only after all reports before it have settled, so the writer has one
at a time, in the order in which they were built, and never one of a
generation that has passed. What is acknowledged is shown by a report that
was written before the step that acknowledges it. Every reset begins a
generation, and so does every fallback, unless a call of the session finds it
overdue: then reports from before the fallback are still written after it.
-/

namespace Fipwave.ReportChain

open Relation FwavProtocol QualificationSession BridgePorts BridgeReport BridgeTrial
  BridgeMethods BridgeServer AsyncMethod TrialMoves PortMoves BridgeMoves TransitionRun

/-- The number before another one. -/
def before : ℕ → Option ℕ
  | 0 => none
  | n + 1 => some n

/-- The writes form one chain. -/
structure Chained (t : Trial) : Prop where
  /-- The chain ends with the last report. -/
  tail : t.writeTail = before t.writes.length
  /-- Each report follows the one before it. -/
  after : ∀ (n : ℕ) (task : WriteTask), t.writes[n]? = some task → task.after = before n
  /-- Reports before one that left the queue have settled. -/
  order : ∀ (m n : ℕ) (earlier task : WriteTask), m < n → t.writes[m]? = some earlier →
    t.writes[n]? = some task → task.status ≠ .queued → settled earlier.status = true
  /-- Reports were handed over in order. -/
  handed : t.handed.Pairwise (fun x y => x.1 < y.1)
  /-- Each was of the generation that was current, and is no longer in the queue. -/
  current : ∀ x ∈ t.handed, ∃ task, t.writes[x.1]? = some task ∧ task.builtIn = x.2 ∧
    task.status ≠ .queued
  /-- The writer has only what was handed to it. -/
  known : ∀ (n : ℕ) (task : WriteTask), t.writes[n]? = some task →
    task.status = .writing ∨ task.status = .written ∨ task.status = .failed →
    ∃ g, (n, g) ∈ t.handed

section Chains

variable {options : TrialOptions} {a : Actor} {t t' : Trial}

/-- When the turn of a report comes all reports before it have settled. -/
theorem Chained.turn (h : Chained t) {index : ℕ} {task : WriteTask}
    (htask : t.writes[index]? = some task) (hturn : turnOf task t = true) (m : ℕ)
    (earlier : WriteTask) (hm : m < index) (hearlier : t.writes[m]? = some earlier) :
    settled earlier.status = true := by
  obtain ⟨k, rfl⟩ : ∃ k, index = k + 1 := ⟨index - 1, by omega⟩
  have hafter : task.after = some k := h.after _ _ htask
  simp only [turnOf, hafter, Option.all_some] at hturn
  obtain ⟨last, hlast⟩ : ∃ last, t.writes[k]? = some last := by
    cases hlast : t.writes[k]? with
    | none => simp [hlast] at hturn
    | some last => exact ⟨last, rfl⟩
  have hsettled : settled last.status = true := by
    simpa [hlast] using hturn
  rcases Nat.lt_or_ge m k with hlt | hge
  · refine h.order m k earlier last hlt hearlier hlast (fun hqueued => ?_)
    rw [hqueued] at hsettled
    cases hsettled
  · have hmk : m = k := by omega
    rw [hmk, hlast] at hearlier
    cases hearlier
    exact hsettled

/-- A report that has not settled gets another state. The ones in front of it have settled, so the
order in which they were handed over is kept. -/
theorem Chained.setStatus (h : Chained t) {index : ℕ} {task : WriteTask} {status : WriteStatus}
    (htask : t.writes[index]? = some task) (hopen : settled task.status = false)
    (hleaves : status ≠ .queued)
    (hbefore : ∀ (m : ℕ) (earlier : WriteTask), m < index → t.writes[m]? = some earlier →
      settled earlier.status = true)
    {handed : List (ℕ × ℕ)} (hhanded : handed.Pairwise (fun x y => x.1 < y.1))
    (hcurrent : ∀ x ∈ handed, x ∈ t.handed ∨ x = (index, task.builtIn))
    (hknown : ∀ x ∈ t.handed, x ∈ handed)
    (hwriter : status = .writing ∨ status = .written ∨ status = .failed →
      ∃ g, (index, g) ∈ handed) :
    Chained { setStatus index status t with handed } := by
  have hget : ∀ (n : ℕ) (task' : WriteTask),
      (BridgeTrial.setStatus index status t).writes[n]? = some task' →
      ∃ old, t.writes[n]? = some old ∧
        (n = index ∧ old = task ∧ task' = { task with status } ∨ n ≠ index ∧ task' = old) := by
    intro n task' htask'
    rw [getElem?_setStatus] at htask'
    split at htask'
    · next heq =>
      subst heq
      rw [htask] at htask'
      cases htask'
      exact ⟨task, htask, .inl ⟨rfl, rfl, rfl⟩⟩
    · next hne => exact ⟨task', htask', .inr ⟨Ne.symm hne, rfl⟩⟩
  have hlength : (BridgeTrial.setStatus index status t).writes.length = t.writes.length := by
    simp [BridgeTrial.setStatus]
  constructor
  · rw [hlength]
    exact h.tail
  · intro n task' htask'
    obtain ⟨old, hold, ⟨rfl, rfl, rfl⟩ | ⟨-, rfl⟩⟩ := hget n task' htask'
    · exact h.after n old hold
    · exact h.after n task' hold
  · intro m n earlier task' hlt hearlier htask' hstatus
    obtain ⟨oldm, holdm, hm⟩ := hget m earlier hearlier
    obtain ⟨oldn, holdn, hn⟩ := hget n task' htask'
    rcases hn with ⟨rfl, rfl, rfl⟩ | ⟨hne, rfl⟩
    · rcases hm with ⟨rfl, -, -⟩ | ⟨-, rfl⟩
      · exact absurd hlt (lt_irrefl _)
      · exact hbefore _ _ hlt holdm
    · have hsettled := h.order m n oldm _ hlt holdm holdn hstatus
      rcases hm with ⟨-, rfl, -⟩ | ⟨-, rfl⟩
      · rw [hopen] at hsettled
        cases hsettled
      · exact hsettled
  · exact hhanded
  · intro x hx
    rcases hcurrent x hx with hx | rfl
    · obtain ⟨old, hold, hbuilt, hstatus⟩ := h.current x hx
      dsimp only
      rw [getElem?_setStatus]
      split
      · next heq => exact ⟨{ old with status }, by rw [hold]; rfl, hbuilt, hleaves⟩
      · exact ⟨old, hold, hbuilt, hstatus⟩
    · dsimp only
      rw [getElem?_setStatus, if_pos rfl]
      exact ⟨{ task with status }, by rw [htask]; rfl, rfl, hleaves⟩
  · intro n task' htask' hstatus
    obtain ⟨old, hold, ⟨rfl, rfl, rfl⟩ | ⟨-, rfl⟩⟩ := hget n task' htask'
    · exact hwriter hstatus
    · obtain ⟨g, hg⟩ := h.known n _ hold hstatus
      exact ⟨g, hknown _ hg⟩

/-- A report joins the chain behind all others, and waits for the last of them. -/
theorem Chained.chain (h : Chained t) (report : MachineReport) (expired : Bool) :
    Chained (chainWrite report t.generation expired t) := by
  have hget : ∀ (n : ℕ) (task : WriteTask),
      (chainWrite report t.generation expired t).writes[n]? = some task →
      t.writes[n]? = some task ∨ n = t.writes.length ∧ task.after = t.writeTail ∧
        task.status = .queued := by
    intro n task htask
    simp only [chainWrite] at htask
    by_cases hn : n < t.writes.length
    · rw [List.getElem?_append_left hn] at htask
      exact .inl htask
    · rw [List.getElem?_append_right (not_lt.mp hn), List.getElem?_singleton] at htask
      split at htask
      · cases htask
        exact .inr ⟨by omega, rfl, rfl⟩
      · cases htask
  constructor
  · simp [chainWrite, before]
  · intro n task htask
    rcases hget n task htask with hold | ⟨rfl, hafter, -⟩
    · exact h.after n task hold
    · rw [hafter, h.tail]
  · intro m n earlier task hlt hearlier htask hstatus
    rcases hget n task htask with hold | ⟨-, -, hqueued⟩
    · rcases hget m earlier hearlier with hold' | ⟨rfl, -, -⟩
      · exact h.order m n earlier task hlt hold' hold hstatus
      · have := (List.getElem?_eq_some_iff.mp hold).1
        omega
    · exact absurd hqueued hstatus
  · exact h.handed
  · intro x hx
    obtain ⟨task, htask, hbuilt, hstatus⟩ := h.current x hx
    refine ⟨task, ?_, hbuilt, hstatus⟩
    simp only [chainWrite]
    rw [List.getElem?_append_left (List.getElem?_eq_some_iff.mp htask).1, htask]
  · intro n task htask hstatus
    rcases hget n task htask with hold | ⟨-, -, hqueued⟩
    · exact h.known n task hold hstatus
    · rw [hqueued] at hstatus
      simp at hstatus

/-- Moves keep the chain: a report is chained, skipped, handed over or concluded, and it is handed
over only once those before it have settled. -/
theorem Chained.move (h : Chained t) (hp : Poised t) (hmove : TrialMove options False a t t') :
    Chained t' := by
  cases hmove with
  | chain expired hbuilt => exact h.chain _ expired
  | skip ha htask hqueued hturn hgeneration =>
    exact h.setStatus htask (by rw [hqueued]; rfl) (by simp) (h.turn htask hturn) h.handed
      (fun x hx => .inl hx) (fun x hx => hx) (by simp)
  | @hand index task ha htask hqueued hturn hgeneration =>
    have hlater : ∀ x ∈ t.handed, x.1 < index := by
      intro x hx
      obtain ⟨old, hold, -, hstatus⟩ := h.current x hx
      by_contra hge
      rcases Nat.lt_or_ge index x.1 with hlt | hle
      · have hsettled := h.order index x.1 task old hlt htask hold hstatus
        rw [hqueued] at hsettled
        cases hsettled
      · have heq : x.1 = index := by omega
        rw [heq, htask] at hold
        cases hold
        exact hstatus hqueued
    have hbuilt : task.builtIn = t.generation := by
      rw [← (hp.reports index task htask).1]
      exact hgeneration
    refine h.setStatus htask (by rw [hqueued]; rfl) (by simp) (h.turn htask hturn) ?_ ?_ ?_ ?_
    · refine List.pairwise_append.mpr ⟨h.handed, List.pairwise_singleton _ _, ?_⟩
      intro x hx y hy
      rw [List.mem_singleton.mp hy]
      exact hlater x hx
    · intro x hx
      rcases List.mem_append.mp hx with hx | hx
      · exact .inl hx
      · rw [List.mem_singleton.mp hx, hbuilt]
        exact .inr rfl
    · exact fun x hx => List.mem_append_left _ hx
    · exact fun _ => ⟨t.generation, List.mem_append_right _ (List.mem_singleton.mpr rfl)⟩
  | @conclude index task succeeded ha htask hwriting =>
    refine h.setStatus htask (by rw [hwriting]; rfl) (by cases succeeded <;> simp) ?_ h.handed
      (fun x hx => .inl hx) (fun x hx => hx) (fun _ => ?_)
    · intro m earlier hm hearlier
      exact h.order m index earlier task hm hearlier htask (by rw [hwriting]; simp)
    · exact h.known index task htask (.inl hwriting)
  | start nowMs hagent hnone hidle =>
    exact ⟨h.tail, h.after, h.order, h.handed, h.current, h.known⟩
  | _ => exact ⟨h.tail, h.after, h.order, h.handed, h.current, h.known⟩

end Chains

/-- The chain of a bridge that begins to listen. -/
theorem chained_createBridgeServer (options : BridgeServerOptions) :
    Chained (createBridgeServer options).state.trial := by
  have hempty : Chained ({} : Trial) := by
    constructor <;> simp [before]
  unfold createBridgeServer
  dsimp only
  split
  · exact hempty
  · next report _ =>
    have hfirst : ∀ (n : ℕ) (task : WriteTask),
        ((chainWrite report 1 false {}).writes.map (fun task =>
          { task with status := .written }))[n]? = some task →
        n = 0 ∧ task.after = none ∧ task.status = .written := by
      intro n task htask
      rcases n with _ | n
      · simp only [chainWrite, List.nil_append, List.map_cons, List.map_nil,
          List.getElem?_cons_zero, Option.some.injEq] at htask
        subst htask
        exact ⟨rfl, rfl, rfl⟩
      · simp [chainWrite] at htask
    constructor
    · rfl
    · intro n task htask
      obtain ⟨rfl, hafter, -⟩ := hfirst n task htask
      exact hafter
    · intro m n earlier task hlt hearlier htask _
      obtain ⟨rfl, -, -⟩ := hfirst n task htask
      omega
    · exact List.pairwise_singleton _ _
    · intro x hx
      rw [List.mem_singleton.mp hx]
      exact ⟨_, rfl, rfl, by simp⟩
    · intro n task htask _
      obtain ⟨rfl, -, -⟩ := hfirst n task htask
      exact ⟨1, List.mem_singleton.mpr rfl⟩

/-- The reports of a bridge form one chain in every state it reaches. -/
theorem chained_run (options : BridgeServerOptions) (events : List Event) :
    Chained (run (step options) (createBridgeServer options) events).state.trial := by
  refine bridge_always (I := fun b => Chained b.trial) ?_ ?_ (chained_createBridgeServer options)
    events
  · intro a b b' _ h hchained
    rw [h.trial]
    exact ⟨hchained.tail, hchained.after, hchained.order, hchained.handed, hchained.current,
      hchained.known⟩
  · intro a b b' hb h hchained
    rcases h.trial_cases with heq | hmove
    · rw [heq]
      exact hchained
    · exact hchained.move hb.poised hmove

/-- Reports stay in the chain. -/
theorem keeps_run {options : BridgeServerOptions} {w : World} (hw : Sound options False w)
    (events : List Event) {n : ℕ} {task : WriteTask} (htask : w.state.trial.writes[n]? = some task) :
    ∃ task', (run (step options) w events).state.trial.writes[n]? = some task' ∧
      Keeps task task' := by
  have hall : ∀ (n : ℕ) (task : WriteTask), w.state.trial.writes[n]? = some task →
      ∃ task', (run (step options) w events).state.trial.writes[n]? = some task' ∧
        Keeps task task' := by
    refine trial_run (T := fun t t' => ∀ (n : ℕ) (task : WriteTask),
      t.writes[n]? = some task → ∃ task', t'.writes[n]? = some task' ∧ Keeps task task')
      (fun t n task h => ⟨task, h, .refl task⟩) ?_ (fun _ t n task h => ⟨task, h, .refl task⟩)
      (fun _ _ _ h n task => h.keeps) hw events
    intro t t' t'' h h' n task htask
    obtain ⟨task', htask', hkeeps⟩ := h n task htask
    obtain ⟨task'', htask'', hkeeps'⟩ := h' n task' htask'
    exact ⟨task'', htask'', hkeeps.trans hkeeps'⟩
  exact hall n task htask

/-- Reports are with the writer one at a time and in order, and each was of the generation that
was current when it was handed over. -/
structure InOrder (t : Trial) : Prop where
  /-- They were handed over in the order in which they were built. -/
  order : t.handed.Pairwise (fun x y => x.1 < y.1)
  /-- The writer has at most one. -/
  single : ∀ (m n : ℕ) (first second : WriteTask), t.writes[m]? = some first →
    t.writes[n]? = some second → first.status = .writing → second.status = .writing → m = n
  /-- A report was built in the generation that was current when it was handed over. -/
  current : ∀ x ∈ t.handed, ∃ task, t.writes[x.1]? = some task ∧ task.builtIn = x.2
  /-- The writer has or had only what was handed to it. -/
  known : ∀ (n : ℕ) (task : WriteTask), t.writes[n]? = some task →
    task.status = .writing ∨ task.status = .written ∨ task.status = .failed →
    ∃ g, (n, g) ∈ t.handed

/-- Reports that are chained are written in the order they were built in. -/
theorem Chained.inOrder {t : Trial} (h : Chained t) : InOrder t := by
  have hnot : ∀ (m n : ℕ) (first second : WriteTask), t.writes[m]? = some first →
      t.writes[n]? = some second → first.status = .writing → second.status = .writing →
      ¬m < n := by
    intro m n first second hfirst hsecond hwriting hwriting' hlt
    have hsettled := h.order m n first second hlt hfirst hsecond (by rw [hwriting']; simp)
    rw [hwriting] at hsettled
    cases hsettled
  refine ⟨h.handed, fun m n first second hfirst hsecond hwriting hwriting' => ?_, fun x hx => ?_,
    h.known⟩
  · have hle := hnot m n first second hfirst hsecond hwriting hwriting'
    have hge := hnot n m second first hsecond hfirst hwriting' hwriting
    omega
  · obtain ⟨task, htask, hbuilt, -⟩ := h.current x hx
    exact ⟨task, htask, hbuilt⟩

/-- Between two states the qualification was reset, or its fallback was activated or failed. -/
def Overturned (t t' : Trial) : Prop :=
  t.resets < t'.resets ∨ t'.session.fallbackState ≠ t.session.fallbackState

/-- What overturns a qualification in two parts does so in one of them. -/
theorem Overturned.split {t t' t'' : Trial} (h : Overturned t t'') :
    Overturned t t' ∨ Overturned t' t'' := by
  rcases h with hresets | hstate
  · by_cases hlt : t.resets < t'.resets
    · exact .inl (.inl hlt)
    · exact .inr (.inl (by omega))
  · by_cases heq : t'.session.fallbackState = t.session.fallbackState
    · exact .inr (.inr (heq ▸ hstate))
    · exact .inl (.inr heq)

/-- Whatever overturns the qualification begins a generation. -/
def Renews (t t' : Trial) : Prop :=
  t.generation ≤ t'.generation ∧ (Overturned t t' → t.generation < t'.generation)

/-- A change that leaves generation, resets and fallback alone renews nothing. -/
theorem renews_same {t t' : Trial} (hgeneration : t'.generation = t.generation)
    (hresets : t'.resets = t.resets)
    (hstate : t'.session.fallbackState = t.session.fallbackState) : Renews t t' := by
  refine ⟨hgeneration.ge, fun h => ?_⟩
  rcases h with hlt | hne
  · omega
  · exact absurd hstate hne

theorem Renews.trans {t t' t'' : Trial} (h : Renews t t') (h' : Renews t' t'') :
    Renews t t'' := by
  refine ⟨h.1.trans h'.1, fun hover => ?_⟩
  have hsplit : Overturned t t' ∨ Overturned t' t'' := hover.split
  rcases hsplit with hfirst | hsecond
  · exact (h.2 hfirst).trans_le h'.1
  · exact h.1.trans_lt (h'.2 hsecond)

/-- Where everybody is prompt, whoever makes the session fall back begins a generation, and so does
whoever resets it. -/
theorem renews_move {options : TrialOptions} {a : Actor} {t t' : Trial}
    (h : TrialMove options True a t t') : Renews t t' := by
  cases h with
  | look h => exact renews_same rfl rfl h.fallbackState
  | start nowMs hagent hnone hidle =>
    exact renews_same rfl rfl (by simp [startTrial, start_idle nowMs hidle])
  | fall h hfresh hg ho hprompt => exact ⟨hg, fun _ => hprompt trivial⟩
  | quietFails => exact ⟨Nat.le_succ _, fun _ => Nat.lt_succ_self _⟩
  | reset => exact ⟨Nat.le_succ _, fun _ => Nat.lt_succ_self _⟩
  | progress h => exact renews_same rfl rfl h.fallback
  | complete caseId record h => exact renews_same rfl rfl h.fallback
  | _ => exact renews_same rfl rfl rfl

/-- Generations advance, and reports are handed over in generations that are not over. -/
def Advances (t t' : Trial) : Prop :=
  t.generation ≤ t'.generation ∧
    ∃ more, t'.handed = t.handed ++ more ∧ ∀ x ∈ more, t.generation ≤ x.2

theorem Advances.refl (t : Trial) : Advances t t := ⟨le_rfl, [], by simp, by simp⟩

theorem Advances.trans {t t' t'' : Trial} (h : Advances t t') (h' : Advances t' t'') :
    Advances t t'' := by
  obtain ⟨hle, more, hmore, hlater⟩ := h
  obtain ⟨hle', more', hmore', hlater'⟩ := h'
  refine ⟨hle.trans hle', more ++ more', by rw [hmore', hmore, List.append_assoc], ?_⟩
  intro x hx
  rcases List.mem_append.mp hx with hx | hx
  · exact hlater x hx
  · exact hle.trans (hlater' x hx)

/-- Every move of the trial advances it, and gives the reason for each new generation. -/
theorem advances_move {options : TrialOptions} {a : Actor} {t t' : Trial}
    (h : TrialMove options False a t t') : Advances t t' := by
  refine ⟨h.generation_le, ?_⟩
  cases h with
  | hand => exact ⟨[_], rfl, by simp⟩
  | _ => exact ⟨[], by first | rfl | exact (List.append_nil _).symm, by simp⟩

/-- In timely steps, whatever overturns the qualification begins a generation. -/
theorem renews_along {options : BridgeServerOptions} {w : World} (hw : Sound options True w)
    {events : List Event} (htimely : Along (step options) (Timely True) w events) :
    Renews w.state.trial (run (step options) w events).state.trial :=
  trial_along (fun _ => renews_same rfl rfl rfl) (fun _ _ _ h h' => h.trans h')
    (fun _ _ => renews_same rfl rfl rfl) (fun _ _ _ h => renews_move h) hw htimely

/-- Every run advances the qualification, event by event. -/
theorem advances_run {options : BridgeServerOptions} {w : World} (hw : Sound options False w)
    (events : List Event) :
    Advances w.state.trial (run (step options) w events).state.trial :=
  trial_run (fun t => .refl t) (fun _ _ _ h h' => h.trans h') (fun _ t => .refl t)
    (fun _ _ _ h => advances_move h) hw events

/-- A report that was built before a generation began is not started after that. -/
theorem not_started_after (options : BridgeServerOptions) (first second third : List Event) :
    let t := (run (step options) (createBridgeServer options) first).state.trial
    let t' := (run (step options) (createBridgeServer options) (first ++ second)).state.trial
    let t'' :=
      (run (step options) (createBridgeServer options) (first ++ second ++ third)).state.trial
    t.generation < t'.generation → ∀ x ∈ t''.handed, x ∉ t'.handed → t.writes.length ≤ x.1 := by
  intro t t' t'' hturned x hx hnew
  have hchained : Chained t'' := chained_run options (first ++ second ++ third)
  have hsound : Sound options False (run (step options) (createBridgeServer options) first) :=
    sound_run first
  have hkept : Advances t' t'' := by
    have hsound' : Sound options False
        (run (step options) (createBridgeServer options) (first ++ second)) := sound_run _
    have h := advances_run hsound' third
    rwa [← run_append] at h
  obtain ⟨-, more, hmore, hlater⟩ := hkept
  have hafter : t'.generation ≤ x.2 := by
    rw [hmore] at hx
    rcases List.mem_append.mp hx with hx | hx
    · exact absurd hx hnew
    · exact hlater x hx
  by_contra hlt
  rw [not_le] at hlt
  obtain ⟨task, htask⟩ : ∃ task, t.writes[x.1]? = some task :=
    ⟨_, List.getElem?_eq_getElem hlt⟩
  have hbuilt : task.builtIn ≤ t.generation :=
    (hsound.standing.poised.reports x.1 task htask).2.1
  obtain ⟨task', htask', hkeeps⟩ := keeps_run hsound (second ++ third) htask
  rw [← run_append, ← List.append_assoc] at htask'
  obtain ⟨last, hlast, hcurrent⟩ := hchained.inOrder.current x hx
  rw [htask'] at hlast
  cases hlast
  have hsame := hkeeps.1
  omega

/-- Reports are handed to the writer one at a time, in the order in which they were built and in
the generation in which they were built, in every run. In timely steps a report built before a
reset or a fallback, and before the fallback failed, is not started after it. -/
theorem reports_in_order (options : BridgeServerOptions) (first second third : List Event)
    (htimely : Along (step options) (fun w e => timely w e = true) (createBridgeServer options)
      (first ++ second ++ third)) :
    let t := (run (step options) (createBridgeServer options) first).state.trial
    let t' := (run (step options) (createBridgeServer options) (first ++ second)).state.trial
    let t'' :=
      (run (step options) (createBridgeServer options) (first ++ second ++ third)).state.trial
    InOrder t'' ∧
      (Overturned t t' → ∀ x ∈ t''.handed, x ∉ t'.handed → t.writes.length ≤ x.1) := by
  intro t t' t''
  have hchained : Chained t'' := chained_run options (first ++ second ++ third)
  refine ⟨hchained.inOrder, fun hover => not_started_after options first second third ?_⟩
  have hprompt : Along (step options) (Timely True) (createBridgeServer options)
      (first ++ second) :=
    along_iff (step options) |>.mpr (fun front e back h _ =>
      along_iff (step options) |>.mp (along_append (step options) |>.mp htimely).1 front e back h)
  obtain ⟨hfirst, hsecond⟩ := along_append (step options) |>.mp hprompt
  have hrenews := renews_along (sound_along sound_createBridgeServer hfirst) hsecond
  rw [← run_append] at hrenews
  exact hrenews.2 hover

/-- The bench with a clock that reaches the deadline of a qualification started at once. -/
def benchLate : BridgeServerOptions :=
  { benchBridge with now := fun reading =>
      if reading < 5 then 0 else if reading < 8 then 5399999 else 5400000 }

/-- The qualification waits for its build; a browser connects just before the deadline, and a
report of its message that is not binary waits for its turn. -/
def benchQueued : List Event :=
  [.operatorStart 0, .beginWrite 1, .endWrite 1 true, .resume 0 .resolved, .resume 0 .resolved,
    .connectBrowser, .receive 0 ⟨false, []⟩, .process 0]

/-- The build fails in time: the fallback is activated, the report from before it is skipped and
the report of the fallback is started. -/
theorem reports_in_order_bench :
    let t := (run (step benchLate) (createBridgeServer benchLate) benchQueued).state.trial
    let t' := (run (step benchLate) (createBridgeServer benchLate)
      (benchQueued ++ [.resume 0 .rejected])).state.trial
    let t'' := (run (step benchLate) (createBridgeServer benchLate)
      (benchQueued ++ [.resume 0 .rejected] ++ [.beginWrite 2, .beginWrite 3])).state.trial
    Overturned t t' ∧ t.writes.length = 3 ∧ t'.handed = [(0, 1), (1, 1)] ∧
      t''.handed = [(0, 1), (1, 1), (3, 2)] ∧ InOrder t'' ∧
      (Overturned t t' → ∀ x ∈ t''.handed, x ∉ t'.handed → t.writes.length ≤ x.1) :=
  ⟨.inr (by decide +kernel), by decide +kernel, by decide +kernel, by decide +kernel,
    reports_in_order benchLate benchQueued [.resume 0 .rejected] [.beginWrite 2, .beginWrite 3]
      (by decide +kernel)⟩

/-- The build ends just before the deadline, and the greeting of the browser sees the deadline
between the check of the time and the call of the session: the call activates the fallback, no
generation begins, and the report from before it is started after it. -/
theorem not_reports_in_order_overdue :
    let t := (run (step benchLate) (createBridgeServer benchLate)
      (benchQueued ++ [.resume 0 .resolved])).state.trial
    let t' := (run (step benchLate) (createBridgeServer benchLate)
      (benchQueued ++ [.resume 0 .resolved] ++
        [.resume 0 .resolved, .resume 1 .resolved])).state.trial
    let t'' := (run (step benchLate) (createBridgeServer benchLate)
      (benchQueued ++ [.resume 0 .resolved] ++ [.resume 0 .resolved, .resume 1 .resolved] ++
        [.beginWrite 2])).state.trial
    t.session.codec = .cyrinx ∧ t'.session.codec = .quiet ∧ t'.generation = t.generation ∧
      ¬(Overturned t t' → ∀ x ∈ t''.handed, x ∉ t'.handed → t.writes.length ≤ x.1) := by
  refine ⟨by decide +kernel, by decide +kernel, by decide +kernel, fun h => ?_⟩
  have hlate := h (.inr (by decide +kernel)) (2, 1) (by decide +kernel) (by decide +kernel)
  exact absurd hlate (by decide +kernel)

/-- A report that shows the case of an acknowledgement, built since the case was recorded or
completed and in the same generation, is written. -/
def Backs (t : Trial) (k : Acknowledgement) : Prop :=
  ∃ n task, t.writes[n]? = some task ∧ k.mark ≤ n ∧ task.builtIn = k.generation ∧
    Shows task.report k.toCaseFact ∧ task.status = .written

/-- A report goes on backing an acknowledgement, whatever becomes of it. -/
theorem Backs.keep {t t' : Trial} {k : Acknowledgement} (h : Backs t k)
    (hkeeps : ∀ (n : ℕ) (task : WriteTask), t.writes[n]? = some task →
      ∃ task', t'.writes[n]? = some task' ∧ Keeps task task') : Backs t' k := by
  obtain ⟨n, task, htask, hmark, hbuilt, hshows, hwritten⟩ := h
  obtain ⟨task', htask', hbuilt', -, -, hreport, hsettled⟩ := hkeeps n task htask
  have hsame := hsettled (by rw [hwritten]; rfl)
  exact ⟨n, task', htask', hmark, hbuilt'.trans hbuilt, hreport ▸ hshows, hsame.trans hwritten⟩

/-- What a move notes as acknowledged is shown by a report that is written, is of the current
generation, and an agent notes it. -/
theorem acknowledgements_move {options : TrialOptions} {a : Actor} {t t' : Trial}
    (h : TrialMove options False a t t') (hconfig : options.config ≠ none)
    (hauthority : options.reportAuthority ≠ none) :
    ∃ more, t'.acknowledgements = t.acknowledgements ++ more ∧
      (isAgent a = false → more = []) ∧ ∀ k ∈ more, Backs t' k ∧ k.generation = t.generation := by
  have hdurable : ∀ {fact : CaseFact} {kind : AcknowledgementKind},
      Durable options fact t → Backs t ⟨fact, kind⟩ ∧ fact.generation = t.generation := by
    intro fact kind h
    obtain ⟨n, task, htask, hmark, hbuilt, hshows, hwritten, hcurrent⟩ := h hconfig hauthority
    exact ⟨⟨n, task, htask, hmark, hbuilt, hshows, hwritten⟩, hcurrent⟩
  have hagent' : isAgent a = true → isAgent a = false → False := by
    intro hagent hnot
    rw [hagent] at hnot
    cases hnot
  cases h with
  | acknowledge hagent hpending hcompletion hactor h =>
    refine ⟨[_], rfl, fun hnot => (hagent' hagent hnot).elim, fun k hk => ?_⟩
    rw [List.mem_singleton.mp hk]
    exact hdurable h
  | note k hagent h =>
    refine ⟨[_], rfl, fun hnot => (hagent' hagent hnot).elim, fun k hk => ?_⟩
    rw [List.mem_singleton.mp hk]
    exact hdurable h
  | _ => exact ⟨[], (List.append_nil _).symm, fun _ => rfl, by simp⟩

/-- An agent does not end a write. -/
theorem written_move {options : TrialOptions} {a : Actor} {t t' : Trial}
    (h : TrialMove options False a t t') (hagent : isAgent a = true) {n : ℕ} {task' : WriteTask}
    (htask : t'.writes[n]? = some task') (hwritten : task'.status = .written) :
    t.writes[n]? = some task' := by
  have hnot : a ≠ .environment := by
    rintro rfl
    cases hagent
  cases h with
  | chain expired h =>
    simp only [chainWrite] at htask
    by_cases hn : n < t.writes.length
    · rwa [List.getElem?_append_left hn] at htask
    · rw [List.getElem?_append_right (not_lt.mp hn), List.getElem?_singleton] at htask
      split at htask
      · cases htask
        cases hwritten
      · cases htask
  | skip ha => exact absurd ha hnot
  | hand ha => exact absurd ha hnot
  | conclude succeeded ha => exact absurd ha hnot
  | _ => exact htask

/-- A completion that is to be acknowledged is known. -/
theorem completion_move {options : TrialOptions} {a : Actor} {t t' : Trial}
    (h : TrialMove options False a t t')
    (hknown : t.session.pendingCompletionReason ≠ none → t.completion ≠ none)
    (hpending : t'.session.pendingCompletionReason ≠ none) : t'.completion ≠ none := by
  cases h with
  | look h =>
    refine hknown ?_
    rw [h] at hpending
    exact hpending
  | start nowMs hagent hnone hidle =>
    refine hknown ?_
    simpa [startTrial, start_idle nowMs hidle] using hpending
  | fall h => exact absurd (by rw [h.fallen]) hpending
  | quietFails h =>
    obtain ⟨-, rfl⟩ := markQuietFailed_true h
    exact hknown hpending
  | reset h =>
    rcases h with h | ⟨rfl, -⟩
    · exact absurd (by rw [h.fallen]) hpending
    · exact hknown hpending
  | progress h =>
    refine hknown ?_
    rw [← h.pending]
    exact hpending
  | complete => simp
  | acknowledge => simp at hpending
  | _ => exact hknown hpending

/-- What is acknowledged is in a report that is written, and what is to be acknowledged is
known, in every state the bridge reaches. -/
theorem backed_run (options : BridgeServerOptions) (hconfig : options.trial.config ≠ none)
    (hauthority : options.trial.reportAuthority ≠ none) (events : List Event) :
    let t := (run (step options) (createBridgeServer options) events).state.trial
    (∀ k ∈ t.acknowledgements, Backs t k) ∧
      (t.session.pendingCompletionReason ≠ none → t.completion ≠ none) := by
  refine bridge_always (I := fun b => (∀ k ∈ b.trial.acknowledgements, Backs b.trial k) ∧
    (b.trial.session.pendingCompletionReason ≠ none → b.trial.completion ≠ none)) ?_ ?_ ?_ events
  · intro a b b' _ h hI
    rw [h.trial]
    exact hI
  · intro a b b' _ h hI
    rcases h.trial_cases with heq | hmove
    · rwa [heq]
    · refine ⟨fun k hk => ?_, completion_move hmove hI.2⟩
      obtain ⟨more, hmore, -, hbacks⟩ := acknowledgements_move hmove hconfig hauthority
      rw [hmore] at hk
      rcases List.mem_append.mp hk with hk | hk
      · exact (hI.1 k hk).keep (fun _ _ => hmove.keeps)
      · exact (hbacks k hk).1
  · unfold createBridgeServer
    dsimp only
    split
    · simp
    · simp [chainWrite]

/-- The acknowledgement a message to the browser stands for: its kind, its case, and whether there
is a result of the case. -/
def acknowledges : Outbound → Option (AcknowledgementKind × String × Bool)
  | .qualificationResult caseId _ => some (.qualificationResult, caseId, true)
  | .cyrinxResult _ caseId _ cold => some (.cyrinxResult, caseId, !cold)
  | _ => none

/-- A message that stands for an acknowledgement stands for one of these. -/
def Answered (acknowledgements : List Acknowledgement) (message : Outbound) : Prop :=
  ∀ kind caseId recorded, acknowledges message = some (kind, caseId, recorded) →
    ∃ k ∈ acknowledgements, k.kind = kind ∧ k.caseId = caseId ∧
      (recorded = true → k.record.result ≠ none)

/-- What was told stays backed when more is acknowledged. -/
theorem Answered.mono {k k' : List Acknowledgement} {message : Outbound}
    (h : Answered k message) (hsub : k ⊆ k') : Answered k' message := by
  intro kind caseId recorded hack
  obtain ⟨j, hj, hrest⟩ := h kind caseId recorded hack
  exact ⟨j, hsub hj, hrest⟩

/-- What sockets are sent between two states is answered by what is acknowledged between them, in
generations that are not over. -/
def Informs (b b' : Bridge) : Prop :=
  b.trial.generation ≤ b'.trial.generation ∧
    ∃ fresh, b'.trial.acknowledgements = b.trial.acknowledgements ++ fresh ∧
      (∀ k ∈ fresh, b.trial.generation ≤ k.generation) ∧
      ∀ socket, ∃ kept more, effects (b'.ports.sockets socket) = kept ++ more ∧
        kept <+: effects (b.ports.sockets socket) ∧ ∀ message ∈ more, Answered fresh message

section Informs

variable {options : BridgeServerOptions} {a : Actor} {b b' b'' : Bridge}

theorem Informs.refl (b : Bridge) : Informs b b :=
  ⟨le_rfl, [], (List.append_nil _).symm, by simp,
    fun _ => ⟨_, [], (List.append_nil _).symm, List.prefix_rfl, by simp⟩⟩

theorem Informs.trans (h : Informs b b') (h' : Informs b' b'') : Informs b b'' := by
  obtain ⟨hle, fresh, hfresh, hcurrent, hsockets⟩ := h
  obtain ⟨hle', fresh', hfresh', hcurrent', hsockets'⟩ := h'
  refine ⟨hle.trans hle', fresh ++ fresh', by rw [hfresh', hfresh, List.append_assoc], ?_,
    fun socket => ?_⟩
  · intro k hk
    rcases List.mem_append.mp hk with hk | hk
    · exact hcurrent k hk
    · exact hle.trans (hcurrent' k hk)
  obtain ⟨kept, more, hsent, hkept, hmore⟩ := hsockets socket
  obtain ⟨kept', more', hsent', hkept', hmore'⟩ := hsockets' socket
  have hlater : ∀ message ∈ more', Answered (fresh ++ fresh') message := fun message hmessage =>
    (hmore' message hmessage).mono (List.subset_append_right _ _)
  rw [hsent] at hkept'
  rcases List.prefix_or_prefix_of_prefix hkept' (List.prefix_append kept more) with hle | ⟨l, rfl⟩
  · exact ⟨kept', more', hsent', hle.trans hkept, hlater⟩
  · refine ⟨kept, l ++ more', by rw [hsent', List.append_assoc], hkept, ?_⟩
    rw [List.prefix_append_right_inj] at hkept'
    intro message hmessage
    rcases List.mem_append.mp hmessage with hold | hnew
    · exact (hmore message (hkept'.subset hold)).mono (List.subset_append_left _ _)
    · exact hlater message hnew

/-- Who is told nothing new is informed, if generations and acknowledgements only grow. -/
theorem informs_of_reticent (hports : Reticent b.ports b'.ports)
    (hle : b.trial.generation ≤ b'.trial.generation) {fresh : List Acknowledgement}
    (hfresh : b'.trial.acknowledgements = b.trial.acknowledgements ++ fresh)
    (hcurrent : ∀ k ∈ fresh, b.trial.generation ≤ k.generation) : Informs b b' := by
  refine ⟨hle, fresh, hfresh, hcurrent, fun socket => ?_⟩
  rcases hports socket with heq | heq
  · exact ⟨_, [], by rw [heq, List.append_nil], List.prefix_rfl, by simp⟩
  · exact ⟨[], [], heq, List.nil_prefix, by simp⟩

/-- A message on a socket, together with its acknowledgement. -/
theorem informs_acknowledge {message : Outbound} (target : ℕ) (k : Acknowledgement)
    (hgeneration : k.generation = b.trial.generation) (hanswered : Answered [k] message) :
    Informs b { b with
      ports := send target message b.ports
      trial := noteAcknowledgement k b.trial } := by
  refine ⟨le_rfl, [k], rfl, fun j hj => ?_, fun socket => ?_⟩
  · rw [List.mem_singleton.mp hj, hgeneration]
  dsimp only [send]
  rw [sockets_modifySocket]
  split
  · next heq =>
    subst heq
    by_cases heffect : isEffect message = true
    · refine ⟨_, [message], by simp [effects, heffect], List.prefix_rfl, fun m hm => ?_⟩
      rwa [List.mem_singleton.mp hm]
    · exact ⟨_, [], by simp [effects, heffect], List.prefix_rfl, by simp⟩
  · exact ⟨_, [], (List.append_nil _).symm, List.prefix_rfl, by simp⟩

/-- A playback tells nobody of a report. -/
theorem informs_playback (encoded : ByteWords.Bytes) :
    Informs b { b with ports := broadcast (.playback encoded) b.ports } := by
  refine ⟨le_rfl, [], (List.append_nil _).symm, by simp, fun socket => ?_⟩
  unfold broadcast
  dsimp only
  split
  · exact ⟨_, [.playback encoded], by simp [effects, isEffect], List.prefix_rfl,
      by simp [Answered, acknowledges]⟩
  · exact ⟨_, [], (List.append_nil _).symm, List.prefix_rfl, by simp⟩

/-- Every move of the bridge tells its browsers of nothing but what is backed. -/
theorem informs_move (h : Move options False a b b') (hconfig : options.trial.config ≠ none)
    (hauthority : options.trial.reportAuthority ≠ none) : Informs b b' := by
  have hnothing : b.trial.acknowledgements = b.trial.acknowledgements ++ [] :=
    (List.append_nil _).symm
  cases h with
  | ports h =>
    rcases h.discreet_or with hdiscreet | ⟨hreticent, -⟩
    · exact informs_of_reticent hdiscreet.reticent le_rfl hnothing (by simp)
    · exact informs_of_reticent hreticent le_rfl hnothing (by simp)
  | trial h =>
    obtain ⟨more, hmore, -, hbacks⟩ := acknowledgements_move h hconfig hauthority
    exact informs_of_reticent (fun _ => .inl rfl) h.generation_le hmore
      (fun k hk => (hbacks k hk).2.ge)
  | reads => exact informs_of_reticent (fun _ => .inl rfl) le_rfl hnothing (by simp)
  | plays encoded => exact informs_playback encoded
  | results socket epoch direction cold k hkind hagent hfresh hdurable hgeneration hresult =>
    refine informs_acknowledge socket k hgeneration (fun kind caseId recorded hack => ?_)
    cases hack
    exact ⟨k, List.mem_singleton.mpr rfl, hkind, rfl, fun hwarm => hresult (by simpa using hwarm)⟩
  | answers socket epoch k hkind hagent hnone hdurable hgeneration hresult =>
    refine informs_acknowledge socket k hgeneration (fun kind caseId recorded hack => ?_)
    cases hack
    exact ⟨k, List.mem_singleton.mpr rfl, hkind, rfl, fun _ => hresult⟩

/-- The beginning of a method tells nobody anything. -/
theorem informs_prepares {a : Actor} (h : Prepares a b b') : Informs b b' := by
  cases h with
  | message socket message =>
    refine ⟨le_rfl, [], (List.append_nil _).symm, by simp, fun k => ?_⟩
    have hsame : effects ((takeMessage socket message b.ports).sockets k) =
        effects (b.ports.sockets k) := by
      have htaken : Discreet b.ports (modifySocket socket
          (fun k => { k with inbox := k.inbox.tail, underway := .nothing }) b.ports) :=
        discreet_modifySocket (fun _ => rfl)
      unfold takeMessage
      dsimp only
      split
      · exact htaken k
      · exact htaken k
    exact ⟨_, [], hsame.trans (List.append_nil _).symm, List.prefix_rfl, by simp⟩
  | call call =>
    exact ⟨le_rfl, [], (List.append_nil _).symm, by simp, fun _ =>
      ⟨_, [], (List.append_nil _).symm, List.prefix_rfl, by simp⟩⟩

end Informs

/-- Whatever is acknowledged in a step was shown before the step by a report that was written, and
that was built after it was recorded or completed, in the same generation. -/
theorem backed_before (options : BridgeServerOptions) (hconfig : options.trial.config ≠ none)
    (hauthority : options.trial.reportAuthority ≠ none) (events : List Event) (e : Event) :
    let w := run (step options) (createBridgeServer options) events
    ∀ k ∈ (step options w e).state.trial.acknowledgements, Backs w.state.trial k := by
  intro w k hk
  have hsound : Sound options False w := sound_run events
  have hevolves := evolves_step e hsound
  cases hagent : isAgent (actorOf w e) with
  | true =>
    -- an agent does not end a write: what is written after its step was written before
    have hback : ∀ (n : ℕ) (task : WriteTask),
        (step options w e).state.trial.writes[n]? = some task → task.status = .written →
        w.state.trial.writes[n]? = some task := by
      exact trial_step (T := fun t t' => ∀ (n : ℕ) (task : WriteTask),
        t'.writes[n]? = some task → task.status = .written → t.writes[n]? = some task)
        (fun _ _ _ h _ => h)
        (fun _ _ _ h h' n task htask hwritten => h n task (h' n task htask hwritten) hwritten)
        (fun _ _ _ _ h _ => h) (fun _ _ hmove _ _ => written_move hmove hagent)
        hsound.standing hevolves
    have hbacked := (backed_run options hconfig hauthority (events ++ [e])).1
    rw [run_append] at hbacked
    obtain ⟨n, task, htask, hmark, hbuilt, hshows, hwritten⟩ := hbacked k hk
    exact ⟨n, task, hback n task htask hwritten, hmark, hbuilt, hshows, hwritten⟩
  | false =>
    have hsame : (step options w e).state.trial.acknowledgements =
        w.state.trial.acknowledgements := by
      refine trial_step (T := fun t t' => t'.acknowledgements = t.acknowledgements)
        (fun _ => rfl) (fun _ _ _ h h' => h'.trans h) (fun _ _ => rfl) (fun t t' hmove => ?_)
        hsound.standing hevolves
      obtain ⟨more, hmore, hnone, -⟩ := acknowledgements_move hmove hconfig hauthority
      rw [hmore, hnone hagent, List.append_nil]
    rw [hsame] at hk
    exact (backed_run options hconfig hauthority events).1 k hk

/-- Whatever is acknowledged in a step was shown before the step by a report that was written, and
that was built after it was recorded or completed, in the same generation; the bridge answers a
result only for what it acknowledges in the same step, and except for a cold case there is a
result then, which the report tells of; and a completion that is to be acknowledged is known. -/
theorem durable_before_acknowledged (options : BridgeServerOptions)
    (hconfig : options.trial.config ≠ none) (hauthority : options.trial.reportAuthority ≠ none)
    (events : List Event) (e : Event) :
    let w := run (step options) (createBridgeServer options) events
    let w' := step options w e
    (∀ k ∈ w'.state.trial.acknowledgements, Backs w.state.trial k) ∧
      (∃ fresh, w'.state.trial.acknowledgements = w.state.trial.acknowledgements ++ fresh ∧
        (∀ k ∈ fresh, k.generation = w.state.trial.generation) ∧
        ∀ socket, ∃ kept more, effects (w'.state.ports.sockets socket) = kept ++ more ∧
          kept <+: effects (w.state.ports.sockets socket) ∧
          ∀ message ∈ more, Answered fresh message) ∧
      (w.state.trial.session.pendingCompletionReason ≠ none →
        w.state.trial.completion ≠ none) := by
  intro w w'
  have hsound : Sound options False w := sound_run events
  have hbacked := backed_before options hconfig hauthority events e
  refine ⟨hbacked, ?_, (backed_run options hconfig hauthority events).2⟩
  have hinforms : Informs w.state w'.state :=
    step_relation Informs.refl (fun _ _ _ h h' => h.trans h') (fun _ _ _ h => informs_prepares h)
      (fun _ _ _ h => informs_move h hconfig hauthority) hsound.standing (evolves_step e hsound)
  obtain ⟨-, fresh, hfresh, hcurrent, hsockets⟩ := hinforms
  refine ⟨fresh, hfresh, fun k hk => le_antisymm ?_ (hcurrent k hk), hsockets⟩
  obtain ⟨n, task, htask, -, hbuilt, -⟩ := hbacked k (hfresh ▸ List.mem_append_right _ hk)
  rw [← hbuilt]
  exact (hsound.standing.poised.reports n task htask).2.1

/-- A browser reports the case and its report is written. -/
def benchRecorded : List Event :=
  [.connectBrowser, .resume 0 .resolved,
    .receive 0 (benchCaseResult 1 0), .process 0, .resume 0 .resolved, .beginWrite 1, .endWrite 1 true]

/-- The result the browser reports. -/
def benchRecord : RecordedResult where
  result :=
    { epoch := 1
      caseId := "case"
      receivedSha256 := some benchDigest
      acquisitionMs := 0
      airtimeMs := 0
      deliveryCount := 1
      bytePerfect := true
      coldAcquired := false
      complete := true
      corrupt := false
      missing := 0
      duplicates := 0
      queues := {} }
  origin := .browser .idle

/-- The case is acknowledged with its result, and a report that tells of it was written before. -/
theorem durable_before_acknowledged_bench :
    benchBridge.trial.config ≠ none ∧ benchBridge.trial.reportAuthority ≠ none ∧
      let w := run (step benchBridge) (createBridgeServer benchBridge) benchRecorded
      let w' := step benchBridge w (.resume 0 .resolved)
      w.state.trial.acknowledgements = [] ∧
        w'.state.trial.acknowledgements =
          [⟨⟨"case", 1, 1, ⟨some benchRecord, false⟩⟩, .qualificationResult⟩] ∧
        effects (w'.state.ports.sockets 0) = [.qualificationResult "case" 1] ∧
        ∀ k ∈ w'.state.trial.acknowledgements, Backs w.state.trial k := by
  refine ⟨by decide, by decide, by decide +kernel, by decide +kernel, by decide +kernel, ?_⟩
  exact (durable_before_acknowledged benchBridge (by decide) (by decide) benchRecorded
    (.resume 0 .resolved)).1

end Fipwave.ReportChain
