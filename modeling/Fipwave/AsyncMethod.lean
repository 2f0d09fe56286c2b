import Fipwave.TransitionRun

/-!
# Asynchronous methods over one object

An asynchronous method runs without interruption up to its next await, where
it leaves the object to other methods; when the promise it waits for settles
it runs on with the object as it is then. A run is the tree of these
sections. A method meets a contract when each of its sections keeps a
guarantee, under the rely that others only do what they are allowed to
between its sections; contracts compose along the syntax of methods, and a
system of methods that meet their contracts evolves by their guarantees.
-/

namespace Fipwave.AsyncMethod

/-- A method up to its next await: it returned, threw, or waits for a promise. -/
inductive Run (σ ε ω ρ α : Type) : Type
  | ok (value : α) (s : σ)
  | error (fault : ε) (s : σ)
  | suspend (on : ω) (s : σ) (resume : ρ → σ → Run σ ε ω ρ α)

/-- An asynchronous method of an object. -/
def Async (σ ε ω ρ α : Type) : Type := σ → Run σ ε ω ρ α

variable {σ ε ω ρ α β : Type}

/-- Run on with a second method once the first one returns. -/
def Run.bind : Run σ ε ω ρ α → (α → Async σ ε ω ρ β) → Run σ ε ω ρ β
  | .ok value s, g => g value s
  | .error fault s, _ => .error fault s
  | .suspend on s resume, g => .suspend on s (fun reply t => (resume reply t).bind g)

/-- Run a handler where the method throws. -/
def Run.catching : Run σ ε ω ρ α → (ε → Async σ ε ω ρ α) → Run σ ε ω ρ α
  | .ok value s, _ => .ok value s
  | .error fault s, g => g fault s
  | .suspend on s resume, g => .suspend on s (fun reply t => (resume reply t).catching g)

instance : Monad (Async σ ε ω ρ) where
  pure value := fun s => .ok value s
  bind f g := fun s => (f s).bind g

/-- The object as it is. -/
def current : Async σ ε ω ρ σ := fun s => .ok s s

/-- Change the object. -/
def change (f : σ → σ) : Async σ ε ω ρ Unit := fun s => .ok () (f s)

/-- Throw. -/
def raise (fault : ε) : Async σ ε ω ρ α := fun s => .error fault s

/-- Wait for a promise. -/
def await (on : ω) : Async σ ε ω ρ ρ := fun s => .suspend on s (fun reply t => .ok reply t)

/-- Run a handler on what a method throws. -/
def catching (f : Async σ ε ω ρ α) (g : ε → Async σ ε ω ρ α) : Async σ ε ω ρ α :=
  fun s => (f s).catching g

/-- What the sections of one method do and what they may count on. -/
structure Contract (σ ω ρ : Type) where
  /-- What one section does to the object. -/
  guarantee : σ → σ → Prop
  /-- What happens to the object between two sections. -/
  rely : σ → σ → Prop
  /-- Replies with which a wait can end. -/
  admits : σ → ω → ρ → Prop
  /-- What holds while the method waits. -/
  held : σ → Prop
  /-- A section may do nothing. -/
  refl : ∀ s, guarantee s s
  /-- A section may do one thing after another. -/
  trans : ∀ s t u, guarantee s t → guarantee t u → guarantee s u

/-- Every section of the run keeps the contract, and both exits their conditions. -/
def Upholds (C : Contract σ ω ρ) (Q : α → σ → Prop) (E : ε → σ → Prop) :
    σ → Run σ ε ω ρ α → Prop
  | base, .ok value s => C.guarantee base s ∧ Q value s
  | base, .error fault s => C.guarantee base s ∧ E fault s
  | base, .suspend on s resume => C.guarantee base s ∧ C.held s ∧
      ∀ reply t, C.rely s t → C.admits t on reply → Upholds C Q E t (resume reply t)

/-- The method keeps the contract from every object of a kind. -/
def Meets (C : Contract σ ω ρ) (P : σ → Prop) (f : Async σ ε ω ρ α) (Q : α → σ → Prop)
    (E : ε → σ → Prop) : Prop :=
  ∀ s, P s → Upholds C Q E s (f s)

section Rules

variable {C : Contract σ ω ρ} {P P' : σ → Prop} {Q Q' : α → σ → Prop} {E E' : ε → σ → Prop}

/-- A section may begin earlier. -/
theorem Upholds.rebase {base base' : σ} {r : Run σ ε ω ρ α} (hbase : C.guarantee base' base)
    (h : Upholds C Q E base r) : Upholds C Q E base' r := by
  cases r with
  | ok value s => exact ⟨C.trans _ _ _ hbase h.1, h.2⟩
  | error fault s => exact ⟨C.trans _ _ _ hbase h.1, h.2⟩
  | suspend on s resume => exact ⟨C.trans _ _ _ hbase h.1, h.2⟩

/-- A run's postconditions may be weakened. -/
theorem Upholds.mono {base : σ} {r : Run σ ε ω ρ α} (hQ : ∀ value s, Q value s → Q' value s)
    (hE : ∀ fault s, E fault s → E' fault s) (h : Upholds C Q E base r) :
    Upholds C Q' E' base r := by
  induction r generalizing base with
  | ok value s => exact ⟨h.1, hQ _ _ h.2⟩
  | error fault s => exact ⟨h.1, hE _ _ h.2⟩
  | suspend on s resume ih =>
    exact ⟨h.1, h.2.1, fun reply t hrely hadmits => ih reply t (h.2.2 reply t hrely hadmits)⟩

/-- A run followed by a method upholds the contract when each part does, the second from where the
first ended. -/
theorem Upholds.bind {base : σ} {r : Run σ ε ω ρ α} {g : α → Async σ ε ω ρ β}
    {S : β → σ → Prop} (h : Upholds C Q E base r)
    (hg : ∀ value s, Q value s → Upholds C S E s (g value s)) :
    Upholds C S E base (r.bind g) := by
  induction r generalizing base with
  | ok value s => exact (hg value s h.2).rebase h.1
  | error fault s => exact h
  | suspend on s resume ih =>
    exact ⟨h.1, h.2.1, fun reply t hrely hadmits => ih reply t (h.2.2 reply t hrely hadmits)⟩

/-- A caught run upholds the contract when the handler does, from every fault the run can raise. -/
theorem Upholds.catching {base : σ} {r : Run σ ε ω ρ α} {g : ε → Async σ ε ω ρ α}
    (h : Upholds C Q E base r) (hg : ∀ fault s, E fault s → Upholds C Q E' s (g fault s)) :
    Upholds C Q E' base (r.catching g) := by
  induction r generalizing base with
  | ok value s => exact h
  | error fault s => exact (hg fault s h.2).rebase h.1
  | suspend on s resume ih =>
    exact ⟨h.1, h.2.1, fun reply t hrely hadmits => ih reply t (h.2.2 reply t hrely hadmits)⟩

/-- What a narrower contract leaves alone and nobody else touches stays. -/
theorem Upholds.frame {C' : Contract σ ω ρ} {R : σ → Prop}
    (hguarantee : ∀ s t, C'.guarantee s t → C.guarantee s t ∧ (R s → R t))
    (hrely : ∀ s t, C.rely s t → C'.rely s t ∧ (R s → R t))
    (hadmits : ∀ s on reply, C.admits s on reply → C'.admits s on reply)
    (hheld : ∀ s, C'.held s → C.held s) {base : σ} {r : Run σ ε ω ρ α} (hbase : R base)
    (h : Upholds C' Q E base r) :
    Upholds C (fun value s => Q value s ∧ R s) (fun fault s => E fault s ∧ R s) base r := by
  induction r generalizing base with
  | ok value s => exact ⟨(hguarantee _ _ h.1).1, h.2, (hguarantee _ _ h.1).2 hbase⟩
  | error fault s => exact ⟨(hguarantee _ _ h.1).1, h.2, (hguarantee _ _ h.1).2 hbase⟩
  | suspend on s resume ih =>
    refine ⟨(hguarantee _ _ h.1).1, hheld s h.2.1, fun reply t hst hreply => ?_⟩
    have hs := (hguarantee _ _ h.1).2 hbase
    exact ih reply t ((hrely s t hst).2 hs) (h.2.2 reply t (hrely s t hst).1 (hadmits _ _ _ hreply))

/-- What two proofs say of the exits of one run holds of it together. -/
theorem Upholds.and {base : σ} {r : Run σ ε ω ρ α} (h : Upholds C Q E base r)
    (h' : Upholds C Q' E base r) : Upholds C (fun value s => Q value s ∧ Q' value s) E base r := by
  induction r generalizing base with
  | ok value s => exact ⟨h.1, h.2, h'.2⟩
  | error fault s => exact h
  | suspend on s resume ih =>
    exact ⟨h.1, h.2.1, fun reply t hrely hadmits =>
      ih reply t (h.2.2 reply t hrely hadmits) (h'.2.2 reply t hrely hadmits)⟩

/-- The rule of sequence: what the first method establishes is what the second starts from. -/
theorem Meets.bind {f : Async σ ε ω ρ α} {g : α → Async σ ε ω ρ β} {S : β → σ → Prop}
    (hf : Meets C P f Q E) (hg : ∀ value, Meets C (Q value) (g value) S E) :
    Meets C P (f >>= g) S E :=
  fun s hs => (hf s hs).bind (fun value t ht => hg value t ht)

/-- The rule of the handler: it starts from what holds where the body failed. -/
theorem Meets.catching {f : Async σ ε ω ρ α} {g : ε → Async σ ε ω ρ α}
    (hf : Meets C P f Q E) (hg : ∀ fault, Meets C (E fault) (g fault) Q E') :
    Meets C P (AsyncMethod.catching f g) Q E' :=
  fun s hs => (hf s hs).catching (fun fault t ht => hg fault t ht)

/-- The rule of consequence. -/
theorem Meets.weaken {f : Async σ ε ω ρ α} (h : Meets C P f Q E) (hP : ∀ s, P' s → P s)
    (hQ : ∀ value s, Q value s → Q' value s) (hE : ∀ fault s, E fault s → E' fault s) :
    Meets C P' f Q' E' :=
  fun s hs => (h s (hP s hs)).mono hQ hE

/-- A method keeps, beside its own contract, a fact that its guarantee and its rely both keep. -/
theorem Meets.frame {C' : Contract σ ω ρ} {R : σ → Prop} {f : Async σ ε ω ρ α}
    (h : Meets C' P f Q E)
    (hguarantee : ∀ s t, C'.guarantee s t → C.guarantee s t ∧ (R s → R t))
    (hrely : ∀ s t, C.rely s t → C'.rely s t ∧ (R s → R t))
    (hadmits : ∀ s on reply, C.admits s on reply → C'.admits s on reply)
    (hheld : ∀ s, C'.held s → C.held s) :
    Meets C (fun s => P s ∧ R s) f (fun value s => Q value s ∧ R s)
      (fun fault s => E fault s ∧ R s) :=
  fun s hs => (h s hs.1).frame hguarantee hrely hadmits hheld hs.2

/-- Two outcomes of one method, where both are promised. -/
theorem Meets.and {f : Async σ ε ω ρ α} (h : Meets C P f Q E) (h' : Meets C P' f Q' E) :
    Meets C (fun s => P s ∧ P' s) f (fun value s => Q value s ∧ Q' value s) E :=
  fun s hs => (h s hs.1).and (h' s hs.2)

/-- Returning a value meets what holds of it already. -/
theorem meets_pure (value : α) (h : ∀ s, P s → Q value s) :
    Meets C P (pure value : Async σ ε ω ρ α) Q E :=
  fun s hs => ⟨C.refl s, h s hs⟩

/-- Raising a fault meets what holds of it already. -/
theorem meets_raise (fault : ε) (h : ∀ s, P s → E fault s) :
    Meets C P (raise fault : Async σ ε ω ρ α) Q E :=
  fun s hs => ⟨C.refl s, h s hs⟩

/-- A change of the state has to stay within the guarantee. -/
theorem meets_change {f : σ → σ} {Q : Unit → σ → Prop}
    (h : ∀ s, P s → C.guarantee s (f s) ∧ Q () (f s)) :
    Meets C P (change f : Async σ ε ω ρ Unit) Q E :=
  fun s hs => h s hs

/-- An await hands the state over: it must be fit to be left, and comes back as the rely allows. -/
theorem meets_await {on : ω} {Q : ρ → σ → Prop} (hheld : ∀ s, P s → C.held s)
    (h : ∀ s t reply, P s → C.rely s t → C.admits t on reply → Q reply t) :
    Meets C P (await on : Async σ ε ω ρ ρ) Q E :=
  fun s hs => ⟨C.refl s, hheld s hs, fun reply t hrely hadmits =>
    ⟨C.refl t, h s t reply hs hrely hadmits⟩⟩

end Rules

section Systems

variable {τ : Type}

/-- A method that waits, with the part it plays. -/
structure Process (τ σ ε ω ρ : Type) where
  /-- The part it plays. -/
  part : τ
  /-- What it waits for. -/
  on : ω
  /-- How it runs on. -/
  resume : ρ → σ → Run σ ε ω ρ Unit

/-- An object and the methods that wait. -/
structure System (τ σ ε ω ρ : Type) where
  /-- The object. -/
  state : σ
  /-- The methods, oldest first. -/
  processes : List (Process τ σ ε ω ρ)

/-- What a section leaves; a method that ends, in either way, is gone. -/
def settle (part : τ) (rest : List (Process τ σ ε ω ρ)) :
    Run σ ε ω ρ Unit → System τ σ ε ω ρ
  | .ok _ s => ⟨s, rest⟩
  | .error _ s => ⟨s, rest⟩
  | .suspend on s resume => ⟨s, rest ++ [⟨part, on, resume⟩]⟩

/-- Begin a method. -/
def launch (part : τ) (f : Async σ ε ω ρ Unit) (w : System τ σ ε ω ρ) : System τ σ ε ω ρ :=
  settle part w.processes (f w.state)

/-- A waiting method runs on, if its wait can end so. -/
def resumeAt (admits : σ → ω → ρ → Bool) (index : ℕ) (reply : ρ) (w : System τ σ ε ω ρ) :
    System τ σ ε ω ρ :=
  match w.processes[index]? with
  | none => w
  | some p =>
    if admits w.state p.on reply then
      settle p.part (w.processes.eraseIdx index) (p.resume reply w.state)
    else w

/-- The contracts of the parts fit together: what one part does is within the rely of
every other part it can coexist with. -/
structure Discipline (τ σ ω ρ : Type) where
  /-- Contract of each part. -/
  contract : τ → Contract σ ω ρ
  /-- Parts that can wait at the same time. -/
  coexist : τ → τ → Prop
  /-- Coexistence is mutual. -/
  symm : ∀ p q, coexist p q → coexist q p
  /-- Guarantees are within relies. -/
  fits : ∀ p q, coexist p q → ∀ s t, (contract q).guarantee s t → (contract p).rely s t
  /-- A rely may stretch over several sections. -/
  stretch : ∀ p s t u, (contract p).rely s t → (contract p).rely t u → (contract p).rely s u
  /-- Nothing need happen. -/
  still : ∀ p s, (contract p).rely s s
  /-- What a waiting method holds is not taken from it. -/
  keeps : ∀ p s t, (contract p).held s → (contract p).rely s t → (contract p).held t

variable (D : Discipline τ σ ω ρ)

/-- The method that waits keeps its contract when it runs on. -/
def Ready (s : σ) (p : Process τ σ ε ω ρ) : Prop :=
  (D.contract p.part).held s ∧ ∀ reply t, (D.contract p.part).rely s t →
    (D.contract p.part).admits t p.on reply →
    Upholds (D.contract p.part) (fun _ _ => True) (fun _ _ => True) t (p.resume reply t)

/-- Every waiting method keeps its contract, and all of them coexist. -/
structure Orderly (w : System τ σ ε ω ρ) : Prop where
  /-- Each one is ready. -/
  ready : ∀ p ∈ w.processes, Ready D w.state p
  /-- They coexist. -/
  coexist : w.processes.Pairwise (fun p q => D.coexist p.part q.part)

variable {D}

/-- A method stays ready while what happens is within its rely. -/
theorem Ready.evolve {s t : σ} {p : Process τ σ ε ω ρ} (h : Ready D s p)
    (hrely : (D.contract p.part).rely s t) : Ready D t p :=
  ⟨D.keeps _ _ _ h.1 hrely,
    fun reply u hu hadmits => h.2 reply u (D.stretch _ _ _ _ hrely hu) hadmits⟩

/-- A system stays orderly while what happens is within every rely. -/
theorem Orderly.evolve {s t : σ} {processes : List (Process τ σ ε ω ρ)}
    (h : Orderly D (⟨s, processes⟩ : System τ σ ε ω ρ))
    (hrely : ∀ p ∈ processes, (D.contract p.part).rely s t) :
    Orderly D (⟨t, processes⟩ : System τ σ ε ω ρ) :=
  ⟨fun p hp => (h.ready p hp).evolve (hrely p hp), h.coexist⟩

/-- A section that keeps its contract evolves the object by its guarantee and leaves an
orderly system. -/
theorem orderly_settle {part : τ} {s : σ} {rest : List (Process τ σ ε ω ρ)}
    {r : Run σ ε ω ρ Unit} (hrest : Orderly D (⟨s, rest⟩ : System τ σ ε ω ρ))
    (hcoexist : ∀ p ∈ rest, D.coexist p.part part)
    (hrun : Upholds (D.contract part) (fun _ _ => True) (fun _ _ => True) s r) :
    (D.contract part).guarantee s (settle part rest r).state ∧ Orderly D (settle part rest r) := by
  have hkeep : ∀ {t : σ}, (D.contract part).guarantee s t → ∀ p ∈ rest, Ready D t p :=
    fun hstep p hp => (hrest.ready p hp).evolve (D.fits _ _ (hcoexist p hp) _ _ hstep)
  cases r with
  | ok value t => exact ⟨hrun.1, hkeep hrun.1, hrest.coexist⟩
  | error fault t => exact ⟨hrun.1, hkeep hrun.1, hrest.coexist⟩
  | suspend on t resume =>
    refine ⟨hrun.1, ?_, ?_⟩
    · intro p hp
      rcases List.mem_append.mp hp with hp | hp
      · exact hkeep hrun.1 p hp
      · rw [List.mem_singleton.mp hp]
        exact hrun.2
    · refine List.pairwise_append.mpr ⟨hrest.coexist, List.pairwise_singleton _ _, ?_⟩
      intro p hp q hq
      rw [List.mem_singleton.mp hq]
      exact hcoexist p hp

/-- Beginning a method that keeps its contract. -/
theorem orderly_launch {part : τ} {f : Async σ ε ω ρ Unit} {w : System τ σ ε ω ρ}
    (hw : Orderly D w) (hcoexist : ∀ p ∈ w.processes, D.coexist p.part part)
    (hrun : Upholds (D.contract part) (fun _ _ => True) (fun _ _ => True) w.state (f w.state)) :
    (D.contract part).guarantee w.state (launch part f w).state ∧ Orderly D (launch part f w) :=
  orderly_settle hw hcoexist hrun

/-- A waiting method runs on: nothing happens, or its part does what it may. -/
theorem orderly_resumeAt {admits : σ → ω → ρ → Bool} {index : ℕ} {reply : ρ}
    {w : System τ σ ε ω ρ} (hw : Orderly D w)
    (hadmits : ∀ p, w.processes[index]? = some p → admits w.state p.on reply = true →
      (D.contract p.part).admits w.state p.on reply) :
    (resumeAt admits index reply w = w ∨ ∃ p, w.processes[index]? = some p ∧
      (D.contract p.part).guarantee w.state (resumeAt admits index reply w).state) ∧
    Orderly D (resumeAt admits index reply w) := by
  unfold resumeAt
  split
  · exact ⟨.inl rfl, hw⟩
  · next p hp =>
    split
    · next hcan =>
      have hmem := List.mem_of_getElem? hp
      have hready := hw.ready p hmem
      have hrun := hready.2 reply w.state (D.still _ _) (hadmits p hp hcan)
      have hsub := List.eraseIdx_sublist w.processes index
      have hothers : ∀ q ∈ w.processes.eraseIdx index, D.coexist q.part p.part := by
        intro q hq
        obtain ⟨i, hne, hi⟩ := List.mem_eraseIdx_iff_getElem?.mp hq
        have hpair := List.pairwise_iff_getElem.mp hw.coexist
        obtain ⟨hilt, hieq⟩ := List.getElem?_eq_some_iff.mp hi
        obtain ⟨hplt, hpeq⟩ := List.getElem?_eq_some_iff.mp hp
        rcases Nat.lt_or_gt_of_ne hne with hlt | hlt
        · have h := hpair i index hilt hplt hlt
          rwa [hieq, hpeq] at h
        · have h := hpair index i hplt hilt hlt
          rw [hieq, hpeq] at h
          exact D.symm _ _ h
      have hrest : Orderly D (⟨w.state, w.processes.eraseIdx index⟩ : System τ σ ε ω ρ) :=
        ⟨fun q hq => hw.ready q (hsub.mem hq), hw.coexist.sublist hsub⟩
      have hsettled := orderly_settle hrest hothers hrun
      exact ⟨.inr ⟨p, hp, hsettled.1⟩, hsettled.2⟩
    · exact ⟨.inl rfl, hw⟩

end Systems

end Fipwave.AsyncMethod
