import Mathlib.Data.List.Basic

/-! # Transition systems and runs

    Two views of "step after step", independent of any particular program:

    * `System`: an initial predicate and a labelled step relation, with the
      set of reachable states and the invariant rule.
    * `run`: a step function that may fail, folded over a list of labels,
      with the rule that says for which lists every prefix of the run is good.
-/

namespace LTS

universe u v w

variable {State : Type u} {Label : Type v}

/-! ## Step relations -/

/-- A labelled transition system. -/
structure System (State : Type u) (Label : Type v) where
  /-- The states a run may start in. -/
  init : State → Prop
  /-- `step s l s'`: label `l` may take `s` to `s'`. -/
  step : State → Label → State → Prop

/-- The states some finite run of `sys` ends in. -/
inductive System.Reachable (sys : System State Label) : State → Prop where
  | start {s : State} (h : sys.init s) : sys.Reachable s
  | next {s s' : State} (l : Label) (hs : sys.Reachable s) (h : sys.step s l s') :
      sys.Reachable s'

/-- **Invariant rule**: what holds initially and is kept by every step holds
    in every reachable state. -/
theorem System.invariant {sys : System State Label} {P : State → Prop}
    (hinit : ∀ s, sys.init s → P s)
    (hstep : ∀ s l s', P s → sys.step s l s' → P s') :
    ∀ s, sys.Reachable s → P s := by
  intro s hs
  induction hs with
  | start h => exact hinit _ h
  | next l _ h ih => exact hstep _ l _ ih h

/-- The runs of `sys` whose steps all meet a condition on the state before the
    step and its label. -/
def System.restrict (sys : System State Label) (cond : State → Label → Prop) :
    System State Label where
  init := sys.init
  step := fun s l s' => cond s l ∧ sys.step s l s'

/-- A weaker condition leaves more runs. -/
theorem System.reachable_restrict {sys : System State Label} {cond cond' : State → Label → Prop}
    (hweak : ∀ s l, cond s l → cond' s l) {s : State} (hs : (sys.restrict cond).Reachable s) :
    (sys.restrict cond').Reachable s := by
  induction hs with
  | start h => exact .start h
  | next l _ h ih => exact .next l ih ⟨hweak _ l h.1, h.2⟩

/-! ## Progress -/

/-- Some steps lead from one state to another. -/
inductive System.Leads (sys : System State Label) : State → State → Prop where
  | refl (s : State) : sys.Leads s s
  | head {s t u : State} (l : Label) (h : sys.step s l t) (hrest : sys.Leads t u) :
      sys.Leads s u

/-- **Progress rule**: if every state with `P` is at its goal or has a step that
    keeps `P` and lowers the rank, the goal can be reached from each of them. -/
theorem System.leads_of_rank {sys : System State Label} {P Goal : State → Prop}
    (rank : State → Nat)
    (hstep : ∀ s, P s → ¬ Goal s → ∃ l s', sys.step s l s' ∧ P s' ∧ rank s' < rank s) :
    ∀ s, P s → ∃ s', sys.Leads s s' ∧ P s' ∧ Goal s' := by
  intro s
  induction hr : rank s using Nat.strongRecOn generalizing s with
  | ind r ih =>
    intro hs
    by_cases hgoal : Goal s
    · exact ⟨s, .refl s, hs, hgoal⟩
    · obtain ⟨l, t, hst, ht, hlt⟩ := hstep s hs hgoal
      obtain ⟨u, htu, hu⟩ := ih (rank t) (hr ▸ hlt) t rfl ht
      exact ⟨u, .head l hst htu, hu⟩

/-! ## Step functions that may fail -/

variable {Fault : Type w}

/-- Execute the labels in order, stopping at the first fault. -/
def run (step : State → Label → Except Fault State) (s : State) (ls : List Label) :
    Except Fault State :=
  ls.foldlM step s

@[simp] theorem run_nil (step : State → Label → Except Fault State) (s : State) :
    run step s [] = .ok s := rfl

@[simp] theorem run_cons (step : State → Label → Except Fault State) (s : State)
    (l : Label) (ls : List Label) :
    run step s (l :: ls) = step s l >>= fun s' => run step s' ls := by
  simp [run]

theorem run_append (step : State → Label → Except Fault State) (s : State)
    (ls ls' : List Label) :
    run step s (ls ++ ls') = run step s ls >>= fun s' => run step s' ls' := by
  simp [run]

/-- The last step of a run. -/
theorem run_snoc_ok {step : State → Label → Except Fault State} {s s' : State}
    {ls : List Label} {l : Label} (h : run step s ls = .ok s') :
    run step s (ls ++ [l]) = step s' l := by
  rw [run_append, h]
  show (step s' l >>= fun t => Except.ok t) = step s' l
  cases step s' l <;> rfl

/-- **Invariant rule**, for runs of a step function. -/
theorem run_invariant {step : State → Label → Except Fault State} {P : State → Prop}
    (hstep : ∀ s l s', P s → step s l = .ok s' → P s') :
    ∀ ls s s', P s → run step s ls = .ok s' → P s' := by
  intro ls
  induction ls with
  | nil =>
    intro s s' h hrun
    cases hrun
    exact h
  | cons l ls ih =>
    intro s s' h hrun
    rw [run_cons] at hrun
    cases hs : step s l with
    | error f =>
      rw [hs] at hrun
      cases hrun
    | ok t =>
      rw [hs] at hrun
      exact ih t s' (hstep s l t h hs) hrun

/-- **Consumption rule**: a step takes the next label off the list `P` speaks of,
    so a run takes them all. -/
theorem run_consumes {step : State → Label → Except Fault State} {P : State → List Label → Prop}
    (hstep : ∀ s l ls, P s (l :: ls) → ∃ s', step s l = .ok s' ∧ P s' ls) :
    ∀ ls s, P s ls → ∃ s', run step s ls = .ok s' ∧ P s' [] := by
  intro ls
  induction ls with
  | nil => exact fun s h => ⟨s, rfl, h⟩
  | cons l ls ih =>
    intro s h
    obtain ⟨s', hs', h'⟩ := hstep s l ls h
    rw [run_cons, hs']
    exact ih s' h'

/-- **Fault rule**: if a step leads to the fault `f` exactly when `cond` does not hold, a
    run avoids `f` exactly when `cond` holds at each step that it reaches. -/
theorem run_avoids {step : State → Label → Except Fault State} {f : Fault}
    {cond : State → Label → Prop} (hstep : ∀ s l, step s l = .error f ↔ ¬ cond s l) :
    ∀ ls s, run step s ls ≠ .error f ↔
      ∀ n (hn : n < ls.length) s', run step s (ls.take n) = .ok s' → cond s' ls[n] := by
  intro ls
  induction ls with
  | nil =>
    intro s
    simp
  | cons l ls ih =>
    intro s
    rw [run_cons]
    cases hs : step s l with
    | error g =>
      -- The run ends here, whatever the fault is.
      have hrest : ∀ n s', run step s ((l :: ls).take (n + 1)) ≠ .ok s' := by
        intro n s'
        rw [List.take_succ_cons, run_cons, hs]
        intro h
        cases h
      constructor
      · intro hne n hn s' hrun
        cases n with
        | zero =>
          cases hrun
          by_contra hcond
          rw [(hstep s l).mpr hcond] at hs
          cases hs
          exact hne rfl
        | succ n => exact absurd hrun (hrest n s')
      · intro hall heq
        have hcond := hall 0 (by simp) s rfl
        have hg : g = f := by simpa [bind, Except.bind] using heq
        rw [hg] at hs
        exact (hstep s l).mp hs hcond
    | ok t =>
      have hfirst : cond s l := by
        by_contra hcond
        rw [(hstep s l).mpr hcond] at hs
        cases hs
      show run step t ls ≠ .error f ↔ _
      rw [ih t]
      constructor
      · intro hall n hn s' hrun
        cases n with
        | zero =>
          cases hrun
          exact hfirst
        | succ n =>
          rw [List.take_succ_cons, run_cons, hs] at hrun
          exact hall n (by simpa using hn) s' hrun
      · intro hall n hn s' hrun
        refine hall (n + 1) (by simpa using hn) s' ?_
        rw [List.take_succ_cons, run_cons, hs]
        exact hrun

/-- **Refinement rule**: if from related states a step that meets `cond` does not fail
    and keeps step with `spec`, so does a run whose steps all meet `cond`. -/
theorem run_refines {Spec : Type*} {step : State → Label → Except Fault State}
    {spec : Spec → Label → Spec} {R : State → Spec → Prop} {cond : State → Label → Prop}
    (hstep : ∀ s t l, R s t → cond s l → ∃ s', step s l = .ok s' ∧ R s' (spec t l)) :
    ∀ ls s t, R s t →
      (∀ n (hn : n < ls.length) s', run step s (ls.take n) = .ok s' → cond s' ls[n]) →
      ∃ s', run step s ls = .ok s' ∧ R s' (ls.foldl spec t) := by
  intro ls
  induction ls with
  | nil => exact fun s t h _ => ⟨s, rfl, h⟩
  | cons l ls ih =>
    intro s t h hcond
    obtain ⟨u, hu, hR⟩ := hstep s t l h (hcond 0 (by simp) s rfl)
    have hrest : ∀ n (hn : n < ls.length) s', run step u (ls.take n) = .ok s' →
        cond s' ls[n] := by
      intro n hn s' hrun
      refine hcond (n + 1) (by simpa using hn) s' ?_
      rw [List.take_succ_cons, run_cons, hu]
      exact hrun
    rw [run_cons, hu]
    exact ih u _ hR hrest

/-- **Safety rule**: if from every state with `P` a step that meets `cond` does not fail
    and keeps `P`, then a run whose steps all meet `cond` does not fail and ends with
    `P`. -/
theorem run_safe {step : State → Label → Except Fault State} {P : State → Prop}
    {cond : State → Label → Prop}
    (hstep : ∀ s l, P s → cond s l → ∃ s', step s l = .ok s' ∧ P s') :
    ∀ ls s, P s →
      (∀ n (hn : n < ls.length) s', run step s (ls.take n) = .ok s' → cond s' ls[n]) →
      ∃ s', run step s ls = .ok s' ∧ P s' := by
  intro ls s h hcond
  have hkeep : ∀ s (t : Unit) l, P s → cond s l → ∃ s', step s l = .ok s' ∧ P s' :=
    fun s _ l => hstep s l
  exact @run_refines _ _ _ Unit step (fun t _ => t) (fun s _ => P s) cond hkeep ls s () h hcond

/-- The steps of a run meet a condition if the first one does and those of the rest do. -/
theorem run_meets_cons {step : State → Label → Except Fault State} {cond : State → Label → Prop}
    {s t : State} {l : Label} {ls : List Label} (hfirst : cond s l) (hstep : step s l = .ok t)
    (hrest : ∀ n (hn : n < ls.length) s', run step t (ls.take n) = .ok s' → cond s' ls[n]) :
    ∀ n (hn : n < (l :: ls).length) s', run step s ((l :: ls).take n) = .ok s' →
      cond s' (l :: ls)[n] := by
  intro n hn s' hrun
  cases n with
  | zero =>
    cases hrun
    exact hfirst
  | succ n =>
    rw [List.take_succ_cons, run_cons, hstep] at hrun
    exact hrest n (by simpa using hn) s' hrun

/-- A run of a program that does to the image of each state what `step` does to the state. -/
theorem run_map {Image : Type*} {step : State → Label → Except Fault State}
    {step' : Image → Label → Except Fault Image} (image : State → Image)
    (h : ∀ s l, step' (image s) l = (step s l).map image) :
    ∀ ls s, run step' (image s) ls = (run step s ls).map image := by
  intro ls
  induction ls with
  | nil => exact fun _ => rfl
  | cons l ls ih =>
    intro s
    rw [run_cons, run_cons, h]
    cases step s l with
    | error f => rfl
    | ok t => exact ih t

/-- **Simulation rule**: if every step of `sys` either keeps the state of another program
    related or goes with one step of it, then what `sys` reaches is related to what a run
    of that program ends in. -/
theorem System.simulates {Spec : Type*} {SpecLabel : Type*} {sys : System State Label}
    {step : Spec → SpecLabel → Except Fault Spec} {R : State → Spec → Prop} {t₀ : Spec}
    (hinit : ∀ s, sys.init s → R s t₀)
    (hstep : ∀ s t l s', R s t → sys.step s l s' →
      R s' t ∨ ∃ l' t', step t l' = .ok t' ∧ R s' t') :
    ∀ s, sys.Reachable s → ∃ ls t, run step t₀ ls = .ok t ∧ R s t := by
  intro s hs
  induction hs with
  | start h => exact ⟨[], t₀, rfl, hinit _ h⟩
  | next l _ h ih =>
    obtain ⟨ls, t, hrun, hrel⟩ := ih
    obtain hsame | ⟨l', t', ht', hrel'⟩ := hstep _ t l _ hrel h
    · exact ⟨ls, t, hrun, hsame⟩
    · exact ⟨ls ++ [l'], t', (run_snoc_ok hrun).trans ht', hrel'⟩

/-- **Exactness rule**: `good` speaks about the labels executed so far and the
    state they lead to, `inv` is a stronger, inductive form of it.  If from
    every `inv` state `cond` is enough for the next step to keep `inv` and
    needed for it to be `good`, then all prefixes of a run are good exactly
    when `cond` holds at each of its steps. -/
theorem run_exact {step : State → Label → Except Fault State} {s₀ : State}
    (good inv : List Label → State → Prop) (cond : List Label → Label → Prop) (h₀ : inv [] s₀)
    (hgood : ∀ ls s, inv ls s → good ls s) (ls : List Label)
    (hkeep : ∀ n (hn : n < ls.length) s,
      run step s₀ (ls.take n) = .ok s → inv (ls.take n) s → cond (ls.take n) ls[n] →
      ∃ s', step s ls[n] = .ok s' ∧ inv (ls.take n ++ [ls[n]]) s')
    (hneed : ∀ n (hn : n < ls.length) s s',
      run step s₀ (ls.take n) = .ok s → inv (ls.take n) s →
      step s ls[n] = .ok s' → good (ls.take n ++ [ls[n]]) s' → cond (ls.take n) ls[n]) :
    (∀ n, n ≤ ls.length →
      ∃ s, run step s₀ (ls.take n) = .ok s ∧ good (ls.take n) s) ↔
    ∀ n (hn : n < ls.length), cond (ls.take n) ls[n] := by
  -- With `cond` at the first `n` steps, the first `n` labels lead to an `inv` state.
  have hinv : ∀ n, n ≤ ls.length → (∀ m (hm : m < ls.length), m < n → cond (ls.take m) ls[m]) →
      ∃ s, run step s₀ (ls.take n) = .ok s ∧ inv (ls.take n) s := by
    intro n
    induction n with
    | zero => intro _ _; exact ⟨s₀, rfl, by simpa using h₀⟩
    | succ n ih =>
      intro hn hcond
      obtain ⟨s, hs, hi⟩ := ih (by omega) (fun m hm hmn => hcond m hm (by omega))
      obtain ⟨s', hs', hi'⟩ := hkeep n hn s hs hi (hcond n hn (by omega))
      rw [List.take_succ_eq_append_getElem hn]
      exact ⟨s', by rw [run_snoc_ok hs, hs'], hi'⟩
  constructor
  · intro hall n
    -- Strong induction: `cond` at every earlier step makes the state before this one `inv`.
    induction n using Nat.strongRecOn with
    | ind n ih =>
      intro hn
      obtain ⟨s, hs, hi⟩ := hinv n (by omega) (fun m hm hmn => ih m hmn hm)
      obtain ⟨s', hs', hg⟩ := hall (n + 1) hn
      rw [List.take_succ_eq_append_getElem hn] at hs' hg
      rw [run_snoc_ok hs] at hs'
      exact hneed n hn s s' hs hi hs' hg
  · intro hcond n hn
    obtain ⟨s, hs, hi⟩ := hinv n hn (fun m hm _ => hcond m hm)
    exact ⟨s, hs, hgood _ s hi⟩

end LTS
