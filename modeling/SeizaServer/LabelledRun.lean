import Mathlib.Tactic

/-!
# Finite runs of a labelled transition system

A run is displayed by the labels of its steps.  The module fixes the few
rules used to reason about all runs: runs compose along concatenation, an
invariant may mention the labels already performed, and a preorder respected
by every step is respected by whole runs.
-/

namespace Transition

variable {S L : Type*} {step : S → L → S → Prop}

/-- `Run step start labels finish`: steps with the displayed labels, taken in
order, lead from `start` to `finish`. -/
def Run (step : S → L → S → Prop) : S → List L → S → Prop
  | start, [], finish => start = finish
  | start, label :: rest, finish =>
      ∃ middle, step start label middle ∧ Run step middle rest finish

@[simp] theorem run_nil {start finish : S} :
    Run step start [] finish ↔ start = finish := Iff.rfl

theorem run_cons {start finish : S} {label : L} {rest : List L} :
    Run step start (label :: rest) finish ↔
      ∃ middle, step start label middle ∧ Run step middle rest finish :=
  Iff.rfl

theorem run_append {start finish : S} {first second : List L} :
    Run step start (first ++ second) finish ↔
      ∃ middle, Run step start first middle ∧
        Run step middle second finish := by
  induction first generalizing start with
  | nil => simp
  | cons label rest ih =>
      simp only [List.cons_append, run_cons, ih]
      constructor
      · rintro ⟨next, hstep, middle, hrest, hsecond⟩
        exact ⟨middle, ⟨next, hstep, hrest⟩, hsecond⟩
      · rintro ⟨middle, ⟨next, hstep, hrest⟩, hsecond⟩
        exact ⟨next, hstep, middle, hrest, hsecond⟩

theorem run_singleton {start finish : S} {label : L} :
    Run step start [label] finish ↔ step start label finish := by
  simp [run_cons]

theorem run_snoc {start finish : S} {past : List L} {label : L} :
    Run step start (past ++ [label]) finish ↔
      ∃ middle, Run step start past middle ∧ step middle label finish := by
  simp [run_append, run_singleton]

/-- The induction rule for safety: what holds before the first step and is
carried over every step, with the labels performed so far at hand, holds at
the end of every run. -/
theorem Run.invariant {start : S} (I : List L → S → Prop)
    (hinitial : I [] start)
    (hstep : ∀ past before label after,
      I past before → step before label after → I (past ++ [label]) after)
    {labels : List L} {finish : S} (hrun : Run step start labels finish) :
    I labels finish := by
  induction labels using List.reverseRecOn generalizing finish with
  | nil =>
      subst hrun
      exact hinitial
  | append_singleton past label ih =>
      obtain ⟨middle, hpast, hlast⟩ := run_snoc.mp hrun
      exact hstep past middle label finish (ih hpast) hlast

/-- The same rule for a predicate of the state alone. -/
theorem Run.preserves {start : S} (P : S → Prop) (hinitial : P start)
    (hstep : ∀ before label after, P before → step before label after → P after)
    {labels : List L} {finish : S} (hrun : Run step start labels finish) :
    P finish :=
  Run.invariant (fun _ state => P state) hinitial
    (fun _ before label after hbefore hlast => hstep before label after hbefore hlast)
    hrun

/-- A preorder which every step respects is respected by every run. -/
theorem Run.relates (R : S → S → Prop) (hrefl : ∀ state, R state state)
    (htrans : ∀ first second third, R first second → R second third → R first third)
    (hstep : ∀ before label after, step before label after → R before after)
    {start finish : S} {labels : List L} (hrun : Run step start labels finish) :
    R start finish :=
  Run.preserves (fun state => R start state) (hrefl start)
    (fun before label after hbefore hlast =>
      htrans start before after hbefore (hstep before label after hlast))
    hrun

/-- A preorder which every step of a longer run respects is respected by the
rest of the run. -/
theorem Run.relates_after {start middle finish : S} {past rest : List L}
    (hpast : Run step start past middle) (R : S → S → Prop) (hrefl : ∀ state, R state state)
    (htrans : ∀ first second third, R first second → R second third → R first third)
    (hstep : ∀ before after done label, past <+: done → (done ++ [label]) <+: (past ++ rest) →
      Run step start done before → step before label after → R before after)
    (hrest : Run step middle rest finish) : R middle finish := by
  induction rest using List.reverseRecOn generalizing finish with
  | nil =>
      subst hrest
      exact hrefl middle
  | append_singleton front label ih =>
      obtain ⟨before, hfront, hlast⟩ := run_snoc.mp hrest
      have hall : (past ++ front) ++ [label] <+: past ++ (front ++ [label]) := by
        rw [List.append_assoc]
      have hbefore : R middle before := by
        apply ih _ hfront
        intro earlier later done performed hpastDone hinitial
        exact hstep earlier later done performed hpastDone
          (hinitial.trans ((List.prefix_append _ _).trans hall))
      exact htrans middle before finish hbefore
        (hstep before finish (past ++ front) label (List.prefix_append _ _) hall
          (run_append.mpr ⟨middle, hpast, hfront⟩) hlast)

/-- A run of one system is a run of every system with at least its steps. -/
theorem Run.mono {step' : S → L → S → Prop}
    (hstep : ∀ before label after, step before label after → step' before label after)
    {start finish : S} {labels : List L} (hrun : Run step start labels finish) :
    Run step' start labels finish := by
  induction labels generalizing start with
  | nil => exact hrun
  | cons label rest ih =>
      obtain ⟨middle, hfirst, hrest⟩ := hrun
      exact ⟨middle, hstep _ _ _ hfirst, ih hrest⟩

end Transition
