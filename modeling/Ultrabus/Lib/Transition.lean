import Mathlib.Logic.Basic

/-! # Labelled transition systems

A system is a set of initial states and a partial step function on labels: a label
says which party moves and how every choice it makes comes out, so that a run is
the list of its labels and can be computed.

`ReachableWhen allowed` are the states of the runs whose every step, judged in the
state it is taken in, is `allowed`.  Properties of all runs and properties of the
runs that avoid some step are then proved by the same rule, `ReachableWhen.invariant`. -/

/-- Initial states and the effect of every label; `none` where the label is not enabled. -/
structure TransitionSystem (σ α : Type*) where
  init : σ → Prop
  step : σ → α → Option σ

namespace TransitionSystem

variable {σ α : Type*} (T : TransitionSystem σ α)

/-- States reached from an initial one by allowed steps only. -/
inductive ReachableWhen (allowed : σ → α → Prop) : σ → Prop where
  | init {s : σ} : T.init s → ReachableWhen allowed s
  | step {s s' : σ} {a : α} : ReachableWhen allowed s → allowed s a → T.step s a = some s' →
      ReachableWhen allowed s'

/-- States reached by any run. -/
def Reachable (s : σ) : Prop := T.ReachableWhen (fun _ _ => True) s

/-- The state after a list of labels. -/
def run : σ → List α → Option σ
  | s, [] => some s
  | s, a :: rest => (T.step s a).bind fun s' => run s' rest

/-- Every step of the run of a list of labels is enabled and allowed. -/
def AllowedRun (allowed : σ → α → Prop) : σ → List α → Prop
  | _, [] => True
  | s, a :: rest =>
    allowed s a ∧
      match T.step s a with
      | none => False
      | some s' => AllowedRun allowed s' rest

variable {T}

/-- What holds initially and is kept by every allowed step holds in every state
    reached by allowed steps. -/
theorem ReachableWhen.invariant {allowed : σ → α → Prop} {Inv : σ → Prop}
    (initial : ∀ s, T.init s → Inv s)
    (preserved : ∀ s a s', Inv s → allowed s a → T.step s a = some s' → Inv s')
    {s : σ} (h : T.ReachableWhen allowed s) : Inv s := by
  induction h with
  | init h => exact initial _ h
  | step _ hallowed hstep ih => exact preserved _ _ _ ih hallowed hstep

/-- The same on top of what is known of all states reached by allowed steps. -/
theorem ReachableWhen.invariant_over {allowed : σ → α → Prop} {Base Inv : σ → Prop}
    (base : ∀ s, T.ReachableWhen allowed s → Base s) (initial : ∀ s, T.init s → Inv s)
    (preserved : ∀ s a s', Base s → Inv s → allowed s a → T.step s a = some s' → Inv s')
    {s : σ} (h : T.ReachableWhen allowed s) : Inv s := by
  induction h with
  | init h => exact initial _ h
  | step hs hallowed hstep ih => exact preserved _ _ _ (base _ hs) ih hallowed hstep

theorem Reachable.invariant {Inv : σ → Prop} (initial : ∀ s, T.init s → Inv s)
    (preserved : ∀ s a s', Inv s → T.step s a = some s' → Inv s')
    {s : σ} (h : T.Reachable s) : Inv s :=
  ReachableWhen.invariant initial (fun s a s' hinv _ => preserved s a s' hinv) h

theorem ReachableWhen.run {allowed : σ → α → Prop} {s s' : σ} {labels : List α}
    (hs : T.ReachableWhen allowed s) (hallowed : T.AllowedRun allowed s labels)
    (hrun : T.run s labels = some s') : T.ReachableWhen allowed s' := by
  induction labels generalizing s with
  | nil => exact Option.some.inj hrun ▸ hs
  | cons a rest ih =>
    simp only [TransitionSystem.run, Option.bind_eq_some_iff] at hrun
    obtain ⟨next, hstep, hrest⟩ := hrun
    simp only [AllowedRun, hstep] at hallowed
    exact ih (.step hs hallowed.1 hstep) hallowed.2 hrest

theorem reachableWhen_of_run {allowed : σ → α → Prop} {s s' : σ} (labels : List α)
    (hs : T.init s) (hallowed : T.AllowedRun allowed s labels)
    (hrun : T.run s labels = some s') : T.ReachableWhen allowed s' :=
  ReachableWhen.run (.init hs) hallowed hrun

theorem AllowedRun.mono {allowed allowed' : σ → α → Prop} {s : σ} {labels : List α}
    (h : T.AllowedRun allowed s labels) (himp : ∀ s a, allowed s a → allowed' s a) :
    T.AllowedRun allowed' s labels := by
  induction labels generalizing s with
  | nil => trivial
  | cons a rest ih =>
    refine ⟨himp s a h.1, ?_⟩
    have hrest := h.2
    cases hstep : T.step s a with
    | none => simp [hstep] at hrest
    | some s' =>
      rw [hstep] at hrest
      exact ih hrest

theorem allowedRun_true {s s' : σ} {labels : List α} (hrun : T.run s labels = some s') :
    T.AllowedRun (fun _ _ => True) s labels := by
  induction labels generalizing s with
  | nil => trivial
  | cons a rest ih =>
    simp only [TransitionSystem.run, Option.bind_eq_some_iff] at hrun
    obtain ⟨next, hstep, hrest⟩ := hrun
    simp only [AllowedRun, hstep, true_and]
    exact ih hrest

theorem reachable_of_run {s s' : σ} (labels : List α) (hs : T.init s)
    (hrun : T.run s labels = some s') : T.Reachable s' :=
  reachableWhen_of_run labels hs (allowedRun_true hrun) hrun

end TransitionSystem
