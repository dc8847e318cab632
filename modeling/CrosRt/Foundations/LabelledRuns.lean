import Mathlib.Data.List.Infix
import Mathlib.Data.List.Induction
import Mathlib.Data.Option.Basic

/-! # Runs of a partial labelled step

A component is a function `step : S → E → Option S`: the event `e` is enabled in `s` when
`step s e` is a state, and every choice of the environment (which thread runs, what a handler is
given, whether an allocation succeeds) is part of the event. Nothing here is about a particular
component.

* `run step s es`: the state reached by the events `es`, `none` once one of them is not enabled.
* `StepsMeet step cond s es`: every step taken on the way meets `cond` in the state before it.

The rules: an invariant is proved from one step (`run_invariant`), possibly only of the runs whose
steps meet a condition (`run_invariant_of_stepsMeet`); under an invariant one condition on the steps
is replaced by another (`stepsMeet_imp`, `stepsMeet_congr`, `stepsMeet_congr_of_meet`); and where
one more event after a good history is good exactly when it meets a condition, a history is good all
along exactly when all its events meet it (`forall_prefix_iff`).
-/

namespace CrosRt.LabelledRuns
set_option autoImplicit false

variable {S E : Type*}

/-- The state reached from a state by a list of events. -/
def run (step : S → E → Option S) : S → List E → Option S
  | s, [] => some s
  | s, e :: es => (step s e).bind fun t => run step t es

/-- Every step taken by the events meets `cond`, read in the state before the step. -/
def StepsMeet (step : S → E → Option S) (cond : S → E → Prop) : S → List E → Prop
  | _, [] => True
  | s, e :: es => ∀ t, step s e = some t → cond s e ∧ StepsMeet step cond t es

section Equations
variable {step : S → E → Option S} {cond : S → E → Prop}

@[simp] theorem run_nil (s : S) : run step s [] = some s := rfl

theorem run_cons (s : S) (e : E) (es : List E) :
    run step s (e :: es) = (step s e).bind fun t => run step t es := rfl

@[simp] theorem run_cons_of_step {s t : S} {e : E} (h : step s e = some t) (es : List E) :
    run step s (e :: es) = run step t es := by
  rw [run_cons, h, Option.bind_some]

theorem run_cons_eq_some {s u : S} {e : E} {es : List E} :
    run step s (e :: es) = some u ↔ ∃ t, step s e = some t ∧ run step t es = some u := by
  rw [run_cons, Option.bind_eq_some_iff]

theorem run_append (s : S) (es fs : List E) :
    run step s (es ++ fs) = (run step s es).bind fun t => run step t fs := by
  induction es generalizing s with
  | nil => rfl
  | cons e es ih =>
    rw [List.cons_append, run_cons, run_cons]
    cases step s e with
    | none => rfl
    | some t => simpa using ih t

theorem run_append_eq_some {s u : S} {es fs : List E} :
    run step s (es ++ fs) = some u ↔ ∃ t, run step s es = some t ∧ run step t fs = some u := by
  rw [run_append, Option.bind_eq_some_iff]

theorem stepsMeet_cons {s : S} {e : E} {es : List E} :
    StepsMeet step cond s (e :: es) ↔
      ∀ t, step s e = some t → cond s e ∧ StepsMeet step cond t es := Iff.rfl

theorem stepsMeet_cons_of_step {s t : S} {e : E} {es : List E} (h : step s e = some t) :
    StepsMeet step cond s (e :: es) ↔ cond s e ∧ StepsMeet step cond t es := by
  rw [stepsMeet_cons]
  refine ⟨fun hm => hm t h, fun hm u hu => ?_⟩
  obtain rfl : t = u := Option.some.inj (h.symm.trans hu)
  exact hm

theorem stepsMeet_and {cond' : S → E → Prop} {s : S} {es : List E} :
    StepsMeet step (fun s e => cond s e ∧ cond' s e) s es ↔
      StepsMeet step cond s es ∧ StepsMeet step cond' s es := by
  induction es generalizing s with
  | nil => exact (and_iff_left trivial).symm
  | cons e es ih =>
    simp only [stepsMeet_cons, ih]
    constructor
    · intro h
      exact ⟨fun t ht => ⟨(h t ht).1.1, (h t ht).2.1⟩, fun t ht => ⟨(h t ht).1.2, (h t ht).2.2⟩⟩
    · rintro ⟨h, h'⟩ t ht
      exact ⟨⟨(h t ht).1, (h' t ht).1⟩, (h t ht).2, (h' t ht).2⟩

instance decidableStepsMeet [∀ s e, Decidable (cond s e)] :
    ∀ (s : S) (es : List E), Decidable (StepsMeet step cond s es)
  | _, [] => .isTrue trivial
  | s, e :: es =>
      match h : step s e with
      | none => .isTrue fun t ht => absurd (h.symm.trans ht) (Option.some_ne_none t).symm
      | some t =>
          have := decidableStepsMeet t es
          decidable_of_iff (cond s e ∧ StepsMeet step cond t es) (stepsMeet_cons_of_step h).symm

end Equations

/-! ## Invariants of whole runs -/

section Invariants
variable {step : S → E → Option S} {cond : S → E → Prop} {I : S → Prop}

/-- What every step keeps, every run keeps. -/
theorem run_invariant (hstep : ∀ s e t, I s → step s e = some t → I t) :
    ∀ {s t : S} {es : List E}, I s → run step s es = some t → I t
  | s, t, [], hs, h => by
      rw [run_nil, Option.some.injEq] at h
      exact h ▸ hs
  | s, t, e :: es, hs, h => by
      obtain ⟨u, hu, ht⟩ := run_cons_eq_some.mp h
      exact run_invariant hstep (hstep s e u hs hu) ht

/-- What every step that meets the condition keeps, every run of such steps keeps. -/
theorem run_invariant_of_stepsMeet
    (hstep : ∀ s e t, I s → cond s e → step s e = some t → I t) :
    ∀ {s t : S} {es : List E}, I s → StepsMeet step cond s es → run step s es = some t → I t
  | s, t, [], hs, _, h => by
      rw [run_nil, Option.some.injEq] at h
      exact h ▸ hs
  | s, t, e :: es, hs, hm, h => by
      obtain ⟨u, hu, ht⟩ := run_cons_eq_some.mp h
      obtain ⟨hc, hm⟩ := hm u hu
      exact run_invariant_of_stepsMeet hstep (hstep s e u hs hc hu) hm ht

/-- What a step condition implies under an invariant that it keeps, the steps of a run meet. -/
theorem stepsMeet_imp {cond' : S → E → Prop}
    (hstep : ∀ s e t, I s → cond s e → step s e = some t → I t)
    (himp : ∀ s e t, I s → cond s e → step s e = some t → cond' s e) :
    ∀ {s : S} {es : List E}, I s → StepsMeet step cond s es → StepsMeet step cond' s es
  | _, [], _, _ => trivial
  | s, e :: es, hs, hm => by
      intro t ht
      obtain ⟨hc, hm⟩ := hm t ht
      exact ⟨himp s e t hs hc ht, stepsMeet_imp hstep himp (hstep s e t hs hc ht) hm⟩

/-- Two step conditions that agree under an invariant hold of the same runs, where the steps that
meet the second keep the invariant. -/
theorem stepsMeet_congr_of_meet {cond' : S → E → Prop}
    (hstep : ∀ s e t, I s → cond' s e → step s e = some t → I t)
    (hiff : ∀ s e t, I s → step s e = some t → (cond s e ↔ cond' s e)) :
    ∀ {s : S} {es : List E}, I s → (StepsMeet step cond s es ↔ StepsMeet step cond' s es)
  | _, [], _ => Iff.rfl
  | s, e :: es, hs => by
      rw [stepsMeet_cons, stepsMeet_cons]
      refine forall_congr' fun t => imp_congr_right fun ht => ?_
      rw [hiff s e t hs ht]
      exact and_congr_right fun hc =>
        stepsMeet_congr_of_meet hstep hiff (hstep s e t hs hc ht)

theorem stepsMeet_congr {cond' : S → E → Prop}
    (hstep : ∀ s e t, I s → step s e = some t → I t)
    (hiff : ∀ s e t, I s → step s e = some t → (cond s e ↔ cond' s e)) {s : S} {es : List E}
    (hs : I s) : StepsMeet step cond s es ↔ StepsMeet step cond' s es :=
  stepsMeet_congr_of_meet (fun s e t hs _ => hstep s e t hs) hiff hs

end Invariants

/-! ## Histories -/

/-- **Exact condition of a history.** If after a good history one more event is good exactly when
it meets `cond`, then all prefixes are good exactly when every event meets `cond` where it
happens. -/
theorem forall_prefix_iff {good : List E → Prop} {cond : List E → E → Prop} (h₀ : good [])
    (hiff : ∀ pre e, good pre → (good (pre ++ [e]) ↔ cond pre e)) (es : List E) :
    (∀ pre, pre <+: es → good pre) ↔ ∀ pre e, pre ++ [e] <+: es → cond pre e := by
  constructor
  · intro h pre e hpre
    have hgood : good pre := h pre ((List.prefix_append pre [e]).trans hpre)
    exact (hiff pre e hgood).mp (h _ hpre)
  · intro h pre
    -- The last event of the prefix is the one to add to a shorter prefix.
    induction pre using List.reverseRecOn with
    | nil => exact fun _ => h₀
    | append_singleton pre e ih =>
      intro hpre
      have hgood : good pre := ih ((List.prefix_append pre [e]).trans hpre)
      exact (hiff pre e hgood).mpr (h pre e hpre)

end CrosRt.LabelledRuns
