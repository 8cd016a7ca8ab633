import Mathlib

/-!
# Runs of a deterministic step function

A system is a step function `step : σ → ε → σ` on states and events; a run is a list of
events.  Properties of whole runs are proved by one rule: what a step preserves, under a
condition on the state before it and on its event, a run preserves whose steps all meet
that condition.
-/

namespace Runs

variable {σ τ ε : Type*}

/-- The state reached from `s` by the events of a list, taken in order. -/
def runFrom (step : σ → ε → σ) (s : σ) (es : List ε) : σ := es.foldl step s

@[simp] lemma runFrom_nil (step : σ → ε → σ) (s : σ) : runFrom step s [] = s := rfl

@[simp] lemma runFrom_cons (step : σ → ε → σ) (s : σ) (e : ε) (es : List ε) :
    runFrom step s (e :: es) = runFrom step (step s e) es := rfl

lemma runFrom_append (step : σ → ε → σ) (s : σ) (es es' : List ε) :
    runFrom step s (es ++ es') = runFrom step (runFrom step s es) es' := by
  simp [runFrom, List.foldl_append]

/-- Every step of the run from `s` meets the condition `C` on the state before the step and
on its event. -/
def StepsMeet (step : σ → ε → σ) (C : σ → ε → Prop) : σ → List ε → Prop
  | _, [] => True
  | s, e :: es => C s e ∧ StepsMeet step C (step s e) es

@[simp] lemma stepsMeet_nil (step : σ → ε → σ) (C : σ → ε → Prop) (s : σ) :
    StepsMeet step C s [] := trivial

@[simp] lemma stepsMeet_cons (step : σ → ε → σ) (C : σ → ε → Prop) (s : σ) (e : ε)
    (es : List ε) :
    StepsMeet step C s (e :: es) ↔ C s e ∧ StepsMeet step C (step s e) es := Iff.rfl

instance decidableStepsMeet (step : σ → ε → σ) (C : σ → ε → Prop)
    [∀ s e, Decidable (C s e)] : ∀ s es, Decidable (StepsMeet step C s es)
  | _, [] => .isTrue trivial
  | s, e :: es =>
    have := decidableStepsMeet step C (step s e) es
    inferInstanceAs (Decidable (C s e ∧ StepsMeet step C (step s e) es))

/-- **The invariant rule.**  What every step meeting `C` preserves holds at the end of every
run whose steps all meet `C`. -/
theorem invariant_runFrom {step : σ → ε → σ} {C : σ → ε → Prop} {I : σ → Prop}
    (hstep : ∀ s e, I s → C s e → I (step s e)) :
    ∀ {es : List ε} {s : σ}, I s → StepsMeet step C s es → I (runFrom step s es) := by
  intro es
  induction es with
  | nil => intro s hs _; exact hs
  | cons e es ih =>
    intro s hs hC
    exact ih (hstep s e hs hC.1) hC.2

/-- What an invariant of the run gives at every step holds at every step of the run. -/
theorem stepsMeet_of_invariant {step : σ → ε → σ} {C D : σ → ε → Prop} {I : σ → Prop}
    (hstep : ∀ s e, I s → C s e → I (step s e)) (hD : ∀ s e, I s → C s e → D s e) :
    ∀ {es : List ε} {s : σ}, I s → StepsMeet step C s es → StepsMeet step D s es := by
  intro es
  induction es with
  | nil => intro s _ _; trivial
  | cons e es ih =>
    intro s hs hC
    exact ⟨hD s e hs hC.1, ih (hstep s e hs hC.1) hC.2⟩

/-- What every step preserves, every run preserves. -/
theorem invariant_runFrom_of_step {step : σ → ε → σ} {I : σ → Prop}
    (hstep : ∀ s e, I s → I (step s e)) {s : σ} (hs : I s) (es : List ε) :
    I (runFrom step s es) := by
  induction es generalizing s with
  | nil => exact hs
  | cons e es ih => exact ih (hstep s e hs)

/-- A condition on the events alone is met by every run of such events. -/
lemma stepsMeet_of_forall {step : σ → ε → σ} {C : ε → Prop} {es : List ε} (s : σ)
    (h : ∀ e ∈ es, C e) : StepsMeet step (fun _ e => C e) s es := by
  induction es generalizing s with
  | nil => trivial
  | cons e es ih =>
    rw [List.forall_mem_cons] at h
    exact ⟨h.1, ih _ h.2⟩

lemma stepsMeet_append {step : σ → ε → σ} {C : σ → ε → Prop} {es es' : List ε} {s : σ} :
    StepsMeet step C s (es ++ es') ↔
      StepsMeet step C s es ∧ StepsMeet step C (runFrom step s es) es' := by
  induction es generalizing s with
  | nil => simp
  | cons e es ih => simp [ih, and_assoc]

lemma StepsMeet.mono {step : σ → ε → σ} {C D : σ → ε → Prop} (h : ∀ s e, C s e → D s e) :
    ∀ {es : List ε} {s : σ}, StepsMeet step C s es → StepsMeet step D s es := by
  intro es
  induction es with
  | nil => intro s _; trivial
  | cons e es ih =>
    intro s hs
    exact ⟨h s e hs.1, ih hs.2⟩

lemma stepsMeet_and {step : σ → ε → σ} {C D : σ → ε → Prop} {es : List ε} {s : σ} :
    StepsMeet step (fun s e => C s e ∧ D s e) s es ↔
      StepsMeet step C s es ∧ StepsMeet step D s es := by
  induction es generalizing s with
  | nil => simp
  | cons e es ih =>
    rw [stepsMeet_cons, stepsMeet_cons, stepsMeet_cons, ih]
    tauto

/-- The sum over a run of what each step costs, which may depend on the state before it. -/
def total (step : σ → ε → σ) (cost : σ → ε → ℕ) : σ → List ε → ℕ
  | _, [] => 0
  | s, e :: es => cost s e + total step cost (step s e) es

/-- **The accounting rule.**  When every step pays its cost out of a stock, a run pays the total. -/
theorem stock_add_total {step : σ → ε → σ} {C : σ → ε → Prop} {cost : σ → ε → ℕ} (stock : σ → ℕ)
    (hstep : ∀ s e, C s e → stock (step s e) + cost s e = stock s) :
    ∀ {es : List ε} {s : σ}, StepsMeet step C s es →
      stock (runFrom step s es) + total step cost s es = stock s := by
  intro es
  induction es with
  | nil => intro s _; rfl
  | cons e es ih =>
    intro s hC
    have h1 := hstep s e hC.1
    have h2 := ih hC.2
    rw [runFrom_cons, total]
    omega

lemma total_add (step : σ → ε → σ) (f g : σ → ε → ℕ) (s : σ) (es : List ε) :
    total step (fun s e => f s e + g s e) s es = total step f s es + total step g s es := by
  induction es generalizing s with
  | nil => rfl
  | cons e es ih =>
    rw [total, total, total, ih]
    omega

/-- A total is zero when every step is free. -/
lemma total_eq_zero_iff {step : σ → ε → σ} {cost : σ → ε → ℕ} {s : σ} {es : List ε} :
    total step cost s es = 0 ↔ StepsMeet step (fun s e => cost s e = 0) s es := by
  induction es generalizing s with
  | nil => simp [total]
  | cons e es ih => simp [total, ih]

end Runs
