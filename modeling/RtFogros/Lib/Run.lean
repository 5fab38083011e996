import Mathlib.Data.List.Basic

/-!
# Runs whose steps meet a condition

A run folds `step : σ → ι → σ` over a list of inputs.  `Throughout P` says that every
step of the run meets the condition `P` on the state before it and its input; an
invariant that such steps keep holds after the run (`Throughout.invariant`).

Statements "in every run in which" take their condition as `Throughout`, and statements "exactly
if" come from `throughout_congr`: two conditions agree on runs if they agree on the states of an
invariant that either of them keeps.
-/

namespace Run

variable {σ ι : Type*} (step : σ → ι → σ)

/-- The state after a run. -/
def after (s : σ) (is : List ι) : σ := is.foldl step s

/-- Every step of a run meets the condition. -/
def Throughout (P : σ → ι → Prop) : σ → List ι → Prop
  | _, [] => True
  | s, i :: is => P s i ∧ Throughout P (step s i) is

instance Throughout.decidable (P : σ → ι → Prop) [∀ s i, Decidable (P s i)] :
    ∀ s is, Decidable (Throughout step P s is)
  | _, [] => .isTrue trivial
  | s, i :: is =>
    have := Throughout.decidable P (step s i) is
    inferInstanceAs (Decidable (_ ∧ _))

@[simp] theorem after_nil (s : σ) : after step s [] = s := rfl

@[simp] theorem after_cons (s : σ) (i : ι) (is : List ι) :
    after step s (i :: is) = after step (step s i) is := rfl

theorem after_append (s : σ) (is js : List ι) :
    after step s (is ++ js) = after step (after step s is) js := List.foldl_append

theorem after_concat (s : σ) (is : List ι) (i : ι) :
    after step s (is ++ [i]) = step (after step s is) i := after_append ..

variable {step} {P : σ → ι → Prop}

theorem throughout_append {s : σ} {is js : List ι} :
    Throughout step P s (is ++ js) ↔
      Throughout step P s is ∧ Throughout step P (after step s is) js := by
  induction is generalizing s with
  | nil => simp [Throughout]
  | cons i is ih =>
    simp only [List.cons_append, Throughout, after_cons]
    rw [ih, and_assoc]

theorem Throughout.and {Q : σ → ι → Prop} {s : σ} {is : List ι} (h : Throughout step P s is)
    (h' : Throughout step Q s is) : Throughout step (fun s i => P s i ∧ Q s i) s is := by
  induction is generalizing s with
  | nil => trivial
  | cons i is ih => exact ⟨⟨h.1, h'.1⟩, ih h.2 h'.2⟩

/-- A condition on the inputs alone. -/
theorem throughout_of_forall {Q : ι → Prop} (s : σ) {is : List ι} (h : ∀ i ∈ is, Q i) :
    Throughout step (fun _ i => Q i) s is := by
  induction is generalizing s with
  | nil => trivial
  | cons i is ih =>
    exact ⟨h i List.mem_cons_self, ih _ fun j hj => h j (List.mem_cons_of_mem i hj)⟩

/-- What every step that meets the condition keeps, such a run keeps. -/
theorem Throughout.invariant (Inv : σ → Prop) (hstep : ∀ s i, Inv s → P s i → Inv (step s i))
    {s : σ} (hs : Inv s) {is : List ι} (h : Throughout step P s is) : Inv (after step s is) := by
  induction is generalizing s with
  | nil => exact hs
  | cons i is ih => exact ih (hstep s i hs h.1) h.2

/-- What the invariant and the condition give at every step. -/
theorem Throughout.of_invariant {Q : σ → ι → Prop} (Inv : σ → Prop)
    (hstep : ∀ s i, Inv s → P s i → Inv (step s i)) (hQ : ∀ s i, Inv s → P s i → Q s i)
    {s : σ} (hs : Inv s) {is : List ι} (h : Throughout step P s is) : Throughout step Q s is := by
  induction is generalizing s with
  | nil => trivial
  | cons i is ih => exact ⟨hQ s i hs h.1, ih (hstep s i hs h.1) h.2⟩

/-- Two conditions that agree under an invariant that either keeps. -/
theorem throughout_congr {Q : σ → ι → Prop} (Inv : σ → Prop)
    (hstep : ∀ s i, Inv s → P s i → Inv (step s i)) (hiff : ∀ s i, Inv s → (P s i ↔ Q s i))
    {s : σ} (hs : Inv s) {is : List ι} : Throughout step P s is ↔ Throughout step Q s is := by
  constructor
  · exact Throughout.of_invariant Inv hstep (fun s i hs => (hiff s i hs).1) hs
  · exact Throughout.of_invariant Inv (fun s i hs hQ => hstep s i hs ((hiff s i hs).2 hQ))
      (fun s i hs => (hiff s i hs).2) hs

/-- An invariant of all steps. -/
theorem invariant {Inv : σ → Prop} (hstep : ∀ s i, Inv s → Inv (step s i)) {s : σ} (hs : Inv s)
    (is : List ι) : Inv (after step s is) := by
  induction is generalizing s with
  | nil => exact hs
  | cons i is ih => exact ih (hstep s i hs)

/-- The condition at a step in the middle of a run. -/
theorem Throughout.at {s : σ} {pre post : List ι} {i : ι}
    (h : Throughout step P s (pre ++ i :: post)) : P (after step s pre) i :=
  (throughout_append.1 h).2.1

theorem throughout_iff {s : σ} {is : List ι} :
    Throughout step P s is ↔ ∀ pre i post, is = pre ++ i :: post → P (after step s pre) i := by
  constructor
  · rintro h pre i post rfl
    exact h.at
  · intro h
    induction is generalizing s with
    | nil => trivial
    | cons i is ih =>
      refine ⟨h [] i is rfl, ih fun pre j post heq => ?_⟩
      exact h (i :: pre) j post (congrArg (i :: ·) heq)

section Map

variable {τ : Type*} {step' : τ → ι → τ} {f : σ → τ}

/-- A map that commutes with the steps. -/
theorem throughout_map {Q : τ → ι → Prop} (hf : ∀ s i, f (step s i) = step' (f s) i) {s : σ}
    {is : List ι} : Throughout step' Q (f s) is ↔ Throughout step (fun s i => Q (f s) i) s is := by
  induction is generalizing s with
  | nil => exact Iff.rfl
  | cons i is ih =>
    unfold Throughout
    rw [← hf, ih]

end Map

end Run
