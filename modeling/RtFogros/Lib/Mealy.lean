import Mathlib.Data.List.Basic
import Mathlib.Data.List.Pairwise

/-!
# Runs of a deterministic machine with outputs

A machine is a function `step : σ → ι → σ × ω`.  `final` folds it over a list
of inputs and `trace` records, for each input, the state it met and the output
it produced.  Properties of whole runs follow from one-step facts through
`final_invariant`, `trace_invariant` and `trace_pairwise`.

Where a property is about one moment of a run, `exists_split_of_mem_trace` gives the inputs before
it and after it, and the state met there is `final` of those before it.
-/

namespace Mealy

variable {σ ι ω : Type*} (step : σ → ι → σ × ω)

/-- One visited step of a run: the state before, the input and the output. -/
structure Visit (σ ι ω : Type*) where
  before : σ
  input : ι
  output : ω

/-- The state after a run. -/
def final : σ → List ι → σ
  | s, [] => s
  | s, i :: is => final (step s i).1 is

/-- The steps a run visits, in order. -/
def trace : σ → List ι → List (Visit σ ι ω)
  | _, [] => []
  | s, i :: is => ⟨s, i, (step s i).2⟩ :: trace (step s i).1 is

/-- The outputs of a run, in order. -/
def outputs (s : σ) (is : List ι) : List ω :=
  (trace step s is).map Visit.output

@[simp] theorem final_nil (s : σ) : final step s [] = s := rfl

@[simp] theorem final_cons (s : σ) (i : ι) (is : List ι) :
    final step s (i :: is) = final step (step s i).1 is := rfl

@[simp] theorem trace_nil (s : σ) : trace step s [] = [] := rfl

@[simp] theorem trace_cons (s : σ) (i : ι) (is : List ι) :
    trace step s (i :: is) = ⟨s, i, (step s i).2⟩ :: trace step (step s i).1 is := rfl

@[simp] theorem outputs_nil (s : σ) : outputs step s [] = [] := rfl

@[simp] theorem outputs_cons (s : σ) (i : ι) (is : List ι) :
    outputs step s (i :: is) = (step s i).2 :: outputs step (step s i).1 is := rfl

theorem final_append (s : σ) (is js : List ι) :
    final step s (is ++ js) = final step (final step s is) js := by
  induction is generalizing s with
  | nil => rfl
  | cons i is ih => exact ih _

theorem trace_append (s : σ) (is js : List ι) :
    trace step s (is ++ js) = trace step s is ++ trace step (final step s is) js := by
  induction is generalizing s with
  | nil => rfl
  | cons i is ih =>
    simp only [List.cons_append, trace_cons, final_cons]
    rw [ih]

theorem outputs_append (s : σ) (is js : List ι) :
    outputs step s (is ++ js) = outputs step s is ++ outputs step (final step s is) js := by
  simp only [outputs, trace_append, List.map_append]

variable {step}

/-- What one step preserves, a run preserves. -/
theorem final_invariant {Inv : σ → Prop} (hstep : ∀ s i, Inv s → Inv (step s i).1)
    {s : σ} (h : Inv s) (is : List ι) : Inv (final step s is) := by
  induction is generalizing s with
  | nil => exact h
  | cons i is ih => exact ih (hstep s i h)

/-- An invariant holds at every state a run visits. -/
theorem trace_invariant {Inv : σ → Prop} (hstep : ∀ s i, Inv s → Inv (step s i).1)
    {s : σ} (h : Inv s) (is : List ι) : ∀ v ∈ trace step s is, Inv v.before := by
  induction is generalizing s with
  | nil => intro v hv; cases hv
  | cons i is ih =>
    intro v hv
    rcases List.mem_cons.1 hv with rfl | hv
    · exact h
    · exact ih (hstep s i h) v hv

/-- A visited step is a step of the machine. -/
theorem output_of_mem_trace {s : σ} {is : List ι} {v : Visit σ ι ω}
    (hv : v ∈ trace step s is) : v.output = (step v.before v.input).2 := by
  induction is generalizing s with
  | nil => cases hv
  | cons i is ih =>
    rcases List.mem_cons.1 hv with rfl | hv
    · rfl
    · exact ih hv

/-- A relation that every step extends holds from the state after an earlier
step of a run to the state before any later one. -/
theorem trace_pairwise {R : σ → σ → Prop} (hrefl : ∀ s, R s s)
    (htrans : ∀ {s t u}, R s t → R t u → R s u) (hstep : ∀ s i, R s (step s i).1)
    (s : σ) (is : List ι) :
    (trace step s is).Pairwise fun v w => R (step v.before v.input).1 w.before := by
  have later : ∀ (is : List ι) (s : σ), ∀ v ∈ trace step s is, R s v.before := by
    intro is
    induction is with
    | nil => intro s v hv; cases hv
    | cons i is ih =>
      intro s v hv
      rcases List.mem_cons.1 hv with rfl | hv
      · exact hrefl s
      · exact htrans (hstep s i) (ih _ v hv)
  induction is generalizing s with
  | nil => exact List.Pairwise.nil
  | cons i is ih => exact List.pairwise_cons.2 ⟨fun w hw => later is _ w hw, ih _⟩

/-- A split of the visited steps is a split of the inputs. -/
theorem trace_eq_append_cons {s : σ} {is : List ι} {before after : List (Visit σ ι ω)}
    {v : Visit σ ι ω} (h : trace step s is = before ++ v :: after) :
    ∃ pre post, is = pre ++ v.input :: post ∧ before = trace step s pre ∧
      v.before = final step s pre := by
  induction is generalizing s before with
  | nil => simp at h
  | cons i is ih =>
    rw [trace_cons] at h
    cases before with
    | nil =>
      obtain ⟨rfl, -⟩ := List.cons.inj h
      exact ⟨[], is, rfl, rfl, rfl⟩
    | cons u before =>
      obtain ⟨rfl, hrest⟩ := List.cons.inj h
      obtain ⟨pre, post, rfl, rfl, hbefore⟩ := ih hrest
      exact ⟨i :: pre, post, rfl, rfl, hbefore⟩

/-- A visited step splits the run at its input. -/
theorem exists_split_of_mem_trace {s : σ} {is : List ι} {v : Visit σ ι ω}
    (hv : v ∈ trace step s is) :
    ∃ pre post, is = pre ++ v.input :: post ∧ v.before = final step s pre := by
  obtain ⟨before, after, h⟩ := List.append_of_mem hv
  obtain ⟨pre, post, his, -, hbefore⟩ := trace_eq_append_cons h
  exact ⟨pre, post, his, hbefore⟩

end Mealy
