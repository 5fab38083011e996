import RtFogros.Lib.Mealy
import Mathlib.Logic.Function.Basic

/-!
# Interleaved runs of a family of machines

Each node runs its own machine.  A `Log` keeps the state of every node and the turns
taken, whatever their order; `Log.Local` says that every node has just run its own
inputs, so that a fact about the runs of one machine holds at each node of the
family.

A turn of a node changes its own part of the log and no other's, which is what the simp lemmas
say.  `countP_visits` counts over all turns at a node by its own run, and `countP_le_one` turns
"no two of them" into a bound.
-/

namespace Mealy

variable {Node σ ι ω : Type*} [DecidableEq Node]

/-- The states of all nodes and the turns they have taken. -/
structure Log (Node σ ι ω : Type*) where
  states : Node → σ
  history : List (Node × Visit σ ι ω)

namespace Log

/-- The turns of one node. -/
def visits (log : Log Node σ ι ω) (n : Node) : List (Visit σ ι ω) :=
  log.history.filterMap fun (m, v) => if m = n then some v else none

def inputs (log : Log Node σ ι ω) (n : Node) : List ι := (log.visits n).map Visit.input

theorem mem_visits {log : Log Node σ ι ω} {n : Node} {v : Visit σ ι ω} :
    v ∈ log.visits n ↔ (n, v) ∈ log.history := by
  constructor
  · intro hv
    obtain ⟨⟨m, w⟩, hmem, heq⟩ := List.mem_filterMap.1 hv
    dsimp only at heq
    split at heq
    · rename_i hm
      cases heq
      exact hm ▸ hmem
    · cases heq
  · intro hmem
    exact List.mem_filterMap.2 ⟨(n, v), hmem, if_pos rfl⟩

variable (step : Node → σ → ι → σ × ω)

/-- Node `n` takes the input `i`. -/
def turn (log : Log Node σ ι ω) (n : Node) (i : ι) : Log Node σ ι ω where
  states := Function.update log.states n (step n (log.states n) i).1
  history := log.history ++ [(n, ⟨log.states n, i, (step n (log.states n) i).2⟩)]

variable {step}

theorem states_turn_self (log : Log Node σ ι ω) (n : Node) (i : ι) :
    (log.turn step n i).states n = (step n (log.states n) i).1 := Function.update_self ..

theorem states_turn_of_ne (log : Log Node σ ι ω) {m n : Node} (h : m ≠ n) (i : ι) :
    (log.turn step m i).states n = log.states n := Function.update_of_ne (Ne.symm h) ..

theorem visits_turn_self (log : Log Node σ ι ω) (n : Node) (i : ι) :
    (log.turn step n i).visits n =
      log.visits n ++ [⟨log.states n, i, (step n (log.states n) i).2⟩] := by
  unfold visits turn
  rw [List.filterMap_append]
  congr 1
  simp

theorem visits_turn_of_ne (log : Log Node σ ι ω) {m n : Node} (h : m ≠ n) (i : ι) :
    (log.turn step m i).visits n = log.visits n := by
  rw [visits, turn, List.filterMap_append]
  simp [visits, h]

theorem inputs_turn_self (log : Log Node σ ι ω) (n : Node) (i : ι) :
    (log.turn step n i).inputs n = log.inputs n ++ [i] := by
  unfold inputs
  rw [visits_turn_self, List.map_append]
  rfl

theorem inputs_turn_of_ne (log : Log Node σ ι ω) {m n : Node} (h : m ≠ n) (i : ι) :
    (log.turn step m i).inputs n = log.inputs n := by
  rw [inputs, visits_turn_of_ne log h, inputs]

theorem mem_inputs_turn {log : Log Node σ ι ω} {m n : Node} {i j : ι} :
    j ∈ (log.turn step m i).inputs n ↔ j ∈ log.inputs n ∨ n = m ∧ j = i := by
  by_cases hm : m = n
  · subst hm
    simp [inputs_turn_self]
  · simp [inputs_turn_of_ne log hm, Ne.symm hm]

/-- Every node has run its own inputs from its initial state. -/
structure Local (step : Node → σ → ι → σ × ω) (init : Node → σ) (log : Log Node σ ι ω) : Prop where
  state : ∀ n, log.states n = final (step n) (init n) (log.inputs n)
  visits : ∀ n, log.visits n = trace (step n) (init n) (log.inputs n)

variable {init : Node → σ}

theorem Local.start : Local step init ⟨init, []⟩ := ⟨fun _ => rfl, fun _ => rfl⟩

theorem Local.turn {log : Log Node σ ι ω} (h : Local step init log) (n : Node) (i : ι) :
    Local step init (log.turn step n i) := by
  constructor
  · intro m
    by_cases hm : m = n
    · subst hm
      rw [inputs_turn_self, final_append, ← h.state, states_turn_self]
      rfl
    · rw [inputs_turn_of_ne log (Ne.symm hm), ← h.state, states_turn_of_ne log (Ne.symm hm)]
  · intro m
    by_cases hm : m = n
    · subst hm
      rw [inputs_turn_self, visits_turn_self, trace_append, ← h.state, ← h.visits]
      rfl
    · rw [inputs_turn_of_ne log (Ne.symm hm), visits_turn_of_ne log (Ne.symm hm), h.visits]

theorem Local.mem_trace {log : Log Node σ ι ω} (h : Local step init log) {n : Node}
    {v : Visit σ ι ω} (hv : (n, v) ∈ log.history) : v ∈ trace (step n) (init n) (log.inputs n) := by
  rw [← h.visits]
  exact mem_visits.2 hv

/-- What is counted over all turns at one node is counted over the turns of that node. -/
theorem countP_visits {β : Type*} (f : Visit σ ι ω → List β) (log : Log Node σ ι ω) (n : Node)
    (p : β → Bool) :
    (log.history.flatMap fun (m, v) => (f v).map (m, ·)).countP (fun x => x.1 = n && p x.2) =
      ((log.visits n).flatMap f).countP p := by
  unfold visits
  induction log.history with
  | nil => rfl
  | cons turn history ih =>
    obtain ⟨m, v⟩ := turn
    rw [List.flatMap_cons, List.countP_append, ih, List.countP_map]
    by_cases hm : m = n
    · subst hm
      simp [Function.comp_def]
    · simp [hm, Function.comp_def]

end Log

/-- A list holds at most one element with a property that no two of its elements
have. -/
theorem countP_le_one {α : Type*} {p : α → Bool} {l : List α}
    (h : l.Pairwise fun a b => ¬ (p a ∧ p b)) : l.countP p ≤ 1 := by
  induction l with
  | nil => exact Nat.zero_le 1
  | cons a l ih =>
    obtain ⟨ha, hl⟩ := List.pairwise_cons.1 h
    by_cases hp : p a
    · have hrest : l.countP p = 0 :=
        List.countP_eq_zero.2 fun b hb hpb => ha b hb ⟨hp, hpb⟩
      exact Nat.le_of_eq ((List.countP_cons_of_pos hp).trans (congrArg Nat.succ hrest))
    · rw [List.countP_cons_of_neg hp]
      exact ih hl

end Mealy
