import Mathlib.Data.List.Basic
import Mathlib.Logic.Function.Basic

/-!
# Logs of writes

A write sets one key.  `replay` is what a log of writes makes of the values before it:
each key has the value of its last write.  A replica that has taken a part of the log, in
order, agrees with the others once it has taken the rest.

A log does not forget who wrote: `replay_write_concat` says that whoever makes the last write of a
log ahead of the log, and then takes it again in its place, ends with the same values, so a writer
that applies its own writes at once agrees with those that take them later.
-/

namespace Writes

variable {ω κ α : Type*} [DecidableEq κ] (key : ω → κ) (value : ω → α)

/-- One write. -/
def write (f : κ → Option α) (w : ω) : κ → Option α := Function.update f (key w) (some (value w))

/-- The values after a log of writes. -/
def replay (f : κ → Option α) (log : List ω) : κ → Option α := log.foldl (write key value) f

variable {key value} {f g : κ → Option α}

@[simp] theorem replay_nil : replay key value f [] = f := rfl

@[simp] theorem replay_cons (w : ω) (log : List ω) :
    replay key value f (w :: log) = replay key value (write key value f w) log := rfl

theorem replay_concat (log : List ω) (w : ω) :
    replay key value f (log ++ [w]) = write key value (replay key value f log) w := by
  simp [replay]

theorem replay_concat_congr {log log' : List ω}
    (h : replay key value f log = replay key value g log') (w : ω) :
    replay key value f (log ++ [w]) = replay key value g (log' ++ [w]) := by
  rw [replay_concat, replay_concat, h]

theorem write_self (w : ω) : write key value f w (key w) = some (value w) :=
  Function.update_self ..

theorem write_of_ne {w : ω} {k : κ} (h : k ≠ key w) : write key value f w k = f k :=
  Function.update_of_ne h ..

/-- A write of what a key has changes nothing. -/
theorem write_eq_self {w : ω} (h : f (key w) = some (value w)) : write key value f w = f := by
  unfold write
  rw [← h]
  exact Function.update_eq_self ..

/-- Values that extend others extend them after a write. -/
theorem write_extends {w : ω} (h : ∀ k v, f k = some v → g k = some v) {k : κ} {v : α}
    (hk : write key value f w k = some v) : write key value g w k = some v := by
  by_cases heq : k = key w
  · rw [heq, write_self] at hk ⊢
    exact hk
  · rw [write_of_ne heq] at hk ⊢
    exact h k v hk

/-- A log makes values that agree at a key agree at it. -/
theorem replay_congr {k : κ} (h : f k = g k) (log : List ω) :
    replay key value f log k = replay key value g log k := by
  induction log generalizing f g with
  | nil => exact h
  | cons w log ih =>
    refine ih ?_
    by_cases hk : k = key w
    · rw [hk, write_self, write_self]
    · rw [write_of_ne hk, write_of_ne hk, h]

/-- A log makes values that extend others extend them. -/
theorem replay_extends (h : ∀ k v, f k = some v → g k = some v) (log : List ω) :
    ∀ k v, replay key value f log k = some v → replay key value g log k = some v := by
  induction log generalizing f g with
  | nil => exact h
  | cons w log ih => exact ih fun k v hk => write_extends h hk

theorem replay_append (log log' : List ω) :
    replay key value f (log ++ log') = replay key value (replay key value f log) log' :=
  List.foldl_append

/-- The log of the values under a map. -/
theorem replay_map {β : Type*} (φ : α → β) (log : List ω) (k : κ) :
    replay key (fun w => φ (value w)) (fun k => (f k).map φ) log k =
      (replay key value f log k).map φ := by
  induction log generalizing f with
  | nil => rfl
  | cons w log ih =>
    rw [replay_cons, replay_cons, ← ih]
    congr 1
    funext x
    by_cases hx : x = key w
    · rw [hx, write_self, write_self, Option.map_some]
    · rw [write_of_ne hx, write_of_ne hx]

/-- Whoever makes the last write of a log ahead of the log ends with the same values. -/
theorem replay_write_concat (log : List ω) (w : ω) :
    replay key value (write key value f w) (log ++ [w]) = replay key value f (log ++ [w]) := by
  rw [replay_concat, replay_concat]
  funext k
  by_cases hk : k = key w
  · rw [hk, write_self, write_self]
  · rw [write_of_ne hk, write_of_ne hk]
    exact replay_congr (write_of_ne hk) log

/-- A key without a value was never written. -/
theorem of_replay_eq_none {log : List ω} {k : κ} (h : replay key value f log k = none) :
    f k = none ∧ ∀ w ∈ log, key w ≠ k := by
  induction log generalizing f with
  | nil => exact ⟨h, nofun⟩
  | cons w log ih =>
    obtain ⟨hwrite, hlog⟩ := ih h
    by_cases hk : k = key w
    · rw [hk, write_self] at hwrite
      cases hwrite
    · rw [write_of_ne hk] at hwrite
      refine ⟨hwrite, fun other hother => ?_⟩
      rcases List.mem_cons.1 hother with rfl | hmem
      · exact Ne.symm hk
      · exact hlog other hmem

/-- A key that is not written keeps its value. -/
theorem replay_of_not_mem {log : List ω} {k : κ} (h : ∀ w ∈ log, key w ≠ k) :
    replay key value f log k = f k := by
  induction log generalizing f with
  | nil => rfl
  | cons w log ih =>
    obtain ⟨hw, hlog⟩ := List.forall_mem_cons.1 h
    exact (ih hlog).trans (write_of_ne hw.symm)

/-- A value was there before or is one that was written. -/
theorem of_replay_eq_some {log : List ω} {k : κ} {v : α} (h : replay key value f log k = some v) :
    f k = some v ∨ ∃ w ∈ log, key w = k ∧ value w = v := by
  induction log generalizing f with
  | nil => exact .inl h
  | cons w log ih =>
    rcases ih h with hwrite | ⟨w', hmem, hw'⟩
    · by_cases hk : k = key w
      · rw [hk, write_self] at hwrite
        exact .inr ⟨w, List.mem_cons_self, hk.symm, Option.some.inj hwrite⟩
      · rw [write_of_ne hk] at hwrite
        exact .inl hwrite
    · exact .inr ⟨w', List.mem_cons_of_mem _ hmem, hw'⟩

/-- The log of what the writes become. -/
theorem replay_log_map {ω' : Type*} (φ : ω' → ω) (log : List ω') :
    replay key value f (log.map φ) =
      replay (fun w => key (φ w)) (fun w => value (φ w)) f log := List.foldl_map

end Writes
