import Mathlib.Data.Finset.Basic

/-!
# A place for one waker

A task whose poll is pending leaves its waker in a place that holds one, and sleeps.  A waker
that it displaces is woken, so that every task that sleeps is the registered one, and whoever
wakes the registered task leaves nobody asleep.

`Covers` is that invariant, `Covers.park` the rule for a task that goes to sleep, and
`Covers.awaken_registered` what it is good for.
-/

namespace Waker

variable {τ : Type*} [DecidableEq τ] {registered : Option τ} {asleep : Finset τ}

/-- Every task that sleeps is registered. -/
def Covers (registered : Option τ) (asleep : Finset τ) : Prop :=
  ∀ task ∈ asleep, registered = some task

/-- The sleepers after the wakers in `tasks` are called. -/
def awaken (tasks : Option τ) (asleep : Finset τ) : Finset τ :=
  match tasks with
  | some task => asleep.erase task
  | none => asleep

theorem awaken_subset (tasks : Option τ) (asleep : Finset τ) : awaken tasks asleep ⊆ asleep := by
  cases tasks with
  | none => exact Finset.Subset.refl _
  | some task => exact Finset.erase_subset ..

@[simp] theorem awaken_empty (tasks : Option τ) : awaken tasks ∅ = ∅ :=
  Finset.subset_empty.1 (awaken_subset tasks ∅)

omit [DecidableEq τ] in
theorem covers_empty (registered : Option τ) : Covers registered ∅ :=
  fun _ htask => absurd htask (Finset.notMem_empty _)

omit [DecidableEq τ] in
theorem Covers.mono (h : Covers registered asleep) {fewer : Finset τ} (hsub : fewer ⊆ asleep) :
    Covers registered fewer := fun task htask => h task (hsub htask)

/-- Nobody sleeps once the registered task is woken. -/
theorem Covers.awaken_registered (h : Covers registered asleep) : awaken registered asleep = ∅ := by
  refine Finset.eq_empty_of_forall_notMem fun task htask => ?_
  have hregistered := h task (awaken_subset _ _ htask)
  rw [hregistered] at htask
  exact (Finset.mem_erase.1 htask).1 rfl

/-- A task goes to sleep in the place of the registered one. -/
theorem Covers.park (h : Covers registered asleep) (task : τ) :
    Covers (some task) (insert task (awaken (registered.filter (· ≠ task)) asleep)) := by
  intro other hother
  rcases Finset.mem_insert.1 hother with rfl | hmem
  · rfl
  · have hregistered := h other (awaken_subset _ _ hmem)
    by_cases heq : other = task
    · rw [heq]
    · -- it is the one that is displaced
      rw [hregistered, Option.filter_some, if_pos (by simpa using heq)] at hmem
      exact absurd rfl (Finset.mem_erase.1 hmem).1

end Waker
