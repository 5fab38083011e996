import RtFogros.Lib.Run
import Mathlib.Data.List.Nodup
import Mathlib.Data.List.Induction
import Mathlib.Logic.Function.Basic

/-!
# Life cycles

A key is added once, is active until it is deleted, and may then be resumed and deleted
again.  A ledger is what a sequence of such operations leaves of every key, and a sequence is
`Obeyed` if each of its operations is in order where it comes.

`Splits` relates a ledger to the two lists that a program keeps, the keys that are active and those
that are not.  It has a rule for each operation, which says that the operation is in order if the
lists allow it and what becomes of them; so a program obeys the life cycles if it asks its lists
before it acts.
-/

inductive Lifecycle where
  | add
  | resume
  | del
deriving DecidableEq

structure Ledger (κ : Type*) where
  added : κ → Bool
  active : κ → Bool

namespace Ledger

variable {κ : Type*}

def empty : Ledger κ := ⟨fun _ => false, fun _ => false⟩

/-- The operation is in order: a new key is added, a deleted one resumed, an active one
deleted. -/
def Allows (l : Ledger κ) : Lifecycle × κ → Prop
  | (.add, k) => l.added k = false ∧ l.active k = false
  | (.resume, k) => l.added k = true ∧ l.active k = false
  | (.del, k) => l.active k = true

section Record

variable [DecidableEq κ]

/-- An operation on a key. -/
def record (l : Ledger κ) : Lifecycle × κ → Ledger κ
  | (.add, k) => ⟨Function.update l.added k true, Function.update l.active k true⟩
  | (.resume, k) => { l with active := Function.update l.active k true }
  | (.del, k) => { l with active := Function.update l.active k false }

/-- The ledger after a sequence of operations. -/
def of (operations : List (Lifecycle × κ)) : Ledger κ := Run.after record empty operations

/-- All operations of a sequence are in order. -/
def Obeyed (operations : List (Lifecycle × κ)) : Prop :=
  Run.Throughout record Allows empty operations

theorem obeyed_nil : Obeyed ([] : List (Lifecycle × κ)) := trivial

theorem obeyed_concat {operations : List (Lifecycle × κ)} {operation : Lifecycle × κ}
    (h : Obeyed operations) (hallowed : (of operations).Allows operation) :
    Obeyed (operations ++ [operation]) :=
  Run.throughout_append.2 ⟨h, hallowed, trivial⟩

theorem of_concat (operations : List (Lifecycle × κ)) (operation : Lifecycle × κ) :
    of (operations ++ [operation]) = (of operations).record operation :=
  Run.after_concat record empty operations operation

/-- Only what an operation names is added. -/
theorem mem_of_added {operations : List (Lifecycle × κ)} {k : κ}
    (h : (of operations).added k = true) : ∃ operation ∈ operations, operation.2 = k := by
  induction operations using List.reverseRecOn with
  | nil => cases h
  | append_singleton operations operation ih =>
    by_cases hk : operation.2 = k
    · exact ⟨operation, by simp, hk⟩
    · have hbefore : (of operations).added k = true := by
        rw [of_concat] at h
        obtain ⟨op, key⟩ := operation
        cases op with
        | add => exact (Function.update_of_ne (Ne.symm hk) ..).symm.trans h
        | resume => exact h
        | del => exact h
      obtain ⟨other, hother, heq⟩ := ih hbefore
      exact ⟨other, List.mem_append_left _ hother, heq⟩

end Record

/-- The keys `live` are active; of the keys added, `gone` are not. -/
structure Splits (l : Ledger κ) (live gone : List κ) : Prop where
  active : ∀ k, l.active k = true ↔ k ∈ live
  added : ∀ k, l.added k = true ↔ k ∈ live ∨ k ∈ gone
  distinct : (live ++ gone).Nodup

namespace Splits

variable {l : Ledger κ} {live gone : List κ} {k : κ}

theorem initial : (empty : Ledger κ).Splits [] [] :=
  ⟨fun k => by simp [empty], fun k => by simp [empty], List.nodup_nil⟩

theorem not_mem_live (h : l.Splits live gone) (hk : k ∈ gone) : k ∉ live :=
  fun hactive => (List.nodup_append.1 h.distinct).2.2 k hactive k hk rfl

theorem nodup_gone (h : l.Splits live gone) : gone.Nodup :=
  (List.nodup_append.1 h.distinct).2.1

theorem active_eq_false (h : l.Splits live gone) (hk : k ∉ live) : l.active k = false := by
  rw [← Bool.not_eq_true, h.active]
  exact hk

/-- A new key is added. -/
theorem allows_add (h : l.Splits live gone) (hactive : k ∉ live) (hdeleted : k ∉ gone) :
    l.Allows (.add, k) := by
  refine ⟨?_, h.active_eq_false hactive⟩
  rw [← Bool.not_eq_true, h.added, not_or]
  exact ⟨hactive, hdeleted⟩

theorem allows_resume (h : l.Splits live gone) (hk : k ∈ gone) :
    l.Allows (.resume, k) :=
  ⟨(h.added k).2 (.inr hk), h.active_eq_false (h.not_mem_live hk)⟩

theorem allows_del (h : l.Splits (k :: live) gone) : l.Allows (.del, k) :=
  (h.active k).2 List.mem_cons_self

variable [DecidableEq κ]

theorem add (h : l.Splits live gone) (hactive : k ∉ live) (hdeleted : k ∉ gone) :
    (l.record (.add, k)).Splits (live ++ [k]) gone := by
  refine ⟨fun x => ?_, fun x => ?_, ?_⟩
  · simp only [record, Function.update_apply]
    by_cases hx : x = k
    · simp [hx]
    · simp [hx, h.active]
  · simp only [record, Function.update_apply]
    by_cases hx : x = k
    · simp [hx]
    · simp [hx, h.added]
  · rw [List.append_assoc, List.singleton_append, List.nodup_middle, List.nodup_cons,
      List.mem_append, not_or]
    exact ⟨⟨hactive, hdeleted⟩, h.distinct⟩

theorem resume (h : l.Splits live gone) {rest : List κ} (hrest : gone.Perm (k :: rest)) :
    (l.record (.resume, k)).Splits (live ++ [k]) rest := by
  have hperm : (live ++ gone).Perm (live ++ [k] ++ rest) := by
    rw [List.append_assoc]
    exact hrest.append_left live
  refine ⟨fun x => ?_, fun x => ?_, hperm.nodup_iff.1 h.distinct⟩
  · simp only [record, Function.update_apply]
    by_cases hx : x = k
    · simp [hx]
    · simp [hx, h.active]
  · rw [record, h.added, ← List.mem_append, ← List.mem_append]
    exact hperm.mem_iff

theorem del (h : l.Splits (k :: live) gone) :
    (l.record (.del, k)).Splits live (gone ++ [k]) := by
  have hperm : (k :: live ++ gone).Perm (live ++ (gone ++ [k])) := by
    rw [← List.append_assoc]
    exact (List.perm_append_singleton k (live ++ gone)).symm
  have hk : k ∉ live := fun hmem =>
    (List.nodup_cons.1 h.distinct).1 (List.mem_append_left _ hmem)
  refine ⟨fun x => ?_, fun x => ?_, hperm.nodup_iff.1 h.distinct⟩
  · simp only [record, Function.update_apply]
    by_cases hx : x = k
    · simp [hx, hk]
    · simp [hx, h.active]
  · rw [record, h.added, ← List.mem_append, ← List.mem_append]
    exact hperm.mem_iff

end Splits

end Ledger
