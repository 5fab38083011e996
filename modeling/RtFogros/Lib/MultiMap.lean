import Mathlib.Data.List.Basic
import Mathlib.Logic.Function.Basic

/-!
# Maps with several values under a key

A multimap keeps the values of a key in the order of their insertion, and a key is in the map while
it has values.  `MultiMap` has the functions on such maps with the laws that relate them, over any
representation, and `vec` reads all values of a key: `insert` appends to them, `remove` takes them
all, and neither touches another key.

What is proved of a program over a `MultiMap` holds of every implementation with the laws.
`MultiMap.lists`, which represents a map by its lists, has them, so they hold together.
-/

/-- The functions on the maps with keys of `κ`, and their laws. -/
structure MultiMap (κ : Type*) where
  Map : Type → Type*
  new : ∀ {α}, Map α
  insert : ∀ {α}, Map α → κ → α → Map α
  remove : ∀ {α}, Map α → κ → Map α
  getVec : ∀ {α}, Map α → κ → Option (List α)
  getVec_ne_nil : ∀ {α} (m : Map α) k, getVec m k ≠ some []
  getVec_new : ∀ {α} k, getVec (new : Map α) k = none
  getVec_insert_self : ∀ {α} (m : Map α) k v,
    getVec (insert m k v) k = some ((getVec m k).getD [] ++ [v])
  getVec_insert_of_ne : ∀ {α} (m : Map α) {k x} v, x ≠ k → getVec (insert m k v) x = getVec m x
  getVec_remove_self : ∀ {α} (m : Map α) k, getVec (remove m k) k = none
  getVec_remove_of_ne : ∀ {α} (m : Map α) {k x}, x ≠ k → getVec (remove m k) x = getVec m x

namespace MultiMap

variable {κ : Type*} (maps : MultiMap κ) {α : Type}

/-- The values under `k`. -/
def vec (m : maps.Map α) (k : κ) : List α := (maps.getVec m k).getD []

variable {maps}

theorem getVec_eq_none_iff {m : maps.Map α} {k : κ} :
    maps.getVec m k = none ↔ maps.vec m k = [] := by
  have hne := maps.getVec_ne_nil m k
  unfold vec
  cases hget : maps.getVec m k with
  | none => simp
  | some values =>
    rw [hget] at hne
    simpa using hne

theorem getVec_eq_some_iff {m : maps.Map α} {k : κ} {values : List α} :
    maps.getVec m k = some values ↔ maps.vec m k = values ∧ values ≠ [] := by
  have hne := maps.getVec_ne_nil m k
  unfold vec
  cases hget : maps.getVec m k with
  | none =>
    constructor
    · rintro ⟨⟩
    · rintro ⟨rfl, hne⟩
      exact absurd rfl hne
  | some values' =>
    rw [hget] at hne
    constructor
    · rintro ⟨rfl⟩
      exact ⟨rfl, fun hnil => hne (congrArg some hnil)⟩
    · rintro ⟨rfl, -⟩
      rfl

@[simp] theorem vec_new (k : κ) : maps.vec (maps.new : maps.Map α) k = [] := by
  rw [vec, maps.getVec_new, Option.getD_none]

@[simp] theorem vec_insert_self (m : maps.Map α) (k : κ) (v : α) :
    maps.vec (maps.insert m k v) k = maps.vec m k ++ [v] := by
  rw [vec, maps.getVec_insert_self, Option.getD_some, vec]

theorem vec_insert_of_ne (m : maps.Map α) {k x : κ} (h : x ≠ k) (v : α) :
    maps.vec (maps.insert m k v) x = maps.vec m x := by
  rw [vec, maps.getVec_insert_of_ne m v h, vec]

@[simp] theorem vec_remove_self (m : maps.Map α) (k : κ) : maps.vec (maps.remove m k) k = [] := by
  rw [vec, maps.getVec_remove_self, Option.getD_none]

theorem vec_remove_of_ne (m : maps.Map α) {k x : κ} (h : x ≠ k) :
    maps.vec (maps.remove m k) x = maps.vec m x := by
  rw [vec, maps.getVec_remove_of_ne m h, vec]

/-- The maps as functions to lists. -/
def lists [DecidableEq κ] : MultiMap κ where
  Map α := κ → List α
  new := fun _ => []
  insert m k v := Function.update m k (m k ++ [v])
  remove m k := Function.update m k []
  getVec m k := if (m k).isEmpty then none else some (m k)
  getVec_ne_nil m k := by
    split
    · nofun
    · next hne => exact fun hnil => hne (List.isEmpty_iff.2 (Option.some.inj hnil))
  getVec_new _ := rfl
  getVec_insert_self m k v := by
    rw [Function.update_self, if_neg (by simp)]
    split
    · next hempty => rw [List.isEmpty_iff.1 hempty, Option.getD_none]
    · rw [Option.getD_some]
  getVec_insert_of_ne m k x v h := by rw [Function.update_of_ne h]
  getVec_remove_self m k := by rw [Function.update_self, List.isEmpty_nil, if_pos rfl]
  getVec_remove_of_ne m k x h := by rw [Function.update_of_ne h]

end MultiMap
