import Mathlib.Data.List.Basic
import Mathlib.Data.List.Nodup
import Mathlib.Logic.Function.Basic

/-!
# Dictionaries in insertion order

A dictionary maps each of its keys to a value and iterates over its keys in the order in which they
were first inserted.  Setting a present key keeps its place; erasing it and setting it again puts
it last.  That no key stands twice is a field of the structure.

The lemmas read a dictionary after an update: `get?_set` for one key, `get?_foldl_set` and
`get?_foldl_set_entries` for the loops that set many, `mem_keysWith` and `keysWith_eq_singleton`
for the comprehensions that collect the keys of a property.
-/

/-- A dictionary: its items, no key twice. -/
structure PyDict (κ α : Type*) where
  entries : List (κ × α)
  nodup : (entries.map Prod.fst).Nodup

namespace PyDict

variable {κ α : Type*}

def keys (d : PyDict κ α) : List κ := d.entries.map Prod.fst

def empty : PyDict κ α := ⟨[], List.nodup_nil⟩

@[simp] theorem keys_empty : (empty : PyDict κ α).keys = [] := rfl

/-- `{k: v}`. -/
def single (k : κ) (v : α) : PyDict κ α := ⟨[(k, v)], List.nodup_singleton k⟩

theorem nodup_keys (d : PyDict κ α) : d.keys.Nodup := d.nodup

/-- The same keys with other values. -/
def map {β : Type*} (f : α → β) (d : PyDict κ α) : PyDict κ β :=
  ⟨d.entries.map fun entry => (entry.1, f entry.2), by
    rw [List.map_map]
    exact d.nodup⟩

@[simp] theorem keys_map {β : Type*} (f : α → β) (d : PyDict κ α) : (d.map f).keys = d.keys := by
  unfold keys
  rw [map, List.map_map]
  rfl

/-- The keys whose values have a property, in order. -/
def keysWith (p : α → Bool) (d : PyDict κ α) : List κ :=
  (d.entries.filter fun entry => p entry.2).map Prod.fst

theorem nodup_keysWith (p : α → Bool) (d : PyDict κ α) : (d.keysWith p).Nodup :=
  .sublist (List.filter_sublist.map _) d.nodup

theorem keysWith_sublist (p : α → Bool) (d : PyDict κ α) : (d.keysWith p).Sublist d.keys :=
  List.filter_sublist.map _

/-- What comes before a key has other keys. -/
theorem nodup_before {d : PyDict κ α} {before rest : List (κ × α)} {k : κ} {v : α}
    (h : d.entries = before ++ (k, v) :: rest) :
    (before.map Prod.fst).Nodup ∧ k ∉ before.map Prod.fst := by
  have hnodup := d.nodup
  rw [h, List.map_append, List.nodup_append] at hnodup
  exact ⟨hnodup.1, fun hmem => hnodup.2.2 _ hmem _ List.mem_cons_self rfl⟩

/-- A property that one key alone has. -/
theorem keysWith_eq_singleton {p : α → Bool} {d : PyDict κ α} {k : κ}
    (h : ∀ x, x ∈ d.keysWith p ↔ x = k) : d.keysWith p = [k] := by
  have hmem : k ∈ d.keysWith p := (h k).2 rfl
  have hnodup := nodup_keysWith p d
  rcases hkeys : d.keysWith p with _ | ⟨first, rest⟩
  · rw [hkeys] at hmem
    cases hmem
  · rw [hkeys] at h hnodup
    obtain rfl := (h first).1 List.mem_cons_self
    rcases rest with _ | ⟨second, rest⟩
    · rfl
    · obtain rfl := (h second).1 (List.mem_cons_of_mem _ List.mem_cons_self)
      exact absurd List.mem_cons_self (List.nodup_cons.1 hnodup).1

variable [DecidableEq κ]

def get? (d : PyDict κ α) (k : κ) : Option α :=
  (d.entries.find? fun entry => entry.1 = k).map Prod.snd

/-- `d[k] = v`. -/
def set (d : PyDict κ α) (k : κ) (v : α) : PyDict κ α :=
  if h : k ∈ d.keys then
    ⟨d.entries.map fun entry => if entry.1 = k then (k, v) else entry, by
      have hkeys : (d.entries.map fun entry => if entry.1 = k then (k, v) else entry).map Prod.fst =
          d.entries.map Prod.fst := by
        rw [List.map_map]
        apply List.map_congr_left
        intro entry _
        rw [Function.comp_apply]
        split
        · rename_i heq
          exact heq.symm
        · rfl
      rw [hkeys]
      exact d.nodup⟩
  else
    ⟨d.entries ++ [(k, v)], by
      rw [List.map_append, List.nodup_append]
      refine ⟨d.nodup, List.nodup_singleton k, ?_⟩
      rintro a ha b hb rfl
      obtain rfl : a = k := List.mem_singleton.1 hb
      exact h ha⟩

/-- `del d[k]`. -/
def erase (d : PyDict κ α) (k : κ) : PyDict κ α :=
  ⟨d.entries.filter fun entry => entry.1 ≠ k, .sublist (List.filter_sublist.map _) d.nodup⟩

/-! ## Lookup -/

theorem get?_eq_some_iff {d : PyDict κ α} {k : κ} {v : α} :
    d.get? k = some v ↔ (k, v) ∈ d.entries := by
  constructor
  · intro h
    obtain ⟨⟨key, value⟩, hfind, rfl⟩ := Option.map_eq_some_iff.1 h
    have hkey : key = k := by simpa using List.find?_some hfind
    exact hkey ▸ List.mem_of_find?_eq_some hfind
  · intro hmem
    rcases hfind : d.entries.find? fun entry => entry.1 = k with _ | ⟨key, value⟩
    · have := List.find?_eq_none.1 hfind (k, v) hmem
      simp at this
    · have hkey : key = k := by simpa using List.find?_some hfind
      subst hkey
      have hsame : (key, value) = (key, v) :=
        List.inj_on_of_nodup_map d.nodup (List.mem_of_find?_eq_some hfind) hmem rfl
      unfold get?
      rw [hfind, hsame]
      rfl

theorem mem_keys {d : PyDict κ α} {k : κ} : k ∈ d.keys ↔ ∃ v, d.get? k = some v := by
  unfold keys
  rw [List.mem_map]
  constructor
  · rintro ⟨⟨key, v⟩, hmem, rfl⟩
    exact ⟨v, get?_eq_some_iff.2 hmem⟩
  · rintro ⟨v, h⟩
    exact ⟨(k, v), get?_eq_some_iff.1 h, rfl⟩

theorem get?_eq_none_iff {d : PyDict κ α} {k : κ} : d.get? k = none ↔ k ∉ d.keys := by
  rw [mem_keys, Option.eq_none_iff_forall_ne_some, not_exists]

theorem mem_keys_of_get? {d : PyDict κ α} {k : κ} {v : α} (h : d.get? k = some v) : k ∈ d.keys :=
  mem_keys.2 ⟨v, h⟩

@[simp] theorem get?_empty (k : κ) : (empty : PyDict κ α).get? k = none := rfl

theorem get?_map {β : Type*} (f : α → β) (d : PyDict κ α) (k : κ) :
    (d.map f).get? k = (d.get? k).map f := by
  unfold get? map
  rw [List.find?_map, Option.map_map, Option.map_map]
  rfl

theorem mem_keysWith {p : α → Bool} {d : PyDict κ α} {k : κ} :
    k ∈ d.keysWith p ↔ ∃ v, d.get? k = some v ∧ p v := by
  unfold keysWith
  rw [List.mem_map]
  constructor
  · rintro ⟨⟨key, v⟩, hmem, rfl⟩
    obtain ⟨hmem, hp⟩ := List.mem_filter.1 hmem
    exact ⟨v, get?_eq_some_iff.2 hmem, hp⟩
  · rintro ⟨v, h, hp⟩
    exact ⟨(k, v), List.mem_filter.2 ⟨get?_eq_some_iff.1 h, hp⟩, rfl⟩

/-! ## Setting a key -/

theorem keys_set_of_mem {d : PyDict κ α} {k : κ} (h : k ∈ d.keys) (v : α) :
    (d.set k v).keys = d.keys := by
  unfold set
  rw [dif_pos h, keys, keys, List.map_map]
  apply List.map_congr_left
  intro entry _
  rw [Function.comp_apply]
  split
  · rename_i heq
    exact heq.symm
  · rfl

theorem keys_set_of_not_mem {d : PyDict κ α} {k : κ} (h : k ∉ d.keys) (v : α) :
    (d.set k v).keys = d.keys ++ [k] := by
  unfold set
  rw [dif_neg h, keys, List.map_append]
  rfl

theorem mem_keys_set {d : PyDict κ α} {k x : κ} {v : α} :
    x ∈ (d.set k v).keys ↔ x = k ∨ x ∈ d.keys := by
  by_cases h : k ∈ d.keys
  · rw [keys_set_of_mem h]
    exact ⟨.inr, fun hx => hx.elim (fun heq => heq ▸ h) id⟩
  · rw [keys_set_of_not_mem h, List.mem_append, List.mem_singleton, or_comm]

@[simp] theorem get?_set_self (d : PyDict κ α) (k : κ) (v : α) : (d.set k v).get? k = some v := by
  rw [get?_eq_some_iff, set]
  split
  · rename_i h
    obtain ⟨entry, hentry, hkey⟩ := List.mem_map.1 h
    exact List.mem_map.2 ⟨entry, hentry, if_pos hkey⟩
  · exact List.mem_append_right _ List.mem_cons_self

theorem get?_set_of_ne (d : PyDict κ α) {k x : κ} (h : x ≠ k) (v : α) :
    (d.set k v).get? x = d.get? x := by
  apply Option.ext
  intro w
  rw [get?_eq_some_iff, get?_eq_some_iff, set]
  split
  · rw [List.mem_map]
    constructor
    · rintro ⟨entry, hentry, heq⟩
      split at heq
      · cases heq
        exact absurd rfl h
      · exact heq ▸ hentry
    · intro hmem
      exact ⟨(x, w), hmem, if_neg h⟩
  · rw [List.mem_append, List.mem_singleton]
    constructor
    · rintro (hmem | heq)
      · exact hmem
      · cases heq
        exact absurd rfl h
    · exact .inl

theorem get?_set (d : PyDict κ α) (k : κ) (v : α) :
    (d.set k v).get? = Function.update d.get? k (some v) := by
  funext x
  by_cases hx : x = k
  · rw [hx, get?_set_self, Function.update_self]
  · rw [get?_set_of_ne d hx, Function.update_of_ne hx]

/-- A key set to the value it has. -/
theorem set_eq_self {d : PyDict κ α} {k : κ} {v : α} (h : d.get? k = some v) : d.set k v = d := by
  have hentries : d.entries.map (fun entry => if entry.1 = k then (k, v) else entry) =
      d.entries := by
    conv_rhs => rw [← List.map_id d.entries]
    apply List.map_congr_left
    intro entry hentry
    split
    · rename_i hk
      subst hk
      rw [get?_eq_some_iff.2 hentry] at h
      cases h
      rfl
    · rfl
  unfold set
  rw [dif_pos (mem_keys_of_get? h)]
  simp only [hentries]

theorem foldl_set_eq_self {d : PyDict κ α} {entries : List (κ × α)}
    (h : ∀ entry ∈ entries, d.get? entry.1 = some entry.2) :
    entries.foldl (fun d entry => d.set entry.1 entry.2) d = d := by
  induction entries with
  | nil => rfl
  | cons entry entries ih =>
    rw [List.foldl_cons, set_eq_self (h entry List.mem_cons_self)]
    exact ih fun other hother => h other (List.mem_cons_of_mem entry hother)

/-- Keys set one after the other. -/
theorem mem_keys_foldl_set {ι : Type*} (key : ι → κ) (value : ι → α) (is : List ι)
    (d : PyDict κ α) {k : κ} :
    k ∈ (is.foldl (fun d i => d.set (key i) (value i)) d).keys ↔ k ∈ d.keys ∨ k ∈ is.map key := by
  induction is generalizing d with
  | nil => simp
  | cons i is ih =>
    rw [List.foldl_cons, ih, mem_keys_set, List.map_cons, List.mem_cons]
    exact ⟨fun h => h.elim (fun h => h.elim (.inr ∘ .inl) .inl) (.inr ∘ .inr),
      fun h => h.elim (.inl ∘ .inr) fun h => h.elim (.inl ∘ .inl) .inr⟩

theorem get?_foldl_set {ι : Type*} {key : ι → κ} {value : ι → α} {is : List ι} {d : PyDict κ α}
    {k : κ} {v : α} (h : (is.foldl (fun d i => d.set (key i) (value i)) d).get? k = some v) :
    d.get? k = some v ∨ ∃ i ∈ is, key i = k ∧ value i = v := by
  induction is generalizing d with
  | nil => exact .inl h
  | cons i is ih =>
    rcases ih h with hset | ⟨j, hj, heq⟩
    · by_cases hk : k = key i
      · subst hk
        rw [get?_set_self] at hset
        exact .inr ⟨i, List.mem_cons_self, rfl, Option.some.inj hset⟩
      · rw [get?_set_of_ne _ hk] at hset
        exact .inl hset
    · exact .inr ⟨j, List.mem_cons_of_mem i hj, heq⟩

/-- Entries with distinct keys, those set whose values have a property. -/
theorem get?_foldl_set_ite (p : α → Prop) [DecidablePred p] {entries : List (κ × α)}
    (hnodup : (entries.map Prod.fst).Nodup) (d : PyDict κ α) (k : κ) :
    (entries.foldl (fun d entry => if p entry.2 then d.set entry.1 entry.2 else d) d).get? k =
      ((entries.find? fun entry => entry.1 = k).elim (d.get? k)
        fun entry => if p entry.2 then some entry.2 else d.get? k) := by
  induction entries generalizing d with
  | nil => rfl
  | cons entry entries ih =>
    obtain ⟨hentry, hnodup⟩ := List.nodup_cons.1 hnodup
    rw [List.foldl_cons, ih hnodup]
    by_cases hk : entry.1 = k
    · have hnone : entries.find? (fun entry => entry.1 = k) = none := by
        rw [List.find?_eq_none]
        intro other hother heq
        have hother := List.mem_map_of_mem (f := Prod.fst) hother
        rw [of_decide_eq_true heq, ← hk] at hother
        exact hentry hother
      rw [hnone, List.find?_cons_of_pos (by simpa using hk), Option.elim_none, Option.elim_some]
      split
      · rw [← hk, get?_set_self]
      · rfl
    · have hget : (if p entry.2 then d.set entry.1 entry.2 else d).get? k = d.get? k := by
        split
        · exact get?_set_of_ne d (Ne.symm hk) _
        · rfl
      rw [List.find?_cons_of_neg (by simpa using hk), hget]

/-- The entries of a dictionary whose values have a property, set one after the other. -/
theorem get?_foldl_set_filter (p : α → Prop) [DecidablePred p] (d : PyDict κ α) (k : κ) :
    (d.entries.foldl (fun d entry => if p entry.2 then d.set entry.1 entry.2 else d)
      empty).get? k = (d.get? k).filter fun v => p v := by
  rw [get?_foldl_set_ite p d.nodup]
  unfold get?
  cases d.entries.find? fun entry => entry.1 = k with
  | none => rfl
  | some entry => simp [Option.filter, empty]

/-- `d.update(new)`. -/
theorem get?_foldl_set_entries (d : PyDict κ α) {new : PyDict κ α} {k : κ} {v : α}
    (h : new.get? k = some v) :
    (new.entries.foldl (fun d entry => d.set entry.1 entry.2) d).get? k = some v := by
  have hfold := get?_foldl_set_ite (fun _ : α => True) new.nodup d k
  simp only [if_true] at hfold
  obtain ⟨entry, hentry, rfl⟩ := Option.map_eq_some_iff.1 h
  rw [hfold, hentry, Option.elim_some]

/-! ## Deleting a key -/

theorem mem_keys_erase {d : PyDict κ α} {k x : κ} : x ∈ (d.erase k).keys ↔ x ∈ d.keys ∧ x ≠ k := by
  unfold keys erase
  rw [List.mem_map, List.mem_map]
  constructor
  · rintro ⟨entry, hentry, rfl⟩
    obtain ⟨hmem, hne⟩ := List.mem_filter.1 hentry
    exact ⟨⟨entry, hmem, rfl⟩, of_decide_eq_true hne⟩
  · rintro ⟨⟨entry, hmem, rfl⟩, hne⟩
    exact ⟨entry, List.mem_filter.2 ⟨hmem, decide_eq_true hne⟩, rfl⟩

theorem get?_of_get?_erase {d : PyDict κ α} {k x : κ} {v : α} (h : (d.erase k).get? x = some v) :
    d.get? x = some v := by
  rw [get?_eq_some_iff] at h ⊢
  exact (List.mem_filter.1 h).1

end PyDict
