import Mathlib.Data.List.Nodup
import Mathlib.Data.List.Infix

/-!
# Lists that keep an order without gaps

Whatever comes before an element in the order comes before each of its copies in the list.
Elements outside the order, and further copies, may stand anywhere: so lists that copies are passed
on along are gapless although none of them is a prefix of the order.

`append_from` is the rule for passing on: what follows in a gapless list may be added to another
gapless list that has what comes before it there.  `initial` is the way out: a gapless list of
elements of the order, each once, is the beginning of the order.
-/

variable {α κ : Type*}

def Gapless (order l : List κ) : Prop :=
  ∀ (earlier : List κ) b later, order = earlier ++ b :: later →
    ∀ (before : List κ) after, l = before ++ b :: after → earlier ⊆ before

namespace Gapless

variable {order l : List κ}

theorem nil : Gapless order [] := by
  intro earlier b later _ before after hl
  simp at hl

theorem concat (h : Gapless order l) {k : κ}
    (hk : ∀ earlier later, order = earlier ++ k :: later → earlier ⊆ l) :
    Gapless order (l ++ [k]) := by
  intro earlier b later horder before after hl
  induction after using List.reverseRecOn with
  | nil =>
    obtain ⟨rfl, hb⟩ := List.append_inj' hl rfl
    obtain rfl := List.singleton_inj.1 hb
    exact hk earlier later horder
  | append_singleton after last =>
    rw [← List.cons_append, ← List.append_assoc] at hl
    exact h earlier b later horder before after (List.append_inj' hl rfl).1

/-- A new last element of the order has no copy yet. -/
theorem order_concat (h : Gapless order l) {k : κ} (hk : k ∉ l) : Gapless (order ++ [k]) l := by
  intro earlier b later horder before after hl
  induction later using List.reverseRecOn with
  | nil =>
    obtain rfl := List.singleton_inj.1 (List.append_inj' horder rfl).2
    exact absurd (hl ▸ List.mem_append_right _ List.mem_cons_self) hk
  | append_singleton later last =>
    rw [← List.cons_append, ← List.append_assoc] at horder
    exact h earlier b later (List.append_inj' horder rfl).1 before after hl

/-- The next element of the order is added to a list that has the others. -/
theorem extend (h : Gapless order l) {k : κ} (hk : k ∉ order) (hl : k ∉ l) (hsub : order ⊆ l) :
    Gapless (order ++ [k]) (l ++ [k]) := by
  refine (h.order_concat hl).concat fun earlier later horder => ?_
  induction later using List.reverseRecOn with
  | nil => exact (List.append_inj' horder rfl).1 ▸ hsub
  | append_singleton later last =>
    rw [← List.cons_append, ← List.append_assoc] at horder
    refine absurd ?_ hk
    rw [(List.append_inj' horder rfl).1]
    exact List.mem_append_right _ List.mem_cons_self

/-- More elements, before each of which the list has what comes before it in the order. -/
theorem append (h : Gapless order l) {more : List κ}
    (hmore : ∀ k ∈ more, ∀ earlier later, order = earlier ++ k :: later → earlier ⊆ l) :
    Gapless order (l ++ more) := by
  induction more using List.reverseRecOn with
  | nil =>
    rw [List.append_nil]
    exact h
  | append_singleton more k ih =>
    rw [← List.append_assoc]
    refine (ih fun k hk => hmore k (List.mem_append_left _ hk)).concat
      fun earlier later horder a ha => ?_
    have hk := hmore k (List.mem_append_right _ List.mem_cons_self) earlier later horder
    exact List.mem_append_left _ (hk ha)

theorem of_initial (h : Gapless order l) {l' : List κ} (hl : l' <+: l) : Gapless order l' := by
  obtain ⟨more, rfl⟩ := hl
  intro earlier b later horder before after hl'
  refine h earlier b later horder before (after ++ more) ?_
  rw [hl', List.append_assoc, List.cons_append]

/-- The elements are passed on from a gapless list that the list already has in part. -/
theorem append_from (h : Gapless order l) {source more : List κ}
    (hsource : Gapless order (source ++ more)) (hsub : source ⊆ l) :
    Gapless order (l ++ more) := by
  induction more using List.reverseRecOn with
  | nil =>
    rw [List.append_nil]
    exact h
  | append_singleton more k ih =>
    rw [← List.append_assoc] at hsource ⊢
    refine (ih (hsource.of_initial (List.prefix_append ..))).concat
      fun earlier later horder a ha => ?_
    have hbefore := hsource earlier k later horder _ [] rfl ha
    exact List.mem_append.2 ((List.mem_append.1 hbefore).imp_left (hsub ·))

theorem filter (h : Gapless order l) {p : κ → Bool} (hp : ∀ k ∈ order, p k) :
    Gapless order (l.filter p) := by
  intro earlier b later horder before after hl
  obtain ⟨before', rest, rfl, rfl, hrest⟩ := List.filter_eq_append_iff.1 hl
  obtain ⟨between, after', rfl, hbetween, -, -⟩ := List.filter_eq_cons_iff.1 hrest
  have hsub := h earlier b later horder (before' ++ between) after' (List.append_assoc ..).symm
  intro a ha
  have hpa : p a := hp a (horder ▸ List.mem_append_left _ ha)
  rcases List.mem_append.1 (hsub ha) with hmem | hmem
  · exact List.mem_filter.2 ⟨hmem, hpa⟩
  · exact absurd hpa (hbetween a hmem)

/-- A gapless list of elements of the order, each once, is the beginning of the order. -/
theorem initial {order l : List α} {key : α → κ} (h : Gapless (order.map key) (l.map key))
    (horder : (order.map key).Nodup) (hl : (l.map key).Nodup) (hsub : l ⊆ order) :
    l <+: order := by
  induction l using List.reverseRecOn with
  | nil => exact List.nil_prefix
  | append_singleton l k ih =>
    have hinitial : l <+: l ++ [k] := List.prefix_append ..
    obtain ⟨rest, hrest⟩ := ih (h.of_initial (hinitial.map key))
      (hl.sublist (hinitial.map key).sublist) fun a ha => hsub (hinitial.subset ha)
    obtain ⟨earlier, later, hk⟩ :=
      List.append_of_mem (hsub (List.mem_append_right l List.mem_cons_self))
    have hnext : rest = k :: later → l ++ [k] <+: order := by
      rintro rfl
      exact ⟨later, by rw [List.append_assoc]; exact hrest⟩
    rw [List.map_append, List.nodup_append] at hl
    rw [← hrest, List.map_append, List.nodup_append] at horder
    rcases List.append_eq_append_iff.1 (hk.symm.trans hrest.symm) with
      ⟨more, hmore, hlater⟩ | ⟨more, hmore, hlater⟩
    · cases more with
      | nil => exact hnext hlater.symm
      | cons x more =>
        -- the element is in the list already
        obtain ⟨rfl, -⟩ := List.cons.inj hlater
        have hmem : k ∈ l := hmore ▸ List.mem_append_right _ List.mem_cons_self
        exact absurd rfl (hl.2.2 _ (List.mem_map_of_mem hmem) _ List.mem_cons_self)
    · cases more with
      | nil => exact hnext hlater
      | cons x more =>
        -- an element between them in the order is missing in the list
        have hbefore : earlier.map key ⊆ l.map key := by
          refine h (earlier.map key) (key k) (later.map key) ?_ (l.map key) [] List.map_append
          rw [hk, List.map_append, List.map_cons]
        have hearlier : x ∈ earlier := hmore ▸ List.mem_append_right _ List.mem_cons_self
        have hx : x ∈ rest := hlater ▸ List.mem_append_left _ List.mem_cons_self
        exact absurd rfl (horder.2.2 _ (hbefore (List.mem_map_of_mem hearlier)) _
          (List.mem_map_of_mem hx))

end Gapless
