import Mathlib.Order.Defs.Unbundled

/-!
# What a stateful program does to its state

`Respects R x` says that the program `x` takes every state to one that `R` relates it to,
whether it returns or throws.  For a preorder this is closed under the ways to build programs
(`bind`, `ite`, `forM`, `throw`), so a program that is composed of parts which respect `R` respects
it by the composition alone.

Two preorders are used: a program that leaves what `f` reads respects `Same f`, its frame, and one
that keeps a predicate respects `Keeps p`.  Since a program that throws is not excused, both hold
of the state that an exception leaves.
-/

namespace EStateM

universe u

variable {ε σ α β γ ι : Type u}

/-- The state in which a run ends. -/
def Result.state : Result ε σ α → σ
  | .ok _ s | .error _ s => s

structure Respects (R : σ → σ → Prop) (x : EStateM ε σ α) : Prop where
  rel : ∀ s, R s (x s).state

/-- The states agree in what `f` reads. -/
def Same (f : σ → γ) (s s' : σ) : Prop := f s' = f s

instance (f : σ → γ) : IsPreorder σ (Same f) where
  refl _ := rfl
  trans _ _ _ h h' := Eq.trans h' h

/-- What holds before holds after. -/
def Keeps (p : σ → Prop) (s s' : σ) : Prop := p s → p s'

instance (p : σ → Prop) : IsPreorder σ (Keeps p) where
  refl _ := id
  trans _ _ _ h h' := h' ∘ h

/-- The parts of a run that returned. -/
theorem bind_eq_ok {x : EStateM ε σ α} {g : α → EStateM ε σ β} {s s' : σ} {b : β} :
    (x >>= g) s = .ok b s' ↔ ∃ a t, x s = .ok a t ∧ g a t = .ok b s' := by
  change EStateM.bind x g s = _ ↔ _
  unfold EStateM.bind
  cases x s with
  | ok a t =>
    constructor
    · intro h
      exact ⟨a, t, rfl, h⟩
    · rintro ⟨a', t', ⟨⟩, h⟩
      exact h
  | error e t =>
    constructor
    · intro h
      cases h
    · rintro ⟨a', t', h, -⟩
      cases h

namespace Respects

variable {R : σ → σ → Prop}

theorem of_ok {x : EStateM ε σ α} (h : Respects R x) {s s' : σ} {a : α} (hx : x s = .ok a s') :
    R s s' := by
  have hs := h.rel s
  rwa [hx] at hs

theorem update {g : σ → σ} (h : ∀ s, R s (g s)) : Respects R (modify g : EStateM ε σ PUnit) := ⟨h⟩

theorem ite {c : Prop} [Decidable c] {x y : EStateM ε σ α} (hx : Respects R x)
    (hy : Respects R y) : Respects R (if c then x else y) := by
  split
  · exact hx
  · exact hy

variable [IsPreorder σ R]

theorem pure (a : α) : Respects R (Pure.pure a : EStateM ε σ α) := ⟨fun s => Std.Refl.refl s⟩

theorem get : Respects R (MonadState.get : EStateM ε σ σ) := ⟨fun s => Std.Refl.refl s⟩

theorem throw (e : ε) : Respects R (MonadExcept.throw e : EStateM ε σ α) :=
  ⟨fun s => Std.Refl.refl s⟩

theorem bind {x : EStateM ε σ α} {g : α → EStateM ε σ β} (hx : Respects R x)
    (hg : ∀ a, Respects R (g a)) : Respects R (x >>= g) := by
  constructor
  intro s
  change R s (EStateM.bind x g s).state
  unfold EStateM.bind
  cases hrun : x s with
  | ok a s' => exact IsTrans.trans _ _ _ (hx.of_ok hrun) ((hg a).rel s')
  | error e s' =>
    have hs := hx.rel s
    rwa [hrun] at hs

theorem forM {g : ι → EStateM ε σ PUnit} {is : List ι} (h : ∀ i ∈ is, Respects R (g i)) :
    Respects R (is.forM g) := by
  induction is with
  | nil => exact Respects.pure _
  | cons i is ih =>
    exact bind (h i List.mem_cons_self) fun _ =>
      ih fun j hj => h j (List.mem_cons_of_mem i hj)

end Respects

end EStateM
