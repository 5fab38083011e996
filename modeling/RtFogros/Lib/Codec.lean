import Mathlib.Data.List.Basic

/-!
# Self-delimiting codecs

A codec prints a value as a list of tokens and parses it off the front of a
longer list.  Its two laws make it self-delimiting: what was printed is parsed
back whatever follows it, and nothing but a printed value is parsed.  Both laws
are closed under the combinators, so a text format is lawful by construction;
`decode_prefix` and `decode_trailing` are what a strict reader of whole texts
inherits from them.
-/

structure Codec (τ α : Type*) where
  print : α → List τ
  parse : List τ → Option (α × List τ)
  parse_print : ∀ a rest, parse (print a ++ rest) = some (a, rest)
  print_parse : ∀ {s a rest}, parse s = some (a, rest) → s = print a ++ rest

namespace Codec

variable {τ α β : Type*}

/-! ## Whole texts -/

/-- Read a value that must fill the text. -/
def decode (c : Codec τ α) (s : List τ) : Option α :=
  match c.parse s with
  | some (a, []) => some a
  | _ => none

theorem decode_eq_some_iff (c : Codec τ α) {s : List τ} {a : α} :
    c.decode s = some a ↔ s = c.print a := by
  constructor
  · intro h
    unfold decode at h
    split at h
    · rename_i b hb
      obtain rfl := Option.some.inj h
      simpa using c.print_parse hb
    · cases h
  · rintro rfl
    have h := c.parse_print a []
    rw [List.append_nil] at h
    unfold decode
    rw [h]

@[simp] theorem decode_print (c : Codec τ α) (a : α) : c.decode (c.print a) = some a :=
  c.decode_eq_some_iff.2 rfl

theorem print_append_inj (c : Codec τ α) {a b : α} {s t : List τ}
    (h : c.print a ++ s = c.print b ++ t) : a = b ∧ s = t := by
  have h' := c.parse_print a s
  rw [h, c.parse_print b t, Option.some.injEq, Prod.mk.injEq] at h'
  exact ⟨h'.1.symm, h'.2.symm⟩

/-- A proper prefix of a printed value is not a value. -/
theorem decode_prefix (c : Codec τ α) {a : α} {s t : List τ} (ht : t ≠ [])
    (h : s ++ t = c.print a) : c.decode s = none := by
  cases hs : c.decode s with
  | none => rfl
  | some b =>
    rw [c.decode_eq_some_iff] at hs
    subst hs
    rw [← List.append_nil (c.print a)] at h
    exact absurd (c.print_append_inj h).2 ht

/-- Neither is a printed value with something after it. -/
theorem decode_trailing (c : Codec τ α) (a : α) {t : List τ} (ht : t ≠ []) :
    c.decode (c.print a ++ t) = none := by
  cases hs : c.decode (c.print a ++ t) with
  | none => rfl
  | some b =>
    rw [c.decode_eq_some_iff, ← List.append_nil (c.print b)] at hs
    exact absurd (c.print_append_inj hs).2 ht

/-! ## Combinators -/

/-- A fixed text. -/
def lit [DecidableEq τ] (text : List τ) : Codec τ Unit where
  print _ := text
  parse s := if text <+: s then some ((), s.drop text.length) else none
  parse_print _ rest := by
    rw [if_pos (List.prefix_append text rest), List.drop_left]
  print_parse := by
    intro s a rest h
    split at h
    · rename_i hpre
      obtain ⟨t, rfl⟩ := hpre
      rw [List.drop_left, Option.some.injEq, Prod.mk.injEq] at h
      rw [h.2]
    · cases h

/-- One value after another. -/
def seq (c : Codec τ α) (d : Codec τ β) : Codec τ (α × β) where
  print p := c.print p.1 ++ d.print p.2
  parse s := (c.parse s).bind fun (a, s) => (d.parse s).map fun (b, s) => ((a, b), s)
  parse_print p rest := by
    rw [List.append_assoc, c.parse_print]
    simp [d.parse_print]
  print_parse := by
    intro s p rest h
    obtain ⟨⟨a, s'⟩, ha, h⟩ := Option.bind_eq_some_iff.1 h
    obtain ⟨⟨b, s''⟩, hb, h⟩ := Option.map_eq_some_iff.1 h
    cases h
    rw [c.print_parse ha, d.print_parse hb, List.append_assoc]

theorem getLast?_seq {c : Codec τ α} {d : Codec τ β} {p : α × β} {x : τ}
    (h : (d.print p.2).getLast? = some x) : ((seq c d).print p).getLast? = some x := by
  rw [seq, List.getLast?_append, h]
  rfl

/-- A value after a fixed text. -/
def after [DecidableEq τ] (text : List τ) (c : Codec τ α) : Codec τ α where
  print a := text ++ c.print a
  parse s := ((lit text).parse s).bind fun p => c.parse p.2
  parse_print a rest := by
    rw [List.append_assoc]
    have h := (lit text).parse_print () (c.print a ++ rest)
    rw [show (lit text).print () = text from rfl] at h
    rw [h]
    exact c.parse_print a rest
  print_parse := by
    intro s a rest h
    obtain ⟨⟨u, s'⟩, hu, h⟩ := Option.bind_eq_some_iff.1 h
    rw [(lit text).print_parse hu, c.print_parse (s := s') h, List.append_assoc]
    rfl

/-- A fixed text for no value, or a value that does not start with it. -/
def orLit [DecidableEq τ] (text : List τ) (c : Codec τ α)
    (hhead : ∀ a rest, ¬ text <+: c.print a ++ rest) : Codec τ (Option α) where
  print
    | none => text
    | some a => c.print a
  parse s :=
    if text <+: s then some (none, s.drop text.length)
    else (c.parse s).map fun (a, s) => (some a, s)
  parse_print a rest := by
    cases a with
    | none => simp
    | some a => simp [hhead, c.parse_print]
  print_parse := by
    intro s a rest h
    split at h
    · next hpre =>
      obtain ⟨t, rfl⟩ := hpre
      rw [List.drop_left, Option.some.injEq, Prod.mk.injEq] at h
      obtain ⟨rfl, rfl⟩ := h
      rfl
    · obtain ⟨⟨b, s'⟩, hb, h⟩ := Option.map_eq_some_iff.1 h
      cases h
      exact c.print_parse hb

/-- The same texts for another type. -/
def iso (c : Codec τ α) (f : α → β) (g : β → α) (hfg : ∀ b, f (g b) = b)
    (hgf : ∀ a, g (f a) = a) : Codec τ β where
  print b := c.print (g b)
  parse s := (c.parse s).map fun (a, s) => (f a, s)
  parse_print b rest := by
    simp [c.parse_print, hfg]
  print_parse := by
    intro s b rest h
    obtain ⟨⟨a, s'⟩, ha, h⟩ := Option.map_eq_some_iff.1 h
    cases h
    rw [c.print_parse ha, hgf]

/-- Split at the first `stop`. -/
def splitFirst [DecidableEq τ] (stop : τ) : List τ → Option (List τ × List τ)
  | [] => none
  | x :: s =>
    if x = stop then some ([], s) else (splitFirst stop s).map fun (part, rest) => (x :: part, rest)

theorem splitFirst_append [DecidableEq τ] {stop : τ} {part : List τ} (h : stop ∉ part)
    (rest : List τ) : splitFirst stop (part ++ stop :: rest) = some (part, rest) := by
  induction part with
  | nil => simp [splitFirst]
  | cons x part ih =>
    rw [List.mem_cons, not_or] at h
    rw [List.cons_append, splitFirst, if_neg (Ne.symm h.1), ih h.2, Option.map_some]

theorem splitFirst_eq_some [DecidableEq τ] {stop : τ} {s part rest : List τ}
    (h : splitFirst stop s = some (part, rest)) : s = part ++ stop :: rest := by
  induction s generalizing part with
  | nil => cases h
  | cons x s ih =>
    unfold splitFirst at h
    split at h
    · cases h
      rename_i hx
      rw [hx, List.nil_append]
    · obtain ⟨⟨part', rest'⟩, hs, h⟩ := Option.map_eq_some_iff.1 h
      cases h
      rw [ih hs, List.cons_append]

/-- A value whose text runs to the first `stop`. -/
def upTo [DecidableEq τ] (stop : τ) (text : α → List τ) (read : List τ → α)
    (hstop : ∀ a, stop ∉ text a) (hread : ∀ a, read (text a) = a) : Codec τ α where
  print a := text a ++ [stop]
  parse s := (splitFirst stop s).bind fun (part, rest) =>
    if text (read part) = part then some (read part, rest) else none
  parse_print a rest := by
    rw [List.append_assoc, List.singleton_append, splitFirst_append (hstop a)]
    simp [hread]
  print_parse := by
    intro s a rest h
    obtain ⟨⟨part, rest'⟩, hs, h⟩ := Option.bind_eq_some_iff.1 h
    simp only at h
    split at h
    · rename_i hpart
      cases h
      rw [splitFirst_eq_some hs, hpart, List.append_assoc, List.singleton_append]
    · cases h

/-! ## Lists -/

section Items

variable [DecidableEq τ] (c : Codec τ α) (sep close : τ)

/-- The items of a list, separated by `sep` and closed by `close`. -/
def printItems : List α → List τ
  | [] => [close]
  | [a] => c.print a ++ [close]
  | a :: b :: as => c.print a ++ sep :: printItems (b :: as)

/-- The items of a nonempty list; `fuel` bounds their number. -/
def parseItems : Nat → List τ → Option (List α × List τ)
  | 0, _ => none
  | fuel + 1, s => match c.parse s with
    | some (a, t :: rest) =>
      if t = close then some ([a], rest)
      else if t = sep then (parseItems fuel rest).map fun (as, rest) => (a :: as, rest)
      else none
    | _ => none

variable {c sep close}

variable (c) in
theorem parseItems_printItems (hsep : sep ≠ close) (a : α) (as : List α) (rest : List τ)
    {fuel : Nat} (hfuel : as.length < fuel) :
    parseItems c sep close fuel (printItems c sep close (a :: as) ++ rest) =
      some (a :: as, rest) := by
  induction as generalizing a fuel with
  | nil =>
    obtain ⟨fuel, rfl⟩ : ∃ n, fuel = n + 1 := ⟨fuel - 1, by simp at hfuel; omega⟩
    simp [parseItems, printItems, c.parse_print]
  | cons b as ih =>
    obtain ⟨fuel, rfl⟩ : ∃ n, fuel = n + 1 := ⟨fuel - 1, by simp at hfuel; omega⟩
    have hrec := ih b (by simpa using hfuel : as.length < fuel)
    simp [parseItems, printItems, c.parse_print, hsep, hrec]

theorem printItems_parseItems {fuel : Nat} {s : List τ} {as : List α} {rest : List τ}
    (h : parseItems c sep close fuel s = some (as, rest)) :
    as ≠ [] ∧ s = printItems c sep close as ++ rest := by
  induction fuel generalizing s as with
  | zero => cases h
  | succ fuel ih =>
    unfold parseItems at h
    split at h
    · rename_i a t tail ha
      have hs := c.print_parse ha
      split at h
      · rename_i ht
        cases h
        exact ⟨List.cons_ne_nil _ _, by rw [hs, ht, printItems, List.append_assoc]; rfl⟩
      · split at h
        · rename_i ht
          obtain ⟨⟨bs, rest'⟩, hb, h⟩ := Option.map_eq_some_iff.1 h
          cases h
          obtain ⟨hne, htail⟩ := ih hb
          obtain ⟨b, bs, rfl⟩ := List.exists_cons_of_ne_nil hne
          refine ⟨List.cons_ne_nil _ _, ?_⟩
          rw [hs, ht, htail, printItems, List.append_assoc, List.cons_append]
        · cases h
    · cases h

variable (c sep close) in
omit [DecidableEq τ] in
theorem length_le_printItems (as : List α) : as.length ≤ (printItems c sep close as).length := by
  induction as with
  | nil => simp
  | cons a as ih =>
    cases as with
    | nil => simp [printItems]
    | cons b as =>
      unfold printItems
      rw [List.length_append, List.length_cons (a := a), List.length_cons (a := sep)]
      omega

/-- A list of values none of which starts with `close`. -/
def list (c : Codec τ α) (sep close : τ) (hsep : sep ≠ close)
    (hhead : ∀ a, ∃ t s, c.print a = t :: s ∧ t ≠ close) : Codec τ (List α) where
  print := printItems c sep close
  parse s := match s with
    | [] => none
    | t :: rest =>
      if t = close then some ([], rest)
      else parseItems c sep close (t :: rest).length (t :: rest)
  parse_print as rest := by
    cases as with
    | nil => simp [printItems]
    | cons a as =>
      have hlen := length_le_printItems c sep close (a :: as)
      obtain ⟨t, s, hprint, ht⟩ : ∃ t s, printItems c sep close (a :: as) = t :: s ∧ t ≠ close := by
        obtain ⟨t, s, hprint, ht⟩ := hhead a
        cases as with
        | nil => exact ⟨t, s ++ [close], by rw [printItems, hprint, List.cons_append], ht⟩
        | cons b as =>
          exact ⟨t, s ++ sep :: printItems c sep close (b :: as),
            by rw [printItems, hprint, List.cons_append], ht⟩
      have hfuel : as.length < (printItems c sep close (a :: as) ++ rest).length := by
        rw [List.length_append]
        simp only [List.length_cons] at hlen
        omega
      have hparse := parseItems_printItems c hsep a as rest hfuel
      rw [hprint, List.cons_append] at hparse ⊢
      simpa only [if_neg ht] using hparse
  print_parse := by
    intro s as rest h
    cases s with
    | nil => cases h
    | cons t s =>
      simp only at h
      split at h
      · rename_i ht
        cases h
        rw [ht]
        rfl
      · exact (printItems_parseItems h).2

end Items

/-! ## The tokens of printed values -/

/-- Every token that `c` prints satisfies `P`. -/
def Over (P : τ → Prop) (c : Codec τ α) : Prop := ∀ a, ∀ x ∈ c.print a, P x

theorem Over.after [DecidableEq τ] {P : τ → Prop} {text : List τ} {c : Codec τ α}
    (ht : ∀ x ∈ text, P x) (hc : c.Over P) : (after text c).Over P :=
  fun a x hx => (List.mem_append.1 hx).elim (ht x) (hc a x)

theorem Over.lit [DecidableEq τ] {P : τ → Prop} {text : List τ} (ht : ∀ x ∈ text, P x) :
    (Codec.lit text).Over P :=
  fun _ => ht

theorem Over.mono {P Q : τ → Prop} {c : Codec τ α} (h : ∀ x, P x → Q x) (hc : c.Over P) :
    c.Over Q :=
  fun a x hx => h x (hc a x hx)

theorem Over.orLit [DecidableEq τ] {P : τ → Prop} {text : List τ} {c : Codec τ α}
    {hhead : ∀ a rest, ¬ text <+: c.print a ++ rest} (ht : ∀ x ∈ text, P x) (hc : c.Over P) :
    (Codec.orLit text c hhead).Over P
  | none => ht
  | some a => hc a

theorem Over.seq {P : τ → Prop} {c : Codec τ α} {d : Codec τ β} (hc : c.Over P) (hd : d.Over P) :
    (seq c d).Over P :=
  fun p x hx => (List.mem_append.1 hx).elim (hc p.1 x) (hd p.2 x)

theorem Over.iso {P : τ → Prop} {c : Codec τ α} {f : α → β} {g : β → α}
    {hfg : ∀ b, f (g b) = b} {hgf : ∀ a, g (f a) = a} (hc : c.Over P) :
    (iso c f g hfg hgf).Over P :=
  fun b => hc (g b)

theorem Over.upTo [DecidableEq τ] {P : τ → Prop} {stop : τ} {text : α → List τ}
    {read : List τ → α} {hstop : ∀ a, stop ∉ text a} {hread : ∀ a, read (text a) = a}
    (hs : P stop) (ht : ∀ a, ∀ x ∈ text a, P x) :
    (Codec.upTo stop text read hstop hread).Over P := by
  intro a x hx
  rcases List.mem_append.1 hx with hx | hx
  · exact ht a x hx
  · rwa [List.mem_singleton.1 hx]

theorem Over.list [DecidableEq τ] {P : τ → Prop} {c : Codec τ α} {sep close : τ}
    {hne : sep ≠ close} {hhead : ∀ a, ∃ t s, c.print a = t :: s ∧ t ≠ close}
    (hsep : P sep) (hclose : P close) (hc : c.Over P) :
    (Codec.list c sep close hne hhead).Over P := by
  intro as
  show ∀ x ∈ printItems c sep close as, P x
  induction as with
  | nil =>
    intro x hx
    rwa [List.mem_singleton.1 hx]
  | cons a as ih =>
    intro x hx
    cases as with
    | nil =>
      rcases List.mem_append.1 hx with hx | hx
      · exact hc a x hx
      · rwa [List.mem_singleton.1 hx]
    | cons b as =>
      rcases List.mem_append.1 hx with hx | hx
      · exact hc a x hx
      · rcases List.mem_cons.1 hx with rfl | hx
        · exact hsep
        · exact ih x hx

end Codec
