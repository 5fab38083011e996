import RtFogros.Rib.Model

/-!
# The RIB against a map with one record a name

The comments of `GDPNameRecordType` describe a map: INFO does not replace a record, UPDATE
does.  The store appends in both arms, and a QUERY is answered with all that a name holds.

`documented` is the map of the comments over a run, and `RefinesMap` says that the table holds
what the map holds after every part of the run and that each QUERY for a known name is answered
once, from it.  `refinesMap_iff` has the runs of which that is true, which are those that store
at most one record a name: while a name is stored once the map holds what is stored
(`documented_eq_head?`), and the map never holds two records.  For the answers alone the
condition is that of `answersOnce_iff`.
-/

namespace RtFogros.LocalRib

/-! ## The map -/

/-- What a record does to the map of the comments. -/
def documentedStep (map : GDPName → Option GDPNameRecord) (query : GDPNameRecord) :
    GDPName → Option GDPNameRecord :=
  match query.recordType with
  | .update => Function.update map query.gdpname (some query)
  | .info =>
    if (map query.gdpname).isSome then map else Function.update map query.gdpname (some query)
  | .empty | .query | .merge | .delete => map

def documented (queries : List GDPNameRecord) : GDPName → Option GDPNameRecord :=
  queries.foldl documentedStep fun _ => none

variable {maps : MultiMap GDPName} {map : GDPName → Option GDPNameRecord}
  {query record : GDPNameRecord} {queries : List GDPNameRecord} {name : GDPName}

theorem documented_concat (queries : List GDPNameRecord) (query : GDPNameRecord) :
    documented (queries ++ [query]) = documentedStep (documented queries) query :=
  List.foldl_append

theorem documentedStep_of_not_stores (h : ¬ query.Stores) : documentedStep map query = map := by
  unfold documentedStep
  cases htype : query.recordType with
  | info => exact absurd (Or.inl htype) h
  | update => exact absurd (Or.inr htype) h
  | empty | query | merge | delete => rfl

theorem documentedStep_of_stores (map : GDPName → Option GDPNameRecord) (h : query.Stores) :
    documentedStep map query = map ∧ (map query.gdpname).isSome ∨
      documentedStep map query = Function.update map query.gdpname (some query) := by
  unfold documentedStep
  obtain htype | htype := h
  · rw [htype]
    dsimp only
    by_cases hsome : (map query.gdpname).isSome
    · exact .inl ⟨if_pos hsome, hsome⟩
    · exact .inr (if_neg hsome)
  · rw [htype]
    exact .inr rfl

theorem documentedStep_of_ne (map : GDPName → Option GDPNameRecord) (h : query.gdpname ≠ name) :
    documentedStep map query name = map name := by
  by_cases hstores : query.Stores
  · obtain ⟨hstep, -⟩ | hstep := documentedStep_of_stores map hstores
    · rw [hstep]
    · rw [hstep, Function.update_of_ne (Ne.symm h)]
  · rw [documentedStep_of_not_stores hstores]

/-- The first record of a name enters the map. -/
theorem documentedStep_of_none (h : query.Stores) (hnone : map query.gdpname = none) :
    documentedStep map query query.gdpname = some query := by
  obtain ⟨-, hsome⟩ | hstep := documentedStep_of_stores map h
  · rw [hnone] at hsome
    cases hsome
  · rw [hstep, Function.update_self]

/-- After a stored record the map knows its name. -/
theorem documentedStep_isSome (map : GDPName → Option GDPNameRecord) (h : query.Stores) :
    (documentedStep map query query.gdpname).isSome := by
  obtain ⟨hstep, hsome⟩ | hstep := documentedStep_of_stores map h
  · rw [hstep]
    exact hsome
  · rw [hstep, Function.update_self]
    rfl

/-- While a name is stored at most once, the map holds what is stored. -/
theorem documented_eq_head? (h : (storesOf queries name).length ≤ 1) :
    documented queries name = (storesOf queries name).head? := by
  induction queries using List.reverseRecOn with
  | nil => rfl
  | append_singleton queries query ih =>
    rw [documented_concat]
    by_cases hstores : query.Stores ∧ query.gdpname = name
    · obtain ⟨hstores, rfl⟩ := hstores
      rw [storesOf_concat_of_stores hstores rfl] at h ⊢
      have hempty : storesOf queries query.gdpname = [] := by
        simpa using h
      rw [hempty] at ih ⊢
      exact documentedStep_of_none hstores (ih (Nat.zero_le 1))
    · rw [storesOf_concat_of_not hstores] at h ⊢
      rw [← ih h]
      by_cases hname : query.gdpname = name
      · rw [documentedStep_of_not_stores fun hstore => hstores ⟨hstore, hname⟩]
      · exact documentedStep_of_ne _ hname

/-! ## The answers -/

/-- Every QUERY for a name in the map is answered once, with the record in the map. -/
def AnswersOnce (maps : MultiMap GDPName) (queries : List GDPNameRecord) : Prop :=
  ∀ pre query post record, queries = pre ++ query :: post → query.recordType = .query →
    documented pre query.gdpname = some record →
      (localRibHandler (after maps pre) query).2 = [response record query.sourceGdpname]

/-- The answers to a QUERY after a run are its stored records, one after the other. -/
theorem answers_of_stored (h : query.recordType = .query)
    (hstored : storesOf queries query.gdpname ≠ []) :
    (localRibHandler (after maps queries) query).2 =
      (storesOf queries query.gdpname).map fun record => response record query.sourceGdpname := by
  rw [← stored_after] at hstored ⊢
  rw [localRibHandler_query h, handleQuery_of_stored hstored]

/-- The map knows every name that a run has stored. -/
theorem documented_isSome (h : storesOf queries name ≠ []) : (documented queries name).isSome := by
  induction queries using List.reverseRecOn with
  | nil => exact absurd rfl h
  | append_singleton queries query ih =>
    rw [documented_concat]
    by_cases hstores : query.Stores ∧ query.gdpname = name
    · obtain ⟨hstores, rfl⟩ := hstores
      exact documentedStep_isSome _ hstores
    · rw [storesOf_concat_of_not hstores] at h
      by_cases hname : query.gdpname = name
      · rw [documentedStep_of_not_stores fun hstore => hstores ⟨hstore, hname⟩]
        exact ih h
      · rw [documentedStep_of_ne _ hname]
        exact ih h

/-- The answers are those of the map if and only if no QUERY comes after a second record
for its name. -/
theorem answersOnce_iff :
    AnswersOnce maps queries ↔
      ∀ pre query post, queries = pre ++ query :: post → query.recordType = .query →
        (storesOf pre query.gdpname).length ≤ 1 := by
  constructor
  · intro h pre query post heq htype
    by_cases hempty : storesOf pre query.gdpname = []
    · rw [hempty]
      exact Nat.zero_le 1
    · obtain ⟨record, hrecord⟩ := Option.isSome_iff_exists.1 (documented_isSome hempty)
      have hanswers := h pre query post record heq htype hrecord
      rw [answers_of_stored htype hempty] at hanswers
      have hlength := congrArg List.length hanswers
      rw [List.length_map] at hlength
      exact Nat.le_of_eq hlength
  · intro h pre query post record heq htype hrecord
    have hle := h pre query post heq htype
    rw [documented_eq_head? hle] at hrecord
    have hempty : storesOf pre query.gdpname ≠ [] := by
      intro hempty
      rw [hempty] at hrecord
      cases hrecord
    obtain ⟨only, honly⟩ := List.length_eq_one_iff.1
      (Nat.le_antisymm hle (List.length_pos_of_ne_nil hempty))
    rw [honly] at hrecord
    obtain rfl : only = record := Option.some.inj hrecord
    rw [answers_of_stored htype hempty, honly]
    rfl

/-! ## The refinement -/

/-- After every part of the run a name holds what the map holds, and a QUERY is answered from
it once. -/
structure RefinesMap (maps : MultiMap GDPName) (queries : List GDPNameRecord) : Prop where
  stored : ∀ pre post name, queries = pre ++ post →
    (after maps pre).stored name = (documented pre name).toList
  answered : AnswersOnce maps queries

/-- **Main result.**  The table is the documented map over a run if and only if the run has
no two INFO or UPDATE records for one name. -/
theorem refinesMap_iff (maps : MultiMap GDPName) (queries : List GDPNameRecord) :
    RefinesMap maps queries ↔ ∀ name, (storesOf queries name).length ≤ 1 := by
  constructor
  · intro h name
    have hstored := h.stored queries [] name (List.append_nil _).symm
    rw [stored_after] at hstored
    rw [hstored]
    exact Option.length_toList_le
  · intro h
    have hpre : ∀ pre post name, queries = pre ++ post → (storesOf pre name).length ≤ 1 := by
      rintro pre post name rfl
      have hname := h name
      rw [storesOf_append, List.length_append] at hname
      omega
    refine ⟨fun pre post name heq => ?_, answersOnce_iff.2 fun pre query post heq _ => ?_⟩
    · have hle := hpre pre post name heq
      rw [stored_after, documented_eq_head? hle]
      obtain hzero | hone := Nat.le_one_iff_eq_zero_or_eq_one.1 hle
      · rw [List.length_eq_zero_iff.1 hzero]
        rfl
      · obtain ⟨only, honly⟩ := List.length_eq_one_iff.1 hone
        rw [honly]
        rfl
    · exact hpre pre (query :: post) query.gdpname heq

/-- INFO, UPDATE and QUERY of one name. -/
def replaced : List GDPNameRecord :=
  [{ recordType := .info, gdpname := ⟨#v[0, 0, 0, 1]⟩, sourceGdpname := ⟨#v[0, 0, 0, 2]⟩,
     webrtcOffer := none, ipAddress := some "10.0.0.1", ros := none, indirect := none },
   { recordType := .update, gdpname := ⟨#v[0, 0, 0, 1]⟩, sourceGdpname := ⟨#v[0, 0, 0, 2]⟩,
     webrtcOffer := none, ipAddress := some "10.0.0.9", ros := none, indirect := none },
   { recordType := .query, gdpname := ⟨#v[0, 0, 0, 1]⟩, sourceGdpname := ⟨#v[0, 0, 0, 3]⟩,
     webrtcOffer := none, ipAddress := none, ros := none, indirect := none }]

/-- The record that the UPDATE should have replaced is still the first answer. -/
theorem replaced_answers :
    ¬ RefinesMap .lists replaced ∧
      (Mealy.outputs localRibHandler (new : LocalRib .lists) replaced).flatten.map
        GDPNameRecord.ipAddress = [some "10.0.0.1", some "10.0.0.9"] := by
  refine ⟨fun h => ?_, by decide⟩
  exact absurd (h.stored replaced [] ⟨#v[0, 0, 0, 1]⟩ (List.append_nil _).symm) (by decide)

end RtFogros.LocalRib
