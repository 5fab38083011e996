import RtFogros.Rib.Model
import Mathlib.Data.List.Nodup

/-!
# The sources that wait for a record

A QUERY for a name without a record is kept until the record comes.  Only the INFO arm
answers those that wait and forgets them; the UPDATE arm stores its record and leaves them.

`PendingSound` says that nobody waits for a name with a record, that nobody waits twice, and that
the first record of a name is sent once to each source that asked for it before.
`pendingSound_iff` has the runs of which that is true, which are those in which no UPDATE is the
first record of a name that was asked for.  While a name has no record, those wait for it that
asked for it (`mem_pending_iff`), whatever the run; where INFO records come first, nobody waits
for a name with a record (`FirstByInfo.disjoint`).
-/

namespace RtFogros.LocalRib

variable {maps : MultiMap GDPName} {rib : LocalRib maps} {query : GDPNameRecord}
  {queries : List GDPNameRecord} {name source : GDPName}

/-- `source` asked for `name`. -/
def Queried (queries : List GDPNameRecord) (name source : GDPName) : Prop :=
  ∃ query ∈ queries,
    query.recordType = .query ∧ query.gdpname = name ∧ query.sourceGdpname = source

instance (queries : List GDPNameRecord) (name source : GDPName) :
    Decidable (Queried queries name source) :=
  inferInstanceAs (Decidable (∃ query ∈ queries, _ ∧ _ ∧ _))

theorem queried_concat :
    Queried (queries ++ [query]) name source ↔
      Queried queries name source ∨
        query.recordType = .query ∧ query.gdpname = name ∧ query.sourceGdpname = source := by
  unfold Queried
  constructor
  · rintro ⟨record, hmem, hrecord⟩
    rcases List.mem_append.1 hmem with hmem | hmem
    · exact .inl ⟨record, hmem, hrecord⟩
    · obtain rfl := List.mem_singleton.1 hmem
      exact .inr hrecord
  · rintro (⟨record, hmem, hrecord⟩ | hquery)
    · exact ⟨record, List.mem_append_left _ hmem, hrecord⟩
    · exact ⟨query, List.mem_append_right _ (List.mem_singleton.2 rfl), hquery⟩

/-! ## One step -/

/-- A QUERY makes its source wait for the name if the name has no record. -/
theorem pending_query (htype : query.recordType = .query) (name : GDPName) :
    (localRibHandler rib query).1.pending name =
      if query.gdpname = name ∧ rib.stored name = [] ∧ query.sourceGdpname ∉ rib.pending name then
        rib.pending name ++ [query.sourceGdpname]
      else rib.pending name := by
  rw [localRibHandler_query htype]
  by_cases hstored : rib.stored query.gdpname = []
  · rw [handleQuery_of_not_stored hstored]
    by_cases hmem : query.sourceGdpname ∈ rib.pending query.gdpname
    · rw [if_pos hmem, if_neg]
      rintro ⟨rfl, -, hnot⟩
      exact hnot hmem
    · rw [if_neg hmem]
      by_cases hname : query.gdpname = name
      · subst hname
        rw [if_pos ⟨rfl, hstored, hmem⟩]
        exact MultiMap.vec_insert_self ..
      · rw [if_neg fun h => hname h.1]
        exact MultiMap.vec_insert_of_ne _ (Ne.symm hname) _
  · rw [handleQuery_of_stored hstored, if_neg]
    rintro ⟨rfl, hempty, -⟩
    exact hstored hempty

/-- An INFO record ends the waiting for its name. -/
theorem pending_info (htype : query.recordType = .info) (name : GDPName) :
    (localRibHandler rib query).1.pending name =
      if query.gdpname = name then [] else rib.pending name := by
  rw [localRibHandler_info htype]
  split
  · next hname =>
    subst hname
    exact MultiMap.vec_remove_self ..
  · next hname => exact MultiMap.vec_remove_of_ne _ (Ne.symm hname)

/-- The other records leave those that wait. -/
theorem pending_of_ne (hquery : query.recordType ≠ .query) (hinfo : query.recordType ≠ .info)
    (name : GDPName) : (localRibHandler rib query).1.pending name = rib.pending name := by
  unfold localRibHandler
  cases htype : query.recordType with
  | query => exact absurd htype hquery
  | info => exact absurd htype hinfo
  | empty | update | merge | delete => rfl

/-! ## Runs -/

@[simp] theorem pending_nil (name : GDPName) : (after maps []).pending name = [] :=
  MultiMap.vec_new name

theorem pending_nodup (maps : MultiMap GDPName) (queries : List GDPNameRecord) (name : GDPName) :
    ((after maps queries).pending name).Nodup := by
  induction queries using List.reverseRecOn with
  | nil =>
    rw [pending_nil]
    exact List.nodup_nil
  | append_singleton queries query ih =>
    rw [after_concat]
    by_cases hquery : query.recordType = .query
    · rw [pending_query hquery]
      split
      · next h =>
        rw [← List.concat_eq_append]
        exact ih.concat h.2.2
      · exact ih
    · by_cases hinfo : query.recordType = .info
      · rw [pending_info hinfo]
        split
        · exact List.nodup_nil
        · exact ih
      · rw [pending_of_ne hquery hinfo]
        exact ih

/-- While a name has no record, those wait for it that asked for it. -/
theorem mem_pending_iff (h : storesOf queries name = []) :
    source ∈ (after maps queries).pending name ↔ Queried queries name source := by
  induction queries using List.reverseRecOn with
  | nil =>
    rw [pending_nil]
    constructor
    · rintro ⟨⟩
    · rintro ⟨query, hmem, -⟩
      cases hmem
  | append_singleton queries query ih =>
    have hstores : ¬ (query.Stores ∧ query.gdpname = name) := by
      rintro ⟨hstores, hname⟩
      rw [storesOf_concat_of_stores hstores hname] at h
      exact List.append_ne_nil_of_right_ne_nil _ (List.cons_ne_nil _ _) h
    rw [storesOf_concat_of_not hstores] at h
    rw [after_concat, queried_concat, ← ih h]
    by_cases hquery : query.recordType = .query
    · rw [pending_query hquery, stored_after, h]
      by_cases hwait :
          query.gdpname = name ∧ query.sourceGdpname ∉ (after maps queries).pending name
      · rw [if_pos ⟨hwait.1, rfl, hwait.2⟩, List.mem_append, List.mem_singleton]
        simp [hquery, hwait.1, eq_comm]
      · rw [if_neg fun hcond => hwait ⟨hcond.1, hcond.2.2⟩]
        constructor
        · exact .inl
        · rintro (hmem | ⟨-, hname, rfl⟩)
          · exact hmem
          · by_contra hmem
            exact hwait ⟨hname, hmem⟩
    · have hpending : (localRibHandler (after maps queries) query).1.pending name =
          (after maps queries).pending name := by
        by_cases hinfo : query.recordType = .info
        · rw [pending_info hinfo, if_neg fun hname => hstores ⟨.inl hinfo, hname⟩]
        · exact pending_of_ne hquery hinfo name
      rw [hpending]
      simp [hquery]

/-- No UPDATE is the first record of a name that was asked for. -/
def FirstByInfo (queries : List GDPNameRecord) : Prop :=
  ∀ pre query post, queries = pre ++ query :: post → query.recordType = .update →
    storesOf pre query.gdpname = [] → ∀ source, ¬ Queried pre query.gdpname source

theorem FirstByInfo.of_concat (h : FirstByInfo (queries ++ [query])) : FirstByInfo queries := by
  rintro pre record post rfl
  exact h pre record (post ++ [query]) (by simp)

/-- Where INFO records come first, nobody waits for a name with a record. -/
theorem FirstByInfo.disjoint (h : FirstByInfo queries) (name : GDPName) :
    (after maps queries).stored name = [] ∨ (after maps queries).pending name = [] := by
  induction queries using List.reverseRecOn with
  | nil => exact .inr (pending_nil name)
  | append_singleton queries query ih =>
    have hbefore := ih h.of_concat
    rw [after_concat, stored_localRibHandler]
    by_cases hquery : query.recordType = .query
    · have hstores : ¬ (query.Stores ∧ query.gdpname = name) := by
        rintro ⟨hstores, -⟩
        simp [GDPNameRecord.Stores, hquery] at hstores
      rw [if_neg hstores, pending_query hquery]
      obtain hstored | hpending := hbefore
      · exact .inl hstored
      · by_cases hstored : (after maps queries).stored name = []
        · exact .inl hstored
        · rw [if_neg fun hcond => hstored hcond.2.1]
          exact .inr hpending
    · by_cases hinfo : query.recordType = .info
      · rw [pending_info hinfo]
        by_cases hname : query.gdpname = name
        · exact .inr (if_pos hname)
        · rw [if_neg hname, if_neg fun hstores => hname hstores.2]
          exact hbefore
      · rw [pending_of_ne hquery hinfo]
        by_cases hstores : query.Stores ∧ query.gdpname = name
        · obtain ⟨hstores, rfl⟩ := hstores
          obtain hpending | hne := Decidable.em ((after maps queries).pending query.gdpname = [])
          · exact .inr hpending
          · -- an UPDATE that finds someone waiting is the first record of its name
            have hstored : storesOf queries query.gdpname = [] := by
              rw [← stored_after]
              exact hbefore.resolve_right hne
            obtain ⟨source, hsource⟩ := List.exists_mem_of_ne_nil _ hne
            have hupdate : query.recordType = .update := hstores.resolve_left hinfo
            exact absurd ((mem_pending_iff hstored).1 hsource)
              (h queries query [] rfl hupdate hstored source)
        · rw [if_neg hstores]
          exact hbefore

/-! ## The answers to those that wait -/

/-- After every part of the run nobody waits for a name with a record, and nobody waits twice;
the first record of a name is sent once to each source that asked for it before. -/
structure PendingSound (maps : MultiMap GDPName) (queries : List GDPNameRecord) : Prop where
  disjoint : ∀ pre post name, queries = pre ++ post →
    (after maps pre).stored name = [] ∨ (after maps pre).pending name = []
  nodup : ∀ pre post name, queries = pre ++ post → ((after maps pre).pending name).Nodup
  answered : ∀ pre query post source, queries = pre ++ query :: post → query.Stores →
    storesOf pre query.gdpname = [] → Queried pre query.gdpname source →
      (localRibHandler (after maps pre) query).2.filter
        (fun answer => answer.sourceGdpname = source) = [response query source]

/-- Of the answers to distinct sources each source gets its own. -/
theorem filter_responses (query : GDPNameRecord) {sources : List GDPName} (hnodup : sources.Nodup)
    (hmem : source ∈ sources) :
    (sources.map fun waiting => response query waiting).filter
        (fun answer => answer.sourceGdpname = source) = [response query source] := by
  rw [List.filter_map]
  have hfilter : sources.filter ((fun answer => decide (answer.sourceGdpname = source)) ∘
      fun waiting => response query waiting) = sources.filter (· == source) :=
    List.filter_congr fun waiting _ => rfl
  rw [hfilter, List.filter_beq, List.count_eq_one_of_mem hnodup hmem]
  rfl

/-- **Main result.**  The waiting sources are kept and served as they should be if and only
if no UPDATE is the first record of a name that was asked for before. -/
theorem pendingSound_iff (maps : MultiMap GDPName) (queries : List GDPNameRecord) :
    PendingSound maps queries ↔ FirstByInfo queries := by
  constructor
  · intro h pre query post heq hupdate hfirst source hqueried
    have hanswer := h.answered pre query post source heq (.inr hupdate) hfirst hqueried
    rw [localRibHandler_update hupdate] at hanswer
    cases hanswer
  · intro h
    have hpre : ∀ pre post, queries = pre ++ post → FirstByInfo pre := by
      rintro pre post rfl before query after rfl
      exact h before query (after ++ post) (by simp)
    refine ⟨fun pre post name heq => (hpre pre post heq).disjoint name,
      fun pre post name _ => pending_nodup maps pre name, ?_⟩
    intro pre query post source heq hstores hfirst hqueried
    have hinfo : query.recordType = .info :=
      hstores.resolve_right fun hupdate => h pre query post heq hupdate hfirst source hqueried
    rw [localRibHandler_info hinfo, handleInfo_snd]
    exact filter_responses query (pending_nodup maps pre query.gdpname)
      ((mem_pending_iff hfirst).2 hqueried)

/-- QUERY and UPDATE of one name. -/
def updatedFirst : List GDPNameRecord :=
  [{ recordType := .query, gdpname := ⟨#v[0, 0, 0, 4]⟩, sourceGdpname := ⟨#v[0, 0, 0, 6]⟩,
     webrtcOffer := none, ipAddress := none, ros := none, indirect := none },
   { recordType := .update, gdpname := ⟨#v[0, 0, 0, 4]⟩, sourceGdpname := ⟨#v[0, 0, 0, 5]⟩,
     webrtcOffer := none, ipAddress := some "10.0.0.1", ros := none, indirect := none }]

/-- The source still waits, and the name has a record. -/
theorem updatedFirst_waits :
    ¬ PendingSound .lists updatedFirst ∧
      (after .lists updatedFirst).pending ⟨#v[0, 0, 0, 4]⟩ = [⟨#v[0, 0, 0, 6]⟩] ∧
        (Mealy.outputs localRibHandler (new : LocalRib .lists) updatedFirst).flatten.map
          GDPNameRecord.recordType = [.empty] := by
  refine ⟨fun h => ?_, by decide, by decide⟩
  exact absurd (h.disjoint updatedFirst [] ⟨#v[0, 0, 0, 4]⟩ (List.append_nil _).symm) (by decide)

end RtFogros.LocalRib
