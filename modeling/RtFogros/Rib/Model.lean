import RtFogros.Lib.Mealy
import RtFogros.Lib.MultiMap
import RtFogros.Packet.Structs
import Mathlib.Data.List.Induction

/-!
# The local RIB

The table of `rib.rs` and the loop of `local_rib_handler`.  A step of the handler takes one
record off `rib_query_rx`; its output are the records that it sends on `rib_response_tx`,
whose receiver lives as long as the handler.  The maps of the crate `multimap` are a parameter.

What the two arms of `put` do to the table is said once (`stored_localRibHandler`), and so is
what the handler sends for a QUERY and an INFO record (`handleQuery_of_stored`,
`handleQuery_of_not_stored`, `handleInfo_snd`).  Over a run a name holds all its INFO and UPDATE
records, in their order (`stored_after`).
-/

namespace RtFogros

/-! ## The table -/

structure RoutingInformationBase (maps : MultiMap GDPName) where
  routingTable : maps.Map GDPNameRecord

variable {maps : MultiMap GDPName}

namespace RoutingInformationBase

def new : RoutingInformationBase maps := ⟨maps.new⟩

def put (rib : RoutingInformationBase maps) (key : GDPName) (value : GDPNameRecord) :
    RoutingInformationBase maps :=
  { rib with routingTable := maps.insert rib.routingTable key value }

def get (rib : RoutingInformationBase maps) (key : GDPName) : Option (List GDPNameRecord) :=
  maps.getVec rib.routingTable key

end RoutingInformationBase

/-! ## The handler -/

structure LocalRib (maps : MultiMap GDPName) where
  ribStore : RoutingInformationBase maps
  pendingRoutingRecords : maps.Map GDPName

namespace LocalRib

def new : LocalRib maps := ⟨.new, maps.new⟩

/-- What is sent to `sourceGdpname` about `record`. -/
def response (record : GDPNameRecord) (sourceGdpname : GDPName) : GDPNameRecord :=
  { recordType := .info, gdpname := record.gdpname, sourceGdpname,
    webrtcOffer := record.webrtcOffer, ipAddress := record.ipAddress,
    indirect := record.indirect, ros := record.ros }

/-- What is sent to the source of a query for a name with no record. -/
def notFound (query : GDPNameRecord) : GDPNameRecord :=
  { recordType := .empty, gdpname := query.gdpname, sourceGdpname := query.sourceGdpname,
    webrtcOffer := none, ipAddress := none, indirect := none, ros := none }

def handleQuery (rib : LocalRib maps) (query : GDPNameRecord) :
    LocalRib maps × List GDPNameRecord :=
  match rib.ribStore.get query.gdpname with
  | some records => (rib, records.map fun record => response record query.sourceGdpname)
  | none =>
    let records := maps.getVec rib.pendingRoutingRecords query.gdpname
    if records.any fun sources => decide (query.sourceGdpname ∈ sources) then (rib, [])
    else
      ({ rib with
          pendingRoutingRecords :=
            maps.insert rib.pendingRoutingRecords query.gdpname query.sourceGdpname },
        [notFound query])

def handleUpdate (rib : LocalRib maps) (query : GDPNameRecord) :
    LocalRib maps × List GDPNameRecord :=
  ({ rib with ribStore := rib.ribStore.put query.gdpname query }, [])

def handleInfo (rib : LocalRib maps) (query : GDPNameRecord) : LocalRib maps × List GDPNameRecord :=
  ({ ribStore := rib.ribStore.put query.gdpname query,
     pendingRoutingRecords := maps.remove rib.pendingRoutingRecords query.gdpname },
    match maps.getVec rib.pendingRoutingRecords query.gdpname with
    | some sources => sources.map fun source => response query source
    | none => [])

/-- The loop of `local_rib_handler`: the arms for `EMPTY` and for the remaining types only
warn. -/
def localRibHandler (rib : LocalRib maps) (query : GDPNameRecord) :
    LocalRib maps × List GDPNameRecord :=
  match query.recordType with
  | .empty => (rib, [])
  | .query => handleQuery rib query
  | .update => handleUpdate rib query
  | .info => handleInfo rib query
  | .merge => (rib, [])
  | .delete => (rib, [])

/-- The records stored under a name. -/
def stored (rib : LocalRib maps) (name : GDPName) : List GDPNameRecord :=
  maps.vec rib.ribStore.routingTable name

/-- The sources that wait for a record of a name. -/
def pending (rib : LocalRib maps) (name : GDPName) : List GDPName :=
  maps.vec rib.pendingRoutingRecords name

/-- The handler after a run from its start. -/
def after (maps : MultiMap GDPName) (queries : List GDPNameRecord) : LocalRib maps :=
  Mealy.final localRibHandler new queries

end LocalRib

/-! ## Kinds of records -/

namespace GDPNameRecord

/-- The handler stores the record. -/
def Stores (record : GDPNameRecord) : Prop :=
  record.recordType = .info ∨ record.recordType = .update

instance (record : GDPNameRecord) : Decidable (Stores record) :=
  inferInstanceAs (Decidable (_ ∨ _))

end GDPNameRecord

namespace LocalRib

/-- The records of a run that the handler stores under a name. -/
def storesOf (queries : List GDPNameRecord) (name : GDPName) : List GDPNameRecord :=
  queries.filter fun record => record.Stores ∧ record.gdpname = name

variable {rib : LocalRib maps} {query : GDPNameRecord} {queries : List GDPNameRecord}
  {name : GDPName}

theorem storesOf_append (queries queries' : List GDPNameRecord) (name : GDPName) :
    storesOf (queries ++ queries') name = storesOf queries name ++ storesOf queries' name :=
  List.filter_append ..

theorem storesOf_concat_of_stores (h : query.Stores) (hname : query.gdpname = name) :
    storesOf (queries ++ [query]) name = storesOf queries name ++ [query] := by
  rw [storesOf_append]
  simp [storesOf, h, hname]

theorem storesOf_concat_of_not (h : ¬ (query.Stores ∧ query.gdpname = name)) :
    storesOf (queries ++ [query]) name = storesOf queries name := by
  rw [storesOf_append]
  simp only [storesOf, List.filter_cons, List.filter_nil, h, decide_false, List.append_nil,
    Bool.false_eq_true, if_false]

theorem after_concat (queries : List GDPNameRecord) (query : GDPNameRecord) :
    after maps (queries ++ [query]) = (localRibHandler (after maps queries) query).1 :=
  Mealy.final_append localRibHandler new queries [query]

/-! ## The arms -/

theorem localRibHandler_query (h : query.recordType = .query) :
    localRibHandler rib query = handleQuery rib query := by
  rw [localRibHandler, h]

theorem localRibHandler_update (h : query.recordType = .update) :
    localRibHandler rib query = handleUpdate rib query := by
  rw [localRibHandler, h]

theorem localRibHandler_info (h : query.recordType = .info) :
    localRibHandler rib query = handleInfo rib query := by
  rw [localRibHandler, h]

/-- A query for a stored name changes nothing. -/
theorem handleQuery_of_stored (h : rib.stored query.gdpname ≠ []) :
    handleQuery rib query =
      (rib, (rib.stored query.gdpname).map fun record => response record query.sourceGdpname) := by
  have hget : rib.ribStore.get query.gdpname = some (rib.stored query.gdpname) :=
    MultiMap.getVec_eq_some_iff.2 ⟨rfl, h⟩
  rw [handleQuery, hget]

/-- A query for a name that is not stored waits, unless its source waits already. -/
theorem handleQuery_of_not_stored (h : rib.stored query.gdpname = []) :
    handleQuery rib query =
      if query.sourceGdpname ∈ rib.pending query.gdpname then (rib, [])
      else
        ({ rib with
            pendingRoutingRecords :=
              maps.insert rib.pendingRoutingRecords query.gdpname query.sourceGdpname },
          [notFound query]) := by
  have hget : rib.ribStore.get query.gdpname = none := MultiMap.getVec_eq_none_iff.2 h
  have hmem : (maps.getVec rib.pendingRoutingRecords query.gdpname).any
        (fun sources => decide (query.sourceGdpname ∈ sources)) =
      decide (query.sourceGdpname ∈ rib.pending query.gdpname) := by
    unfold pending MultiMap.vec
    cases maps.getVec rib.pendingRoutingRecords query.gdpname with
    | none => rfl
    | some sources => rfl
  rw [handleQuery, hget]
  dsimp only
  rw [hmem]
  simp only [decide_eq_true_eq]

/-- The answers of an INFO record are those to the sources that wait for it. -/
theorem handleInfo_snd (rib : LocalRib maps) (query : GDPNameRecord) :
    (handleInfo rib query).2 =
      (rib.pending query.gdpname).map fun source => response query source := by
  unfold handleInfo pending MultiMap.vec
  cases maps.getVec rib.pendingRoutingRecords query.gdpname with
  | none => rfl
  | some sources => rfl

/-! ## What is stored -/

/-- A step stores the record under its name if its type says so, and nothing else. -/
theorem stored_localRibHandler (rib : LocalRib maps) (query : GDPNameRecord) (name : GDPName) :
    (localRibHandler rib query).1.stored name =
      if query.Stores ∧ query.gdpname = name then rib.stored name ++ [query]
      else rib.stored name := by
  have hput : maps.vec (rib.ribStore.put query.gdpname query).routingTable name =
      if query.gdpname = name then rib.stored name ++ [query] else rib.stored name := by
    split
    · next hname => subst hname; exact MultiMap.vec_insert_self ..
    · next hname => exact MultiMap.vec_insert_of_ne _ (Ne.symm hname) _
  unfold localRibHandler
  cases htype : query.recordType with
  | empty => simp [GDPNameRecord.Stores, htype]
  | merge => simp [GDPNameRecord.Stores, htype]
  | delete => simp [GDPNameRecord.Stores, htype]
  | info => simpa [GDPNameRecord.Stores, htype, handleInfo, stored] using hput
  | update => simpa [GDPNameRecord.Stores, htype, handleUpdate, stored] using hput
  | query =>
    have hstore : (handleQuery rib query).1.ribStore = rib.ribStore := by
      unfold handleQuery
      split
      · rfl
      · dsimp only
        split <;> rfl
    simp [GDPNameRecord.Stores, htype, stored, hstore]

/-- A name holds all records that a run stores under it, in their order. -/
theorem stored_after (queries : List GDPNameRecord) (name : GDPName) :
    (after maps queries).stored name = storesOf queries name := by
  induction queries using List.reverseRecOn with
  | nil => exact MultiMap.vec_new name
  | append_singleton queries query ih =>
    rw [after_concat, stored_localRibHandler, ih]
    by_cases h : query.Stores ∧ query.gdpname = name
    · rw [if_pos h, storesOf_concat_of_stores h.1 h.2]
    · rw [if_neg h, storesOf_concat_of_not h]

end LocalRib

end RtFogros
