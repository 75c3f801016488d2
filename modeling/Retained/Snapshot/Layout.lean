import Retained.Heap.Basic
import Retained.Snapshot.Error
import Retained.Snapshot.File
import Retained.Snapshot.Search

/-!
# Laying out the objects of a snapshot

The objects of a snapshot get places in a heap, each after the objects it refers to. A depth-first
search enters the identifiers in ascending order; entering an object lists the targets of its fields
that have no place yet, and the object gets its place when it comes up again after them. So each
identifier gets one place, however many fields refer to it.

Three things are refused: an identifier given twice, a reference to an identifier that no object
has, and a reference to an object that the search is still below.
-/

namespace Retained.Snapshot

/-- Objects by identifier. -/
abbrev ObjectTable := Std.ExtTreeMap UInt64 (HeapObject UInt64) compare

/-- The objects of a snapshot by identifier, each of which has to be new. -/
def tabulate (records : List ObjectRecord) : Except Refusal ObjectTable :=
  records.foldlM
    (fun table record =>
      if table.contains record.id then .error (.duplicateObject record.id)
      else .ok (table.insert record.id record.object))
    ∅

/-- Objects laid out so far. -/
structure Layout where
  /-- The objects that have places. -/
  draft : Heap.Draft
  /-- How far the search is with the identifiers; those it is done with have places. -/
  visits : Std.ExtTreeMap UInt64 (Visit Nat) compare
  /-- A place given to an identifier is one of the draft. -/
  placed : ∀ (id : UInt64) (place : Nat), visits[id]? = some (Visit.done place) →
    place < draft.count

namespace Layout

/-- Nothing laid out yet. -/
def empty : Layout where
  draft := .empty
  visits := ∅
  placed id place given := by simp at given

/-- Whether the search is still below an object. -/
def isBelow (layout : Layout) (id : UInt64) : Bool :=
  layout.visits[id]? == some .entered

/-- Whether an object has its place. -/
def isPlaced (layout : Layout) (id : UInt64) : Bool :=
  layout.visits.contains id && !layout.isBelow id

/-- The place of an identifier, which has to have one. -/
def place (layout : Layout) (id : UInt64) : Except Refusal (Fin layout.draft.count) :=
  match given : layout.visits[id]? with
  | some (.done place) => .ok ⟨place, layout.placed id place given⟩
  | _ => .error (.unknownObject id)

/-- The search enters an object. -/
def enter (layout : Layout) (id : UInt64) : Layout where
  draft := layout.draft
  visits := layout.visits.insert id .entered
  placed other place given := by
    rw [Std.ExtTreeMap.getElem?_insert] at given
    split at given
    · simp at given
    · exact layout.placed other place given

/-- An object gets the next place. -/
def add (layout : Layout) (id : UInt64) (object : HeapObject (Fin layout.draft.count)) :
    Layout where
  draft := layout.draft.push object
  visits := layout.visits.insert id (.done layout.draft.count)
  placed other place given := by
    rw [Std.ExtTreeMap.getElem?_insert] at given
    rw [Heap.Draft.count_push]
    split at given
    · cases given
      exact Nat.lt_succ_self _
    · exact Nat.lt_succ_of_lt (layout.placed other place given)

end Layout

/-- What the search does next. -/
inductive Task where
  /-- Enter an object. -/
  | enter (id : UInt64)
  /-- Give an object its place, now that the objects it refers to have theirs. -/
  | finish (id : UInt64)
deriving DecidableEq, Repr

/-- The tasks of an object that the search enters: the targets without a place, the last one first,
and then the object itself. -/
def Layout.tasks (layout : Layout) (id : UInt64) (object : HeapObject UInt64) : List Task :=
  ((object.targets.filter fun target => !layout.isPlaced target).map Task.enter).reverse ++
    [.finish id]

/-- The layout after all tasks. -/
def layOut (table : ObjectTable) (tasks : List Task) (layout : Layout) :
    Except Refusal Layout :=
  match tasks with
  | [] => .ok layout
  | .enter id :: tasks =>
    match _met : layout.visits[id]? with
    | some (.done _) => layOut table tasks layout
    | some .entered => .error (.objectCycle id)
    | none =>
      match _listed : table[id]? with
      | none => .error (.unknownObject id)
      | some object =>
        let entered := layout.enter id
        match object.targets.find? entered.isBelow with
        | some target => .error (.objectCycle target)
        | none => layOut table (entered.tasks id object ++ tasks) entered
  | .finish id :: tasks =>
    match table[id]? with
    | none => .error (.unknownObject id)
    | some object =>
      match object.mapM layout.place with
      | .error refusal => .error refusal
      | .ok placed => layOut table tasks (layout.add id placed)
termination_by (pending table.keys layout.visits, tasks.length)
decreasing_by
  · exact Prod.Lex.right _ (Nat.lt_succ_self _)
  · refine Prod.Lex.left _ _ (pending_insert_lt ?_ ?_ _)
    · rw [Std.ExtTreeMap.mem_keys, Std.ExtTreeMap.mem_iff_isSome_getElem?, _listed]
      rfl
    · rw [Std.ExtTreeMap.contains_eq_isSome_getElem?, _met]
      rfl
  · exact lex_of_le (pending_insert_le _ _ _ _) (Nat.lt_succ_self _)

/-- The layout of the objects of a snapshot. -/
def Layout.ofRecords (records : List ObjectRecord) : Except Refusal Layout := do
  let table ← tabulate records
  layOut table (table.keys.map .enter) .empty

end Retained.Snapshot
