import Retained.Snapshot.Error
import Retained.Snapshot.File
import Retained.Snapshot.Search

/-!
# Dependency cycles

The dependencies of a snapshot's nodes are searched depth first, node by node and dependency by
dependency in the order of the file. Meeting a node that the search is still below is a cycle
through that node. Nodes without a record of their own depend on nothing.
-/

namespace Retained.Snapshot

/-- The dependencies of nodes. -/
abbrev DepTable := Std.ExtTreeMap NodeKey (List NodeKey) compare

/-- How far a search is with nodes. -/
abbrev NodeVisits := Std.ExtTreeMap NodeKey (Visit Unit) compare

/-- The dependencies of the nodes that have records. -/
def depTable (records : List NodeRecord) : DepTable :=
  records.foldl (fun table record => table.insert record.key record.deps) ∅

/-- The dependencies still to look at, with the nodes they lead back to. -/
def leftToSee (path : List (NodeKey × List NodeKey)) : Nat :=
  (path.map fun (_, left) => left.length + 1).foldr (· + ·) 0

/-- The visits after everything below a path is searched. The path holds the nodes that the search
is below, the nearest first, each with its dependencies still to look at. -/
def searchBelow (table : DepTable) (path : List (NodeKey × List NodeKey)) (visits : NodeVisits) :
    Except Refusal NodeVisits :=
  match path with
  | [] => .ok visits
  | (key, []) :: path => searchBelow table path (visits.insert key (.done ()))
  | (key, dep :: left) :: path =>
    match _met : visits[dep]? with
    | some .entered => .error (.dependencyCycle dep)
    | some (.done _) => searchBelow table ((key, left) :: path) visits
    | none =>
      match _listed : table[dep]? with
      | none => searchBelow table ((key, left) :: path) visits
      | some deps =>
        searchBelow table ((dep, deps) :: (key, left) :: path) (visits.insert dep .entered)
termination_by (pending table.keys visits, leftToSee path)
decreasing_by
  · exact lex_of_le (pending_insert_le _ _ _ _) (by simp [leftToSee])
  · exact Prod.Lex.right _ (by simp [leftToSee])
  · exact Prod.Lex.right _ (by simp [leftToSee])
  · refine Prod.Lex.left _ _ (pending_insert_lt ?_ ?_ _)
    · rw [Std.ExtTreeMap.mem_keys, Std.ExtTreeMap.mem_iff_isSome_getElem?, _listed]
      rfl
    · rw [Std.ExtTreeMap.contains_eq_isSome_getElem?, _met]
      rfl

/-- Refuses dependency cycles. -/
def checkAcyclic (records : List NodeRecord) : Except Refusal Unit := do
  let table := depTable records
  let _ ← records.foldlM
    (fun visits record =>
      if visits.contains record.key then .ok visits
      else searchBelow table [(record.key, record.deps)] (visits.insert record.key .entered))
    (∅ : NodeVisits)

end Retained.Snapshot
