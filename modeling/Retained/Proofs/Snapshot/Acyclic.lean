import Retained.Proofs.Snapshot.Defect
import Retained.Proofs.Snapshot.Table

/-!
# What the search for dependency cycles accepts and refuses

The search keeps the path of the nodes that it is below, the nearest first, each with the
dependencies that it has still to look at. Every node of the path is a dependency of the next one,
so meeting a node of the path again closes a cycle (`Trail.leads`). What a node of the path has
looked at already is accessible: every chain of dependencies from it ends. The one exception is the
dependency that the path has come from, and that one is accessible as soon as the search is done
with it (`Trail.done`).
-/

namespace Retained.Snapshot

open Relation

variable {file : File} {table : DepTable} {visits : NodeVisits} {key dep : NodeKey}
variable {path : List (NodeKey × List NodeKey)}

namespace DepTable

/-- A table lists a dependency of a node. -/
def Depends (table : DepTable) (key dep : NodeKey) : Prop :=
  ∃ deps, table[key]? = some deps ∧ dep ∈ deps

/-- Every chain of dependencies from a node ends. -/
def Ends (table : DepTable) (key : NodeKey) : Prop :=
  Acc (fun dep key => table.Depends key dep) key

/-- A node that the table does not list depends on nothing. -/
theorem ends_of_unlisted (unlisted : table[key]? = none) : table.Ends key := by
  refine Acc.intro key ?_
  intro dep depends
  obtain ⟨deps, listed, _⟩ := depends
  rw [unlisted] at listed
  cases listed

/-- A table lists the dependencies of some records by their keys. -/
def Lists (table : DepTable) (records : List NodeRecord) : Prop :=
  Tabulates NodeRecord.key NodeRecord.deps records table

/-- The dependencies that the table of a file's nodes lists are those of the file. -/
theorem Lists.depends_eq (lists : table.Lists file.nodes) : table.Depends = file.Depends := by
  funext key dep
  refine propext ⟨?_, ?_⟩
  · intro depends
    obtain ⟨deps, listed, member⟩ := depends
    obtain ⟨record, among, same, rfl⟩ := (lists key deps).mp listed
    exact ⟨record, among, same, member⟩
  · intro depends
    obtain ⟨record, among, same, member⟩ := depends
    exact ⟨record.deps, (lists key record.deps).mpr ⟨record, among, same, rfl⟩, member⟩

end DepTable

/-- The table of nodes with distinct keys lists their dependencies. -/
theorem depTable_lists {records : List NodeRecord} (distinct : (records.map NodeRecord.key).Nodup) :
    DepTable.Lists (depTable records) records :=
  tabulates_foldl distinct

/-! ## Paths -/

/-- How the path leads from the dependency that the search has come from, if there is one: each node
depends on the one before it and on what it has still to look at, and every chain of dependencies
ends below the others. -/
inductive Trail (table : DepTable) : Option NodeKey → List (NodeKey × List NodeKey) → Prop where
  /-- The path is over. -/
  | nil {above : Option NodeKey} : Trail table above []
  /-- One node further. -/
  | cons {above : Option NodeKey} {key : NodeKey} {left : List NodeKey}
      {path : List (NodeKey × List NodeKey)}
      (from' : ∀ dep ∈ above, table.Depends key dep) (towards : ∀ dep ∈ left, table.Depends key dep)
      (seen : ∀ dep, table.Depends key dep → dep ∈ left ∨ table.Ends dep ∨ dep ∈ above)
      (trail : Trail table (some key) path) : Trail table above ((key, left) :: path)

namespace Trail

variable {above : Option NodeKey} {deps left : List NodeKey}

/-- Every node of the path leads to where the search has come from. -/
theorem leads {below : NodeKey} (trail : Trail table above path)
    (member : below ∈ path.map Prod.fst) : ∀ dep ∈ above, TransGen table.Depends below dep := by
  induction trail with
  | nil => cases member
  | cons from' towards seen trail further =>
    intro dep isAbove
    rcases List.mem_cons.mp member with same | deeper
    · rw [same]
      exact .single (from' dep isAbove)
    · exact (further deeper _ rfl).tail (from' dep isAbove)

/-- When the chains of the dependency that the search has come from end, the path stands by
itself. -/
theorem done (trail : Trail table (some dep) path) (ends : table.Ends dep) :
    Trail table none path := by
  cases trail with
  | nil => exact .nil
  | cons from' towards seen trail =>
    refine .cons nofun towards ?_ trail
    intro other depends
    rcases seen other depends with ahead | ended | isAbove
    · exact Or.inl ahead
    · exact Or.inr (Or.inl ended)
    · cases isAbove
      exact Or.inr (Or.inl ends)

/-- A node with nothing left to look at has only chains that end. -/
theorem leave (trail : Trail table none ((key, []) :: path)) :
    table.Ends key ∧ Trail table none path := by
  cases trail with
  | cons from' towards seen trail =>
    have ends : table.Ends key := by
      refine Acc.intro key ?_
      intro dep depends
      rcases seen dep depends with ahead | ended | isAbove
      · cases ahead
      · exact ended
      · cases isAbove
    exact ⟨ends, trail.done ends⟩

/-- A dependency whose chains end is looked at and passed. -/
theorem pass (trail : Trail table none ((key, dep :: left) :: path)) (ends : table.Ends dep) :
    Trail table none ((key, left) :: path) := by
  cases trail with
  | cons from' towards seen trail =>
    refine .cons nofun (fun other ahead => towards other (List.mem_cons_of_mem dep ahead)) ?_ trail
    intro other depends
    rcases seen other depends with ahead | rest
    · rcases List.mem_cons.mp ahead with same | further
      · rw [same]
        exact Or.inr (Or.inl ends)
      · exact Or.inl further
    · exact Or.inr rest

/-- A dependency is entered, with its own dependencies ahead. -/
theorem enter (trail : Trail table none ((key, dep :: left) :: path))
    (listed : table[dep]? = some deps) :
    Trail table none ((dep, deps) :: (key, left) :: path) := by
  cases trail with
  | cons from' towards seen trail =>
    refine .cons nofun (fun other ahead => ⟨deps, listed, ahead⟩) ?_ (.cons ?_ ?_ ?_ trail)
    · intro other depends
      obtain ⟨again, held, member⟩ := depends
      rw [listed] at held
      cases held
      exact Or.inl member
    · intro other isAbove
      cases isAbove
      exact towards dep List.mem_cons_self
    · exact fun other ahead => towards other (List.mem_cons_of_mem dep ahead)
    · intro other depends
      rcases seen other depends with ahead | ended | isAbove
      · rcases List.mem_cons.mp ahead with same | further
        · rw [same]
          exact Or.inr (Or.inr rfl)
        · exact Or.inl further
      · exact Or.inr (Or.inl ended)
      · cases isAbove

/-- A dependency looked at is one of the node. -/
theorem depends (trail : Trail table none ((key, dep :: left) :: path)) :
    table.Depends key dep := by
  cases trail with
  | cons from' towards seen trail => exact towards dep List.mem_cons_self

end Trail

/-! ## The search -/

/-- How far the search is with a path left. -/
structure Underway (table : DepTable) (path : List (NodeKey × List NodeKey)) (visits : NodeVisits) :
    Prop where
  /-- What the search is below is on the path. -/
  below : ∀ key, visits[key]? = some .entered → key ∈ path.map Prod.fst
  /-- The path leads to where the search is. -/
  trail : Trail table none path
  /-- Below what the search is done with, every chain of dependencies ends. -/
  ended : ∀ key, visits[key]? = some (.done ()) → table.Ends key

/-- What the visits say of a node after another one was visited. -/
theorem getElem?_visit (visits : NodeVisits) (key other : NodeKey) (visit : Visit Unit) :
    (visits.insert key visit)[other]? = if key = other then some visit else visits[other]? := by
  rw [Std.ExtTreeMap.getElem?_insert]
  exact if_congr Std.compare_eq_iff_eq rfl rfl

namespace Underway

variable {deps left : List NodeKey}

/-- The search is done with a node that has nothing left to look at. -/
theorem leave (underway : Underway table ((key, []) :: path) visits) :
    Underway table path (visits.insert key (.done ())) := by
  obtain ⟨ends, trail⟩ := underway.trail.leave
  constructor
  case below =>
    intro other isBelow
    rw [getElem?_visit] at isBelow
    by_cases same : key = other
    · rw [if_pos same] at isBelow
      cases isBelow
    · rw [if_neg same] at isBelow
      rcases List.mem_cons.mp (underway.below other isBelow) with equal | deeper
      · exact absurd equal.symm same
      · exact deeper
  case trail => exact trail
  case ended =>
    intro other isDone
    rw [getElem?_visit] at isDone
    by_cases same : key = other
    · rw [← same]
      exact ends
    · rw [if_neg same] at isDone
      exact underway.ended other isDone

/-- The search enters a node above a path that leads to it. -/
theorem enter (below : ∀ key, visits[key]? = some .entered → key ∈ path.map Prod.fst)
    (trail : Trail table none ((key, deps) :: path))
    (ended : ∀ key, visits[key]? = some (.done ()) → table.Ends key) :
    Underway table ((key, deps) :: path) (visits.insert key .entered) := by
  constructor
  case below =>
    intro other isBelow
    rw [getElem?_visit] at isBelow
    by_cases same : key = other
    · rw [← same]
      exact List.mem_cons_self
    · rw [if_neg same] at isBelow
      exact List.mem_cons_of_mem key (below other isBelow)
  case trail => exact trail
  case ended =>
    intro other isDone
    rw [getElem?_visit] at isDone
    by_cases same : key = other
    · rw [if_pos same] at isDone
      cases isDone
    · rw [if_neg same] at isDone
      exact ended other isDone

/-- A dependency whose chains end is passed. -/
theorem pass (underway : Underway table ((key, dep :: left) :: path) visits)
    (ends : table.Ends dep) : Underway table ((key, left) :: path) visits :=
  ⟨underway.below, underway.trail.pass ends, underway.ended⟩

/-- Meeting a node of the path closes a cycle through it. -/
theorem cyclic (underway : Underway table ((key, dep :: left) :: path) visits)
    (met : visits[dep]? = some .entered) : TransGen table.Depends dep dep := by
  have depends := underway.trail.depends
  have trail := underway.trail
  -- Either the node depends on itself, or the path leads from the dependency back to the node.
  rcases List.mem_cons.mp (underway.below dep met) with same | deeper
  · rw [same] at depends ⊢
    exact .single depends
  · cases trail with
    | cons from' towards seen trail => exact (trail.leads deeper key rfl).tail depends

/-- With no path left, the search is done with whatever it has met. -/
theorem ends_of_mem (underway : Underway table [] visits) (known : key ∈ visits) :
    table.Ends key := by
  rw [Std.ExtTreeMap.mem_iff_isSome_getElem?, Option.isSome_iff_exists] at known
  obtain ⟨visit, met⟩ := known
  cases visit with
  | entered => cases underway.below key met
  | done => exact underway.ended key met

end Underway

/-- The search refuses only a node on a cycle of dependencies. Otherwise no path is left in the end,
and nothing met is forgotten. -/
theorem searchBelow_meets (underway : Underway table path visits) :
    Meets (fun refusal => ∃ key, refusal = .dependencyCycle key ∧ TransGen table.Depends key key)
      (fun last => Underway table [] last ∧ ∀ key, key ∈ visits → key ∈ last)
      (searchBelow table path visits) := by
  fun_induction searchBelow table path visits with
  | case1 visits => exact ⟨underway, fun _ known => known⟩
  | case2 visits key path further =>
    refine (further underway.leave).imp (fun _ defect => defect) ?_
    intro last searched
    refine ⟨searched.1, fun other known => searched.2 other ?_⟩
    exact Std.ExtTreeMap.mem_insert.mpr (Or.inr known)
  | case3 visits key dep left path met => exact ⟨dep, rfl, underway.cyclic met⟩
  | case4 visits key dep left path _ met further =>
    exact further (underway.pass (underway.ended dep met))
  | case5 visits key dep left path met unlisted further =>
    exact further (underway.pass (DepTable.ends_of_unlisted unlisted))
  | case6 visits key dep left path met deps listed further =>
    have below : ∀ other, visits[other]? = some .entered →
        other ∈ ((key, left) :: path).map Prod.fst := underway.below
    have entered := Underway.enter below (underway.trail.enter listed) underway.ended
    refine (further entered).imp (fun _ defect => defect) ?_
    intro last searched
    refine ⟨searched.1, fun other known => searched.2 other ?_⟩
    exact Std.ExtTreeMap.mem_insert.mpr (Or.inr known)

/-- The search below a node of the file refuses only dependency cycles. Otherwise it has met the
node and forgets nothing. -/
theorem searchFrom_meets (lists : table.Lists file.nodes) {record : NodeRecord}
    (among : record ∈ file.nodes) (underway : Underway table [] visits) :
    Meets file.Defect
      (fun last => Underway table [] last ∧ record.key ∈ last ∧ ∀ key, key ∈ visits → key ∈ last)
      (searchBelow table [(record.key, record.deps)] (visits.insert record.key .entered)) := by
  have listed : table[record.key]? = some record.deps :=
    (lists record.key record.deps).mpr ⟨record, among, rfl, rfl⟩
  have trail : Trail table none [(record.key, record.deps)] := by
    refine .cons nofun (fun dep ahead => ⟨record.deps, listed, ahead⟩) ?_ .nil
    intro dep depends
    obtain ⟨deps, again, member⟩ := depends
    rw [listed] at again
    cases again
    exact Or.inl member
  refine (searchBelow_meets (Underway.enter underway.below trail underway.ended)).imp ?_ ?_
  · intro refusal defect
    obtain ⟨key, rfl, cycle⟩ := defect
    rw [lists.depends_eq] at cycle
    exact cycle
  · intro last searched
    obtain ⟨left, kept⟩ := searched
    refine ⟨left, kept record.key Std.ExtTreeMap.mem_insert_self, ?_⟩
    intro key old
    exact kept key (Std.ExtTreeMap.mem_insert.mpr (Or.inr old))

/-- The check refuses only dependency cycles of the file, and passes it if there are none. -/
theorem checkAcyclic_meets (distinct : (file.nodes.map NodeRecord.key).Nodup) :
    Meets file.Defect (fun _ => ∀ key, ¬ TransGen file.Depends key key)
      (checkAcyclic file.nodes) := by
  have lists : DepTable.Lists (depTable file.nodes) file.nodes := depTable_lists distinct
  unfold checkAcyclic
  refine (foldlM_meets (fun (seen : List NodeRecord) (visits : NodeVisits) =>
    Underway (depTable file.nodes) [] visits ∧ ∀ record ∈ seen, record.key ∈ visits)
    ⟨⟨by simp, .nil, by simp⟩, by simp⟩ ?_).bind ?_
  · intro seen record rest visits split held
    obtain ⟨underway, visited⟩ := held
    have grown : ∀ more : NodeVisits, (∀ key, key ∈ visits → key ∈ more) → record.key ∈ more →
        ∀ other ∈ seen ++ [record], other.key ∈ more := by
      intro more kept own other member
      rcases List.mem_append.mp member with old | new
      · exact kept _ (visited other old)
      · rw [List.mem_singleton.mp new]
        exact own
    by_cases known : visits.contains record.key = true
    · rw [if_pos known]
      exact ⟨underway, grown visits (fun _ same => same)
        (Std.ExtTreeMap.mem_iff_contains.mpr known)⟩
    · rw [if_neg known]
      have among : record ∈ file.nodes := by
        rw [split]
        exact List.mem_append_right _ List.mem_cons_self
      refine (searchFrom_meets lists among underway).imp (fun _ defect => defect) ?_
      intro last searched
      obtain ⟨left, own, kept⟩ := searched
      exact ⟨left, grown last kept own⟩
  · intro visits found
    obtain ⟨underway, visited⟩ := found
    intro key cycle
    obtain ⟨dep, first, _⟩ := TransGen.head'_iff.mp cycle
    obtain ⟨record, among, same, _⟩ := first
    have ends := underway.ends_of_mem (visited record among)
    rw [same] at ends
    rw [← lists.depends_eq] at cycle
    exact not_transGen_of_acc ends cycle

end Retained.Snapshot
