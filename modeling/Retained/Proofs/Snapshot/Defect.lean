import Mathlib.Data.List.Nodup
import Mathlib.Logic.Relation
import Retained.Proofs.Checks
import Retained.Snapshot.Load

/-!
# Well-formed snapshots and defects

A snapshot is well-formed if its identifiers and keys are distinct, everything named in it is
defined, and neither its objects nor its nodes form a cycle. `File.Defect` says what each refusal
accuses a snapshot of; a snapshot with a defect is not well-formed.
-/

namespace Retained.Snapshot

open Relation

/-! ## What a file says -/

namespace File

/-- The identifiers of the objects. -/
def ids (file : File) : List UInt64 :=
  file.objects.map ObjectRecord.id

/-- The keys of the configurations and of the nodes. -/
def keys (file : File) : List NodeKey :=
  file.configurations.map (fun record => .buildConfiguration record.key) ++
    file.nodes.map NodeRecord.key

/-- A field of the object under an identifier refers to another identifier. -/
def Refers (file : File) (id target : UInt64) : Prop :=
  ∃ record ∈ file.objects, record.id = id ∧ target ∈ record.object.targets

/-- Something in the file refers to an identifier: a field, the value of a configuration or of a
node, or the builtins. -/
def Mentions (file : File) (id : UInt64) : Prop :=
  (∃ other, file.Refers other id) ∨ (∃ record ∈ file.configurations, record.value = id) ∨
    (∃ record ∈ file.nodes, record.value = id) ∨ file.builtins = some id

/-- The record of a node lists a dependency. -/
def Depends (file : File) (key dep : NodeKey) : Prop :=
  ∃ record ∈ file.nodes, record.key = key ∧ dep ∈ record.deps

/-- A snapshot that can be loaded. -/
structure WellFormed (file : File) : Prop where
  /-- No two objects have the same identifier. -/
  distinct : file.ids.Nodup
  /-- Every identifier that is referred to is that of an object. -/
  known : ∀ id, file.Mentions id → id ∈ file.ids
  /-- No object reaches itself through fields. -/
  grounded : ∀ id, ¬ TransGen file.Refers id id
  /-- No key is defined twice, be it of a configuration or of a node. -/
  single : file.keys.Nodup
  /-- Every dependency is defined. -/
  defined : ∀ key dep, file.Depends key dep → dep ∈ file.keys
  /-- No node depends on itself, directly or through others. -/
  acyclic : ∀ key, ¬ TransGen file.Depends key key
  /-- The target configuration is defined. -/
  realized : ∀ checksum, file.targetConfiguration = some checksum →
    .buildConfiguration { checksum } ∈ file.keys

/-- What a refusal accuses a snapshot of. -/
def Defect (file : File) : Refusal → Prop
  | .malformed => False
  | .duplicateObject id => 2 ≤ file.ids.count id
  | .unknownObject id => file.Mentions id ∧ id ∉ file.ids
  | .objectCycle id => TransGen file.Refers id id
  | .duplicateNode key => 2 ≤ file.keys.count key
  | .unknownDependency key dep => file.Depends key dep ∧ dep ∉ file.keys
  | .dependencyCycle key => TransGen file.Depends key key
  | .unknownConfiguration checksum =>
    file.targetConfiguration = some checksum ∧ .buildConfiguration { checksum } ∉ file.keys

/-- A snapshot with a defect is not well-formed. -/
theorem Defect.not_wellFormed {file : File} {refusal : Refusal} (defect : file.Defect refusal) :
    ¬ file.WellFormed := by
  intro wellFormed
  cases refusal with
  | malformed => exact defect
  | duplicateObject id =>
    have once := List.nodup_iff_count_le_one.mp wellFormed.distinct id
    exact absurd (Nat.le_trans defect once) (by decide)
  | unknownObject id => exact defect.2 (wellFormed.known id defect.1)
  | objectCycle id => exact wellFormed.grounded id defect
  | duplicateNode key =>
    have once := List.nodup_iff_count_le_one.mp wellFormed.single key
    exact absurd (Nat.le_trans defect once) (by decide)
  | unknownDependency key dep => exact defect.2 (wellFormed.defined key dep defect.1)
  | dependencyCycle key => exact wellFormed.acyclic key defect
  | unknownConfiguration checksum => exact defect.2 (wellFormed.realized checksum defect.1)

end File

/-- Below something accessible there is no cycle. -/
theorem not_transGen_of_acc {α : Type} {relation : α → α → Prop} {origin : α}
    (accessible : Acc (fun next previous => relation previous next) origin) :
    ¬ TransGen relation origin origin := by
  induction accessible with
  | intro origin _ further =>
    intro cycle
    obtain ⟨next, first, rest⟩ := TransGen.head'_iff.mp cycle
    exact further next first (TransGen.tail' rest first)

end Retained.Snapshot
