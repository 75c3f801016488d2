import Mathlib.Data.List.Nodup
import Mathlib.Order.Nat
import Retained.Proofs.Snapshot.Layout

/-!
# Where the layout of a snapshot puts its objects

The layout gives out places one after the other, so the identifiers that have places form a list in
the order of their places. `Placing` ties that list to what is laid out: the place of an identifier
is its position, and the object at a position is that of the identifier's record, its references
being the positions of the identifiers that the record names. An object is finished only while the
search is below it, and only once (`Open`), so no identifier is placed twice and no two share a
place.
-/

namespace Retained

/-- The object at a place of a finished heap is the one drafted there. -/
theorem Heap.Draft.object_map (draft : Heap.Draft) (place : Fin draft.count) :
    (draft.heap.object place).map Fin.val = draft.objects[place] := by
  have whole : draft.heap.object place = draft.finished place := Vector.getElem_ofFn _
  have fields : (draft.finished place).fields.map (Field.map Fin.val) =
      (draft.objects[place]).fields := by
    simp only [Heap.Draft.finished, List.map_map, Function.comp_def, Field.map]
    exact List.attach_map_subtype_val _
  rw [whole]
  simp only [HeapObject.map, fields]
  rfl

namespace Snapshot

variable {table : ObjectTable} {tasks : List Task} {layout : Layout} {order : List UInt64}
variable {id : UInt64}

/-- Looked-up fields read back as those that they were looked up from, if each lookup does. -/
theorem mapM_fields_read {lookup : Ref → Except Refusal Place} {back : Place → Option Ref}
    (reads : ∀ ref place, lookup ref = .ok place → back place = some ref)
    (fields : List (Field Ref)) :
    Meets (fun _ => True) (fun placed => placed.map (Field.map back) = fields.map (Field.map some))
      (fields.mapM fun field => do
        return { name := field.name, target := ← lookup field.target,
                 transient := field.transient } : Except Refusal (List (Field Place))) := by
  induction fields with
  | nil => rfl
  | cons field others further =>
    rw [List.mapM_cons]
    cases looked : lookup field.target with
    | error refusal => exact trivial
    | ok place =>
      have first := reads field.target place looked
      refine further.bind ?_
      intro placed rest
      show List.map (Field.map back) (_ :: placed) = _
      simp only [List.map_cons, rest, Field.map, first]

/-- An object whose references were looked up reads back as the object itself, if each lookup
does. -/
theorem mapM_object_reads {lookup : Ref → Except Refusal Place} {back : Place → Option Ref}
    (reads : ∀ ref place, lookup ref = .ok place → back place = some ref) {object : HeapObject Ref}
    {placed : HeapObject Place} (looked : object.mapM lookup = .ok placed) :
    placed.map back = object.map some := by
  have meets : Meets (fun _ => True) (fun placed => placed.map back = object.map some)
      (object.mapM lookup) := by
    unfold HeapObject.mapM
    refine (mapM_fields_read reads object.fields).bind ?_
    intro fields same
    show ({ className := _, category := _, shape := _, fields := _ } : HeapObject _) = _
    rw [same]
    rfl
  exact meets.ok looked

/-! ## Tasks to finish -/

/-- The identifier of the object that a task finishes. -/
def Task.finish? : Task → Option UInt64
  | enter _ => none
  | finish id => some id

/-- What is to be finished is what the search is below, each object once. -/
structure Open (tasks : List Task) (layout : Layout) : Prop where
  /-- No object is to be finished twice. -/
  distinct : (tasks.filterMap Task.finish?).Nodup
  /-- The search is below what is to be finished. -/
  below : ∀ id ∈ tasks.filterMap Task.finish?, layout.visits[id]? = some .entered

namespace Open

/-- Dropping a task to enter leaves what is to be finished. -/
theorem skip (opened : Open (.enter id :: tasks) layout) : Open tasks layout :=
  ⟨opened.distinct, opened.below⟩

/-- An object that the search enters is to be finished from then on. -/
theorem enter (opened : Open (.enter id :: tasks) layout) (unmet : layout.visits[id]? = none)
    (object : HeapObject UInt64) :
    Open ((layout.enter id).tasks id object ++ tasks) (layout.enter id) := by
  have entering : ∀ ids : List UInt64,
      (ids.map Task.enter).reverse.filterMap Task.finish? = [] := by
    intro ids
    simp [Task.finish?]
  have finishing : ((layout.enter id).tasks id object ++ tasks).filterMap Task.finish? =
      id :: tasks.filterMap Task.finish? := by
    rw [Layout.tasks, List.filterMap_append, List.filterMap_append, entering]
    rfl
  have fresh : id ∉ tasks.filterMap Task.finish? := by
    intro member
    have entered := opened.below id member
    rw [unmet] at entered
    contradiction
  constructor
  case distinct =>
    rw [finishing]
    exact List.nodup_cons.mpr ⟨fresh, opened.distinct⟩
  case below =>
    rw [finishing]
    intro other member
    rw [Layout.visits_enter]
    by_cases same : id = other
    · rw [if_pos same]
    · have older : other ∈ tasks.filterMap Task.finish? := by
        simpa [Ne.symm same] using member
      rw [if_neg same]
      exact opened.below other older

/-- A finished object is not to be finished again. -/
theorem finish (opened : Open (.finish id :: tasks) layout)
    (object : HeapObject (Fin layout.draft.count)) : Open tasks (layout.add id object) := by
  have distinct : (id :: tasks.filterMap Task.finish?).Nodup := opened.distinct
  have split := List.nodup_cons.mp distinct
  constructor
  case distinct => exact split.2
  case below =>
    intro other member
    have apart : id ≠ other := fun same => split.1 (same ▸ member)
    rw [Layout.visits_add, if_neg apart]
    exact opened.below other (List.mem_cons_of_mem id member)

end Open

/-! ## Places -/

/-- A layout has placed these identifiers, in this order. -/
structure Placing (table : ObjectTable) (order : List UInt64) (layout : Layout) : Prop where
  /-- Every place is that of an identifier. -/
  counted : order.length = layout.draft.count
  /-- The place of an identifier is its position. -/
  places : ∀ (id : UInt64) (place : Nat),
    layout.visits[id]? = some (Visit.done place) ↔ order[place]? = some id
  /-- The object at a place is that of the identifier, references and all. -/
  objects : ∀ (place : Nat) (made : place < layout.draft.count), ∃ id object,
    order[place]? = some id ∧ table[id]? = some object ∧
      (layout.draft.objects[place]).map (order[·]?) = object.map some

namespace Placing

/-- Nothing is placed at first. -/
theorem start (table : ObjectTable) : Placing table [] .empty where
  counted := rfl
  places id place := by simp [Layout.empty]
  objects place made := absurd made (Nat.not_lt_zero place)

/-- Entering an object that was not met places nothing. -/
theorem enter (placing : Placing table order layout) (unmet : layout.visits[id]? = none) :
    Placing table order (layout.enter id) where
  counted := placing.counted
  places other place := by
    rw [Layout.visits_enter]
    by_cases same : id = other
    · have unplaced : order[place]? ≠ some other := by
        rw [← same, Ne, ← placing.places, unmet]
        nofun
      rw [if_pos same]
      exact iff_of_false nofun unplaced
    · rw [if_neg same]
      exact placing.places other place
  objects := placing.objects

/-- The next place goes to the identifier of the object that is added. -/
theorem places_add (placing : Placing table order layout)
    (entered : layout.visits[id]? = some .entered) (placed : HeapObject (Fin layout.draft.count))
    (other : UInt64) (place : Nat) :
    (layout.add id placed).visits[other]? = some (Visit.done place) ↔
      (order ++ [id])[place]? = some other := by
  have counted := placing.counted
  have unplaced : order[place]? ≠ some id := by
    rw [Ne, ← placing.places, entered]
    nofun
  rw [Layout.visits_add]
  by_cases inside : place < order.length
  · rw [List.getElem?_append_left inside]
    by_cases same : id = other
    · have earlier : layout.draft.count ≠ place := by omega
      rw [if_pos same, ← same]
      simp [earlier, unplaced]
    · rw [if_neg same]
      exact placing.places other place
  · have beyond : order[place]? = none := List.getElem?_eq_none (by omega)
    by_cases next : place = order.length
    · rw [next, List.getElem?_concat_length, counted]
      by_cases same : id = other
      · simp [same]
      · have missing : layout.visits[other]? ≠ some (.done layout.draft.count) := by
          rw [Ne, placing.places, ← counted, ← next, beyond]
          nofun
        simp [same, missing]
    · have outside : (order ++ [id])[place]? = none := by
        apply List.getElem?_eq_none
        rw [List.length_append, List.length_singleton]
        omega
      rw [outside]
      by_cases same : id = other
      · have apart : layout.draft.count ≠ place := by omega
        simp [same, apart]
      · rw [if_neg same, placing.places, beyond]

/-- Adding the object of an identifier that the search is below gives it the next place. -/
theorem add (placing : Placing table order layout) {object : HeapObject UInt64}
    (entered : layout.visits[id]? = some .entered) (listed : table[id]? = some object)
    {placed : HeapObject (Fin layout.draft.count)}
    (looked : object.mapM layout.place = .ok placed) :
    Placing table (order ++ [id]) (layout.add id placed) := by
  have counted := placing.counted
  constructor
  case counted =>
    show (order ++ [id]).length = (layout.draft.push placed).count
    rw [Heap.Draft.count_push, List.length_append, counted, List.length_singleton]
  case places => exact placing.places_add entered placed
  case objects =>
    intro place made
    have size : place < layout.draft.count + 1 := by
      rwa [← Heap.Draft.count_push layout.draft placed]
    by_cases inside : place < layout.draft.count
    -- Earlier objects refer to places before their own, whose identifiers stay the same.
    · obtain ⟨other, held, atPlace, among, same⟩ := placing.objects place inside
      have kept : (layout.draft.push placed).objects[place] = layout.draft.objects[place] :=
        Array.getElem_push_lt inside
      refine ⟨other, held, ?_, among, ?_⟩
      · rwa [List.getElem?_append_left (by omega)]
      · show ((layout.draft.push placed).objects[place]).map _ = _
        rw [kept, ← same]
        apply HeapObject.map_congr
        intro field member
        have earlier := layout.draft.earlier place inside field member
        exact List.getElem?_append_left (by omega)
    · have last : place = layout.draft.count := by omega
      have new : (layout.draft.push placed).objects[place] = placed.map Fin.val := by
        subst last
        exact Array.getElem_push_eq
      refine ⟨id, object, ?_, listed, ?_⟩
      · rw [last, ← counted, List.getElem?_concat_length]
      · show ((layout.draft.push placed).objects[place]).map _ = _
        rw [new, HeapObject.map_map]
        refine mapM_object_reads ?_ looked
        intro target found given
        have atTarget := (placing.places target found.val).mp ((layout.place_meets target).ok given)
        rw [← atTarget]
        apply List.getElem?_append_left
        have bound := found.isLt
        omega

/-- No identifier has two places. -/
theorem order_nodup (placing : Placing table order layout) : order.Nodup := by
  rw [List.nodup_iff_getElem?_ne_getElem?]
  intro first second before inside same
  have held : order[first]? = some order[first] := List.getElem?_eq_getElem (by omega)
  have atFirst := (placing.places _ first).mpr held
  have atSecond := (placing.places _ second).mpr (same.symm.trans held)
  rw [atFirst] at atSecond
  cases atSecond
  omega

end Placing

/-- The search leaves every object that it has placed at the place of its identifier. -/
theorem layOut_placing (opened : Open tasks layout) (placed : ∃ order, Placing table order layout) :
    Meets (fun _ => True) (fun last => ∃ order, Placing table order last)
      (layOut table tasks layout) := by
  fun_induction layOut table tasks layout with
  | case1 layout => exact placed
  | case2 layout id tasks place met further => exact further opened.skip placed
  | case6 layout id tasks met object listed entered clear further =>
    obtain ⟨order, placing⟩ := placed
    exact further (opened.enter met object) ⟨order, placing.enter met⟩
  | case9 layout id tasks object listed found looked further =>
    obtain ⟨order, placing⟩ := placed
    have entered := opened.below id List.mem_cons_self
    exact further (opened.finish found) ⟨order ++ [id], placing.add entered listed looked⟩
  | _ => exact trivial

/-- Laying out the objects of a file places the objects of its records. -/
theorem ofRecords_placing (file : File) :
    Meets (fun _ => True)
      (fun layout =>
        ∃ table order, ObjectTable.Lists table file.objects ∧ Placing table order layout)
      (Layout.ofRecords file.objects) := by
  have tabled := (tabulate_meets file).imp (fun _ _ => trivial) fun _ lists => lists.2
  refine tabled.bind ?_
  intro table lists
  have finishing : (table.keys.map Task.enter).filterMap Task.finish? = [] := by
    simp [Task.finish?]
  have opened : Open (table.keys.map .enter) .empty := by
    constructor
    case distinct =>
      rw [finishing]
      exact List.nodup_nil
    case below =>
      rw [finishing]
      nofun
  refine (layOut_placing opened ⟨[], .start table⟩).imp (fun _ _ => trivial) ?_
  intro layout placed
  obtain ⟨order, placing⟩ := placed
  exact ⟨table, order, lists, placing⟩

end Snapshot

end Retained
