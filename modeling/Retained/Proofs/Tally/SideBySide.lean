import Mathlib.Algebra.BigOperators.Ring.List
import Retained.Proofs.Tally.Recording

/-!
# Recording side by side loses nothing

Whatever the order in which callers take their steps, what the counters say and what the callers
still owe them are together what the objects of all callers come to (`State.Conserves`). So when all
calls have returned, and every order comes to that, the statistics are those of an accountant that
has recorded the objects one after the other (`State.recording_loses_nothing`).
-/

namespace Retained.Recording.State

variable {Ref : Type} {measurers : List (Measurer Ref)} {state next last : State Ref}
variable {objects : List (HeapObject Ref)} {index : Nat} {turns : List Nat}

/-- A step is one of one caller, while the others stand by. -/
theorem exists_moved (advanced : state.advance measurers index = some next) :
    ∃ before caller moved after, state.callers = before ++ caller :: after ∧
      next.callers = before ++ moved :: after ∧
      Caller.Moved measurers state.ledger caller moved next.ledger := by
  obtain ⟨caller, selected, rest⟩ := Option.bind_eq_some_iff.mp advanced
  obtain ⟨⟨moved, ledger⟩, stepped, result⟩ := Option.bind_eq_some_iff.mp rest
  cases result
  obtain ⟨inside, rfl⟩ := List.getElem?_eq_some_iff.mp selected
  refine ⟨state.callers.take index, state.callers[index], moved,
    state.callers.drop (index + 1), ?_, ?_, Caller.step_moved stepped⟩
  · rw [← List.drop_eq_getElem_cons inside, List.take_append_drop]
  · show state.callers.set index moved = _
    rw [List.set_eq_take_append_cons_drop, if_pos inside]

/-! ## Conservation -/

/-- What the counters say and what the callers still owe them make up the objects to be recorded. -/
structure Conserves (measurers : List (Measurer Ref)) (objects : List (HeapObject Ref))
    (state : State Ref) : Prop where
  /-- The table leads to counters, and for no two classes to the same. -/
  ledger : state.ledger.Sound
  /-- Every call under way adds to the counters of its class. -/
  callers : ∀ caller ∈ state.callers, caller.Sound measurers state.ledger
  /-- What is counted and what is owed come to what all objects come to. -/
  counted : ∀ className counter, state.ledger.reading className counter +
    counter.tally measurers className (state.callers.flatMap (Caller.owed counter)) =
      counter.tally measurers className objects
  /-- The classes in the table and those still to be found are the classes of all objects. -/
  listed : ∀ className, (className ∈ state.ledger.table ∨
      ∃ object ∈ state.callers.flatMap Caller.unlisted, object.className = className) ↔
    ∃ object ∈ objects, object.className = className

/-- Callers that have not begun, each of which has all its objects ahead, have all objects ahead. -/
theorem flatMap_start {ahead : Caller Ref → List (HeapObject Ref)}
    (all : ∀ left, ahead (.start left) = left) (objects : List (List (HeapObject Ref))) :
    (start objects).callers.flatMap ahead = objects.flatten := by
  have same : (fun left => ahead (.start left)) = id := funext all
  rw [start, List.flatMap_map, same, List.flatMap_id]

/-- Callers whose calls have returned, each of which has nothing ahead, have nothing ahead. -/
theorem flatMap_of_isDone {ahead : Caller Ref → List (HeapObject Ref)} (done : state.isDone = true)
    (nothing : ahead { call := none, left := [] } = []) : state.callers.flatMap ahead = [] := by
  refine List.flatMap_eq_nil_iff.mpr ?_
  intro caller member
  rw [Caller.eq_of_isDone (List.all_eq_true.mp done caller member), nothing]

/-- Before any step, everything is owed. -/
theorem conserves_start (measurers : List (Measurer Ref)) (objects : List (List (HeapObject Ref))) :
    (start objects).Conserves measurers objects.flatten := by
  constructor
  case ledger => exact ⟨by simp [start, Ledger.empty], by simp [start, Ledger.empty]⟩
  case callers =>
    intro caller member
    obtain ⟨left, _, rfl⟩ := List.mem_map.mp member
    trivial
  case counted =>
    intro className counter
    have zero : (start objects).ledger.reading className counter = 0 := by
      obtain column | column := counter <;> cases column <;> rfl
    rw [flatMap_start fun _ => rfl, zero, UInt64.zero_add]
  case listed =>
    intro className
    have absent : className ∉ (start objects).ledger.table := Std.ExtTreeMap.not_mem_empty
    rw [flatMap_start fun _ => rfl, or_iff_right absent]

/-- A step conserves what is counted and owed. -/
theorem Conserves.advance (conserves : state.Conserves measurers objects)
    (advanced : state.advance measurers index = some next) : next.Conserves measurers objects := by
  obtain ⟨before, caller, moved, after, callers, others, step⟩ := exists_moved advanced
  have callerSound := conserves.callers caller (by simp [callers])
  constructor
  case ledger => exact step.ledger_sound conserves.ledger
  case callers =>
    intro other member
    rw [others, List.mem_append, List.mem_cons] at member
    have standsBy : other ∈ before ∨ other ∈ after → other.Sound measurers next.ledger := by
      intro apart
      refine step.others_sound (conserves.callers other ?_)
      rw [callers, List.mem_append, List.mem_cons]
      exact apart.imp_right Or.inr
    rcases member with earlier | rfl | later
    · exact standsBy (Or.inl earlier)
    · exact step.caller_sound callerSound
    · exact standsBy (Or.inr later)
  case counted =>
    intro className counter
    have earlier := conserves.counted className counter
    rw [callers, List.flatMap_append, List.flatMap_cons, Counter.tally_append, Counter.tally_append]
      at earlier
    rw [others, List.flatMap_append, List.flatMap_cons, Counter.tally_append, Counter.tally_append,
      ← earlier]
    -- What the others owe stands on both sides; the mover owes less by what the counter says more.
    have own := step.reading conserves.ledger callerSound className counter
    rw [add_left_comm, ← add_assoc (next.ledger.reading className counter), own, add_assoc,
      add_left_comm]
  case listed =>
    intro className
    have earlier := conserves.listed className
    have own := step.met className
    simp only [callers, others, List.flatMap_append, List.flatMap_cons, List.mem_append,
      or_and_right, exists_or] at earlier ⊢
    rw [← earlier, or_left_comm, ← or_assoc (a := className ∈ next.ledger.table), own, or_assoc,
      or_left_comm]

/-- Steps conserve what is counted and owed. -/
theorem Conserves.advanceAll (conserves : state.Conserves measurers objects)
    (possible : state.advanceAll measurers turns = some last) :
    last.Conserves measurers objects := by
  induction turns generalizing state with
  | nil =>
    cases possible
    exact conserves
  | cons index turns further =>
    obtain ⟨next, advanced, onwards⟩ := Option.bind_eq_some_iff.mp possible
    exact further (conserves.advance advanced) onwards

/-! ## Steps to come -/

/-- The steps that all callers take at most. -/
def work (state : State Ref) : Nat :=
  (state.callers.map Caller.work).sum

/-- A call takes no more than seven steps. -/
theorem work_start (objects : List (List (HeapObject Ref))) :
    (start objects).work = 7 * objects.flatten.length := by
  rw [work, start, List.map_map, List.length_flatten, ← List.sum_map_mul_left]
  rfl

/-- A step leaves fewer steps to take. -/
theorem work_advance (advanced : state.advance measurers index = some next) :
    next.work < state.work := by
  obtain ⟨before, caller, moved, after, callers, others, step⟩ := exists_moved advanced
  have less := step.work_lt
  rw [work, work, callers, others]
  simp only [List.map_append, List.map_cons, List.sum_append, List.sum_cons]
  omega

/-- So many steps are taken in a row as there were steps to take. -/
theorem work_advanceAll (possible : state.advanceAll measurers turns = some last) :
    turns.length + last.work ≤ state.work := by
  induction turns generalizing state with
  | nil =>
    cases possible
    rw [List.length_nil, Nat.zero_add]
  | cons index turns further =>
    obtain ⟨next, advanced, onwards⟩ := Option.bind_eq_some_iff.mp possible
    have less := work_advance advanced
    have rest := further onwards
    rw [List.length_cons]
    omega

/-- As long as some call has not returned, some caller has a step to take. -/
theorem exists_advance (measurers : List (Measurer Ref)) (pending : state.isDone = false) :
    ∃ index next, state.advance measurers index = some next := by
  obtain ⟨caller, member, busy⟩ := List.all_eq_false.mp pending
  obtain ⟨index, selected⟩ := List.mem_iff_getElem?.mp member
  have steps : (caller.step measurers state.ledger).isSome = true := by
    rw [Caller.step_isSome, Bool.eq_false_iff.mpr busy]
    rfl
  obtain ⟨⟨moved, ledger⟩, stepped⟩ := Option.isSome_iff_exists.mp steps
  refine ⟨index, { ledger, callers := state.callers.set index moved }, ?_⟩
  rw [advance, selected]
  simp only [bind, Option.bind, stepped]
  rfl

/-- From everywhere, callers can go on until all calls have returned. -/
theorem exists_done (measurers : List (Measurer Ref)) (state : State Ref) :
    ∃ turns last, state.advanceAll measurers turns = some last ∧ last.isDone = true := by
  induction left : state.work using Nat.strong_induction_on generalizing state with
  | h left further =>
    cases done : state.isDone with
    | true => exact ⟨[], state, rfl, done⟩
    | false =>
      obtain ⟨index, next, advanced⟩ := exists_advance measurers done
      obtain ⟨turns, last, onwards, ended⟩ :=
        further next.work (left ▸ work_advance advanced) next rfl
      refine ⟨index :: turns, last, ?_, ended⟩
      rw [advanceAll, List.foldlM_cons, advanced]
      exact onwards

/-! ## What is counted in the end -/

/-- When all calls have returned, a counter says what the objects come to. -/
theorem Conserves.reading (conserves : state.Conserves measurers objects)
    (done : state.isDone = true) (className : String) (counter : Counter) :
    state.ledger.reading className counter = counter.tally measurers className objects := by
  have counted := conserves.counted className counter
  rw [flatMap_of_isDone done rfl, Counter.tally_nil, UInt64.add_zero] at counted
  exact counted

/-- When all calls have returned, the classes in the table are those of the objects. -/
theorem Conserves.mem_table_iff (conserves : state.Conserves measurers objects)
    (done : state.isDone = true) (className : String) :
    className ∈ state.ledger.table ↔ ∃ object ∈ objects, object.className = className := by
  have listed := conserves.listed className
  rw [flatMap_of_isDone done rfl] at listed
  simpa using listed

/-- When all calls have returned, the counters are those of an accountant that has recorded the
objects one after the other. -/
theorem Conserves.stats (conserves : state.Conserves measurers objects)
    (done : state.isDone = true) :
    state.ledger.stats = ((Accountant.start measurers).recordAll objects).stats := by
  have total : state.ledger.total = ((Accountant.start measurers).recordAll objects).total := by
    rw [Accountant.total_recordAll]
    exact Column.ext_get fun column => conserves.reading done "" (.ofAll column)
  have classes :
      state.ledger.classes = ((Accountant.start measurers).recordAll objects).classes := by
    refine Std.ExtTreeMap.ext_getElem? ?_
    intro className
    have totals :
        state.ledger.totalsOf className = .ofObjects measurers (ofClass className objects) :=
      Column.ext_get fun column => conserves.reading done className (.ofClass column)
    rw [Accountant.getElem?_classes_recordAll, ← totals]
    split
    · next met =>
      rw [Accountant.mem_classes_recordAll, ← conserves.mem_table_iff done,
        Ledger.mem_table_iff] at met
      obtain ⟨cell, held⟩ := met
      rw [Ledger.totalsOf, Ledger.getElem?_classes, held]
      rfl
    · next unmet =>
      rw [Accountant.mem_classes_recordAll, ← conserves.mem_table_iff done] at unmet
      rw [Ledger.getElem?_classes, Std.ExtTreeMap.getElem?_eq_none unmet]
      rfl
  rw [Ledger.stats, Accountant.stats, total, classes]

/-- **Recording side by side loses nothing.** In whatever order any number of callers take the steps
of their calls, they take no more than seven for each object, and they can go on until all calls
have returned. Then the statistics are those of an accountant that has recorded the objects one
after the other. They list the classes of the objects and no others, in both tables; the counters of
a class are the number and the bytes of its objects, those over all classes the number and the bytes
of all objects, modulo `2 ^ 64`; and the columns of the tables add up to them. -/
theorem recording_loses_nothing (measurers : List (Measurer Ref))
    {objects : List (List (HeapObject Ref))} {turns : List Nat} {state : State Ref}
    (possible : (start objects).advanceAll measurers turns = some state) :
    turns.length ≤ 7 * objects.flatten.length ∧
      (∃ others last, state.advanceAll measurers others = some last ∧ last.isDone = true) ∧
      (state.isDone = true →
        state.ledger.stats = ((Accountant.start measurers).recordAll objects.flatten).stats ∧
          state.ledger.stats.Accounts measurers objects.flatten) := by
  refine ⟨?_, exists_done measurers state, ?_⟩
  · have spent := work_advanceAll possible
    rw [work_start] at spent
    omega
  · intro done
    have same := ((conserves_start measurers objects).advanceAll possible).stats done
    rw [same]
    exact ⟨rfl, Accountant.stats_accounts measurers objects.flatten⟩

/-- Two callers that both miss the class of their objects, both before it gets its counters: it gets
them once, and both objects are counted. -/
theorem recording_loses_nothing_race :
    let shared (bytes : UInt64) : HeapObject Unit :=
      { className := "Shared", category := .plain, shape := .instance bytes, fields := [] }
    ∃ state, (start [[shared 16], [shared 24]]).advanceAll Measurer.standard
        [0, 1, 0, 1, 0, 1, 0, 1, 0, 1, 0, 1, 0, 1] = some state ∧
      state.isDone = true ∧ state.ledger.stats.countOf "Shared" = 2 ∧
        state.ledger.stats.bytesOf "Shared" = 40 := by
  intro shared
  let turns := [0, 1, 0, 1, 0, 1, 0, 1, 0, 1, 0, 1, 0, 1]
  have ends : ((start [[shared 16], [shared 24]]).advanceAll Measurer.standard turns).map isDone =
      some true := by
    decide +kernel
  obtain ⟨state, possible, done⟩ := Option.map_eq_some_iff.mp ends
  obtain ⟨_, accounts⟩ := (recording_loses_nothing Measurer.standard possible).2.2 done
  refine ⟨state, possible, done, ?_, ?_⟩
  · rw [accounts.countOf]
    decide +kernel
  · rw [accounts.bytesOf]
    decide +kernel

end Retained.Recording.State
