import Retained.Heap.Basic
import Retained.Walk.Marks
import Retained.Walk.Options

/-!
# Walking a heap

A walk starts at a root and claims every object that it can reach through unclaimed objects. It
keeps the objects still to be looked at on a stack. Each step is one access to what walks share:
taking the next object and marking it if it is unmarked, reporting an object just marked, or
offering one of its successors to the stack unless that is marked already. Successors are offered in
reverse, so that fields are entered in the order of their declaration.

Several walks may interleave their steps over the same marks: whoever marks an object first owns it.
A walk alone is `traverse`, which ends because each marking leaves fewer objects unmarked and every
other step shrinks what is left to do.

A walk looks at its cancellation after every 1024 objects it has marked, before it reports the last
of them, and once more at its end.
-/

namespace Retained

/-- How many objects a walk marks between two looks at its cancellation. -/
def cancellationInterval : Nat := 1024

/-- What walks share: the marks, and the objects reported so far, in order. -/
structure Scene (size : Nat) where
  /-- The objects claimed by any walk. -/
  marks : Marks size
  /-- The objects reported by any walk, the latest last. -/
  reported : Array (Fin size)

/-- The scene before any walk, with some objects claimed beforehand. -/
def Scene.start {size : Nat} (marks : Marks size) : Scene size :=
  { marks, reported := #[] }

/-- What a finished walk has done. -/
structure WalkSummary where
  /-- The objects it marked. -/
  visited : Nat
  /-- The objects it reported. -/
  reported : Nat
deriving DecidableEq, Repr

/-- What stays the same throughout a walk. -/
structure Walk (size : Nat) where
  /-- The heap walked over. -/
  heap : Heap size
  /-- How objects and fields are treated. -/
  options : WalkOptions (Fin size)
  /-- Whether objects are reported at all. -/
  reports : Bool

namespace Walk

variable {size : Nat}

/-- Whether the walk keeps out of the object at a place. -/
def skips (walk : Walk size) (place : Fin size) : Bool :=
  walk.options.skips (walk.heap.object place)

/-- Whether the walk reports the object at a place when it marks it. -/
def wants (walk : Walk size) (place : Fin size) : Bool :=
  walk.reports && walk.options.isWanted (walk.heap.object place)

/-- The places that the walk goes on to from a place. -/
def successors (walk : Walk size) (place : Fin size) : List (Fin size) :=
  walk.options.successors (walk.heap.object place)

end Walk

/-- What a walk does next. -/
inductive WalkTask (size : Nat) where
  /-- Report the object just marked. -/
  | report (place : Fin size)
  /-- Offer successors to the stack, and then take the next object from it. -/
  | offer (places : List (Fin size))
deriving DecidableEq

/-- A walk under way. -/
structure Walker (size : Nat) where
  /-- The objects still to be looked at, the next one first. -/
  stack : List (Fin size)
  /-- What it does next. -/
  task : WalkTask size
  /-- What it has done so far. -/
  summary : WalkSummary

/-- What a step of a walk leads to. -/
inductive WalkProgress (size : Nat) where
  /-- The walk goes on. -/
  | running (walker : Walker size)
  /-- The walk is complete. -/
  | finished (summary : WalkSummary)
  /-- The walk saw its cancellation. -/
  | interrupted

namespace Walker

variable {size : Nat}

/-- A walk that has not looked at its root yet. -/
def start (root : Fin size) : Walker size :=
  { stack := [root], task := .offer [], summary := { visited := 0, reported := 0 } }

/-- Offer a successor: it goes on the stack unless it is marked. -/
def offer (walker : Walker size) (scene : Scene size) (place : Fin size)
    (others : List (Fin size)) : Walker size :=
  { walker with
    stack := if scene.marks.contains place then walker.stack else place :: walker.stack
    task := .offer others }

/-- Go on from an object after reporting it, if it is to be reported. -/
def report (walker : Walker size) (walk : Walk size) (place : Fin size) : Walker size :=
  { walker with
    task := .offer (walk.successors place).reverse
    summary.reported :=
      if walk.wants place then walker.summary.reported + 1 else walker.summary.reported }

/-- One step of a walk, with what its cancellation says at that moment. -/
def step (walk : Walk size) (cancelled : Bool) (walker : Walker size) (scene : Scene size) :
    WalkProgress size × Scene size :=
  match walker.task with
  | .report place =>
    if cancelled && walker.summary.visited % cancellationInterval == 0 then
      (.interrupted, scene)
    else if walk.wants place then
      (.running (walker.report walk place), { scene with reported := scene.reported.push place })
    else
      (.running (walker.report walk place), scene)
  | .offer (place :: others) => (.running (walker.offer scene place others), scene)
  | .offer [] =>
    match walker.stack with
    | [] => (if cancelled then .interrupted else .finished walker.summary, scene)
    | place :: stack =>
      if walk.skips place || scene.marks.contains place then
        (.running { walker with stack }, scene)
      else
        (.running {
            stack, task := .report place
            summary := { walker.summary with visited := walker.summary.visited + 1 } },
          { scene with marks := scene.marks.mark place })

/-- The steps that a task takes at most until the next object is taken, pushed objects included. -/
def taskWeight (walk : Walk size) : WalkTask size → Nat
  | .report place => 2 * (walk.successors place).length + 1
  | .offer places => 2 * places.length

/-- The steps that a walk takes at most before it marks another object or ends. -/
def weight (walk : Walk size) (walker : Walker size) : Nat :=
  taskWeight walk walker.task + walker.stack.length

/-- Every step that does not end a walk marks an object or brings the walk closer to marking or
ending. -/
theorem step_decreases {walk : Walk size} {cancelled : Bool} {walker next : Walker size}
    {scene after : Scene size}
    (stepped : walker.step walk cancelled scene = (.running next, after)) :
    Prod.Lex (· < ·) (· < ·) (after.marks.unmarked, next.weight walk)
      (scene.marks.unmarked, walker.weight walk) := by
  obtain ⟨stack, task, summary⟩ := walker
  unfold step at stepped
  split at stepped
  · next place isReport =>
    cases isReport
    split at stepped
    · simp at stepped
    · split at stepped
      all_goals
        cases stepped
        refine Prod.Lex.right _ ?_
        simp [weight, report, taskWeight]
  · next place others isOffer =>
    cases isOffer
    cases stepped
    refine Prod.Lex.right _ ?_
    simp only [weight, offer, taskWeight, List.length_cons]
    split
    · simp
    · simp
      omega
  · next isPick =>
    cases isPick
    split at stepped
    · split at stepped <;> simp at stepped
    · next place stack' isStack =>
      cases isStack
      split at stepped
      · cases stepped
        refine Prod.Lex.right _ ?_
        simp [weight]
      · next fresh =>
        cases stepped
        have unclaimed : walk.skips place = false ∧ scene.marks.contains place = false := by
          simpa using fresh
        exact Prod.Lex.left _ _ (Marks.unmarked_mark_lt unclaimed.2)

end Walker

/-- When a walk is cancelled, counted in its steps. -/
inductive Cancellation where
  /-- It is never cancelled. -/
  | never
  /-- It is cancelled from a step on; from step zero on means beforehand. -/
  | after (steps : Nat)
deriving DecidableEq, Repr

namespace Cancellation

/-- Whether a walk is cancelled when it has taken so many steps. -/
def isSet (cancellation : Cancellation) (taken : Nat) : Bool :=
  match cancellation with
  | never => false
  | after steps => decide (steps ≤ taken)

/-- A cancellation that has happened or will not. -/
def ofBool (cancelled : Bool) : Cancellation :=
  if cancelled then .after 0 else .never

end Cancellation

namespace Walk

variable {size : Nat}

/-- A walk from somewhere on its way to its end, alone with the scene: what it has done, unless it
was interrupted, and the scene it leaves. -/
def run (walk : Walk size) (cancellation : Cancellation) (taken : Nat) (walker : Walker size)
    (scene : Scene size) : Option WalkSummary × Scene size :=
  match _stepped : walker.step walk (cancellation.isSet taken) scene with
  | (.running next, after) => walk.run cancellation (taken + 1) next after
  | (.finished summary, after) => (some summary, after)
  | (.interrupted, after) => (none, after)
termination_by (scene.marks.unmarked, walker.weight walk)
decreasing_by exact Walker.step_decreases ‹_›

/-- A whole walk from a root, alone with the scene. -/
def traverse (walk : Walk size) (cancellation : Cancellation) (root : Fin size)
    (scene : Scene size) : Option WalkSummary × Scene size :=
  walk.run cancellation 0 (.start root) scene

end Walk

end Retained
