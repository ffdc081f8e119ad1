/-
A crew works on tasks. They are started in order, at most so many at a time, and go on in steps that
come in any order. An error that is handed in first is kept, and then the crew is called off: a task
that is started later gives up. When all tasks are done, the error that was kept or else the results
are given out.
-/
namespace SemFront

/-- Why a task has no result: the crew was called off, or the task failed. -/
inductive TaskError (ε : Type) where
  | calledOff
  | own (e : ε)
deriving DecidableEq, Repr

/-- How far a task is. -/
inductive Phase (ε α : Type) where
  | waiting
  /-- It looks next whether the crew was called off. -/
  | started
  | working
  | finished (a : α)
  | failed (e : TaskError ε)
  /-- Its error was kept, and it calls the crew off next. -/
  | kept
  | leaving
  | done
deriving DecidableEq, Repr

namespace Phase

def isWaiting : Phase ε α → Bool
  | .waiting => true
  | _ => false

def isDone : Phase ε α → Bool
  | .done => true
  | _ => false

/-- Whether a worker is on the task. -/
def isBusy (p : Phase ε α) : Bool := !p.isWaiting && !p.isDone

end Phase

/-- Tasks and what has come of them: the results so far, the error that is kept, whether the crew was
called off, and what was given out in the end. -/
structure Crew (ε α : Type) where
  phases : List (Phase ε α)
  results : List (Option α)
  error : Option (TaskError ε) := none
  calledOff : Bool := false
  outcome : Option (Except (TaskError ε) (List (Option α))) := none

/-- What can happen next: a task is started, a task goes on, or all is given out. -/
inductive CrewMove where
  | start
  | task (i : Nat)
  | giveOut
deriving DecidableEq, Repr

namespace Crew

/-- A crew before its first task is started. -/
def ofTasks (n : Nat) : Crew ε α :=
  { phases := List.replicate n .waiting, results := List.replicate n none }

def put (c : Crew ε α) (i : Nat) (p : Phase ε α) : Crew ε α := { c with phases := c.phases.set i p }

def busy (c : Crew ε α) : Nat := c.phases.countP (·.isBusy)

/-- A task goes on. `job` is what comes of it if it is not called off. -/
def goOn (job : Except ε α) (c : Crew ε α) (i : Nat) : Phase ε α → Option (Crew ε α)
  | .waiting => none
  | .started => some (c.put i (if c.calledOff then .failed .calledOff else .working))
  | .working => some (c.put i (match job with | .ok a => .finished a | .error e => .failed (.own e)))
  | .finished a => some { c.put i .leaving with results := c.results.set i (some a) }
  | .failed e =>
    if c.error.isSome then some (c.put i .leaving) else some { c.put i .kept with error := some e }
  | .kept => some { c.put i .leaving with calledOff := true }
  | .leaving => some (c.put i .done)
  | .done => none

/-- What is given out when all tasks are done. -/
def answer (c : Crew ε α) : Except (TaskError ε) (List (Option α)) :=
  match c.error with
  | some e => .error e
  | none => .ok c.results

/-- A move of a crew of so many workers, if it is possible. There is always one worker. -/
def step (workers : Nat) (job : β → Except ε α) (xs : List β) (c : Crew ε α) : CrewMove → Option (Crew ε α)
  | .start =>
    if c.busy < max 1 workers then (c.phases.findIdx? (·.isWaiting)).map fun i => c.put i .started else none
  | .task i =>
    match xs[i]?, c.phases[i]? with
    | some x, some p => c.goOn (job x) i p
    | _, _ => none
  | .giveOut =>
    if c.outcome.isNone && c.phases.all (·.isDone) then some { c with outcome := some c.answer } else none

/-- Some moves, one after the other. -/
def run (workers : Nat) (job : β → Except ε α) (xs : List β) (c : Crew ε α) (ms : List CrewMove) :
    Option (Crew ε α) :=
  ms.foldlM (step workers job xs) c

/-- The move with which a crew works in order: a task that was started goes on before another one is. -/
def nextMove (c : Crew ε α) : CrewMove :=
  match c.phases.findIdx? (·.isBusy) with
  | some i => .task i
  | none => if c.phases.any (·.isWaiting) then .start else .giveOut

/-- At most so many moves, in order. -/
def goOnInOrder (workers : Nat) (job : β → Except ε α) (xs : List β) : Nat → Crew ε α → Crew ε α
  | 0, c => c
  | n + 1, c =>
    match c.step workers job xs c.nextMove with
    | some c' => goOnInOrder workers job xs n c'
    | none => c

/-- The most moves that a task can take, from being started to being done. -/
def movesPerTask : Nat := 6

/-- Works on all tasks and gives out the results, or the error that was kept. -/
def workInOrder (workers : Nat) (job : β → Except ε α) (xs : List β) : Except (TaskError ε) (List α) :=
  match (goOnInOrder workers job xs (movesPerTask * xs.length + 1) (ofTasks xs.length)).outcome with
  | some (.ok as) => .ok (as.filterMap id)
  | some (.error e) => .error e
  | none => .error .calledOff

end Crew
end SemFront
