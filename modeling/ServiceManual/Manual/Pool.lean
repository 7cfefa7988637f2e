import ServiceManual.Manual

/-!
# Making pages at the same time

The pages of a service can be made by several workers.  Interfaces are submitted in the order of
the description.  A worker that is free picks up the one that has waited longest, and is finished
with it sooner or later.  The pages are collected in the order of submission as well, each when it
is there.  The first interface whose page cannot be made ends the collecting; from then on the ones
that wait are called off, unless a worker is quicker.

Nothing is known about how fast the workers are.  So a run of the pool is any sequence of events
each of which is possible when it happens, and the pages come out as some run of the pool leaves
them.
-/

namespace ServiceManual

/-- The state of a pool.  A task is known by its position among all tasks. -/
structure Pool (β ε : Type) where
  submitted : Nat := 0
  waiting : List Nat := []
  running : List Nat := []
  finished : List (Nat × Except ε β) := []
  calledOff : List Nat := []
  collected : List β := []
  failure : Option ε := none

namespace Pool

/-- What can happen in a pool. -/
inductive Event
  | submit
  | pick
  | finish (position : Nat)
  | collect
  | callOff (position : Nat)
  deriving DecidableEq, Repr

variable {α β ε : Type}

/-- The pool after the next result in the order of submission has been collected. -/
def collected? (pool : Pool β ε) : Option (Pool β ε) :=
  match pool.finished.lookup pool.collected.length with
  | none => none
  | some (.ok result) => some { pool with collected := pool.collected ++ [result] }
  | some (.error failure) => some { pool with failure := some failure }

/-- The pool after an event, if the event is possible.  At most `limit` tasks are worked on at the
same time. -/
def step (tasks : List α) (work : α → Except ε β) (limit : Nat) (pool : Pool β ε) :
    Event → Option (Pool β ε)
  | .submit =>
    if pool.submitted < tasks.length then
      some { pool with
        submitted := pool.submitted + 1
        waiting := pool.waiting ++ [pool.submitted] }
    else none
  | .pick =>
    match pool.waiting with
    | [] => none
    | position :: rest =>
      if pool.running.length < limit then
        some { pool with waiting := rest, running := position :: pool.running }
      else none
  | .finish position =>
    match tasks[position]? with
    | none => none
    | some task =>
      if position ∈ pool.running then
        some { pool with
          running := pool.running.erase position
          finished := (position, work task) :: pool.finished }
      else none
  | .collect =>
    if pool.submitted = tasks.length ∧ pool.failure.isNone then pool.collected? else none
  | .callOff position =>
    if pool.failure.isSome ∧ position ∈ pool.waiting then
      some { pool with
        waiting := pool.waiting.erase position
        calledOff := position :: pool.calledOff }
    else none

/-- The pool after a sequence of events, if they are possible one after the other. -/
def run (tasks : List α) (work : α → Except ε β) (limit : Nat) (pool : Pool β ε) :
    List Event → Option (Pool β ε)
  | [] => some pool
  | event :: rest => (pool.step tasks work limit event).bind fun next =>
      next.run tasks work limit rest

/-- How things come out, once nothing waits and nothing is worked on: with a failure, or with the
results of all tasks. -/
def outcome? (tasks : List α) (pool : Pool β ε) : Option (Except ε (List β)) :=
  if pool.waiting = [] ∧ pool.running = [] then
    match pool.failure with
    | some failure => some (.error failure)
    | none => if pool.collected.length = tasks.length then some (.ok pool.collected) else none
  else none

end Pool

namespace Manual

/-- The page of an interface, or what keeps it from being made. -/
def page? (service : Service) (configuration : Configuration) (package : Package)
    (interface : Interface) : Except Obstacle Page :=
  match obstacles service interface with
  | [] => .ok (page service configuration package interface)
  | obstacle :: _ => .error obstacle

/-- The pages of a service made one after the other. -/
def inOrder (service : Service) (configuration : Configuration) (package : Package) :
    Except Obstacle (List Page) :=
  service.interfaces.mapM (page? service configuration package)

/-- How the pages of a service can come out: one after the other if there is one worker or at most
one page to be made, else by any run of a pool. -/
inductive Builds (service : Service) (configuration : Configuration) (package : Package) :
    Except Obstacle (List Page) → Prop
  | alone (hfew : configuration.settings.maxWorkers ≤ 1 ∨ service.interfaces.length ≤ 1) :
      Builds service configuration package (inOrder service configuration package)
  | together {events : List Pool.Event} {pool : Pool Page Obstacle}
      {outcome : Except Obstacle (List Page)}
      (hworkers : 1 < configuration.settings.maxWorkers)
      (hmany : 1 < service.interfaces.length)
      (hrun : Pool.run service.interfaces (page? service configuration package)
        configuration.settings.maxWorkers.toNat {} events = some pool)
      (hends : pool.outcome? service.interfaces = some outcome) :
      Builds service configuration package outcome

end Manual

/-- A configuration with another number of workers. -/
def Configuration.withWorkers (configuration : Configuration) (workers : Int) : Configuration :=
  { configuration with settings := { maxWorkers := workers } }

end ServiceManual
