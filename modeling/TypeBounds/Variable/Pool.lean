import TypeBounds.Variable.Solve

/-! # Solving several variables at a time

A pool hands out the positions of a list of variables in order, to at most so many
tasks at once. It is halted some time after the work was cancelled. A task looks once
whether the pool was halted and, if not, does its position and reports it. In the end
the positions count as done only if nothing was cancelled. What may happen next is
given by `Pool.step?`, whatever the order in which tasks get their turn; `Pool.run` is
one such order.
-/

namespace TypeBounds

/-- What a pool is asked to do. -/
structure Plan where
  /-- The number of positions. -/
  size : Nat
  /-- The most tasks at once; zero for no limit. -/
  limit : Nat
  /-- The work is cancelled by the report with this number, counted as in `PoolAction.finish`. -/
  cancelAt : Option Nat

/-- The state of a pool. -/
structure Pool where
  /-- How many positions are handed out. -/
  handed : Nat
  /-- The next position is going to be handed out as soon as there is room. -/
  committed : Bool
  /-- Nothing more will be handed out. -/
  closed : Bool
  /-- Tasks that have not yet looked whether the pool was halted. -/
  waiting : List Nat
  /-- Tasks that are at work. -/
  working : List Nat
  /-- Positions in the order they were reported. -/
  reported : List Nat
  cancelled : Bool
  /-- The pool knows that the work was cancelled. -/
  halted : Bool
  /-- A task found the pool halted. -/
  refused : Bool
  deriving Repr, DecidableEq

/-- What may happen to a pool. -/
inductive PoolAction where
  /-- Somebody outside cancels the work. -/
  | cancel
  /-- The pool gets to know that the work was cancelled. -/
  | halt
  /-- The pool decides to hand out the next position. -/
  | commit
  /-- The next position becomes a task. -/
  | hand
  /-- The pool stops handing out positions. -/
  | close
  /-- A task looks whether the pool was halted. -/
  | check (position : Nat)
  /-- A task does its position and reports it, which may cancel the work, and gives up its room, all
      in one action. Tasks may well report at the same time: the n-th report is the n-th to be
      counted, which is the n-th of these actions, whichever task began its report first. -/
  | finish (position : Nat)
  deriving Repr, DecidableEq

/-- The end of the work. -/
inductive PoolAnswer where
  | interrupted
  /-- Which positions were done. -/
  | done (reported : List Nat)
  deriving Repr, DecidableEq

namespace Pool

/-- A pool that has done nothing, over work that may be cancelled already. -/
def start (cancelled : Bool) : Pool :=
  ⟨0, false, false, [], [], [], cancelled, cancelled, false⟩

def tasks (p : Pool) : Nat := p.waiting.length + p.working.length

def hasRoom (plan : Plan) (p : Pool) : Bool := plan.limit == 0 || p.tasks < plan.limit

/-- The state after an action, if the action is possible. -/
def step? (plan : Plan) (p : Pool) : PoolAction → Option Pool
  | .cancel => some { p with cancelled := true }
  | .halt => if p.cancelled && !p.halted then some { p with halted := true } else none
  | .commit =>
      if !p.closed && !p.committed && !p.halted && p.handed < plan.size then
        some { p with committed := true }
      else none
  | .hand =>
      if p.committed && p.hasRoom plan then
        some { p with handed := p.handed + 1, committed := false, waiting := p.waiting ++ [p.handed] }
      else none
  | .close =>
      if !p.closed && !p.committed && (p.halted || p.handed == plan.size) then
        some { p with closed := true }
      else none
  | .check i =>
      if p.waiting.contains i then
        if p.halted then some { p with waiting := p.waiting.erase i, refused := true }
        else some { p with waiting := p.waiting.erase i, working := p.working ++ [i] }
      else none
  | .finish i =>
      if p.working.contains i then
        let reported := p.reported ++ [i]
        some { p with
          working := p.working.erase i
          reported := reported
          cancelled := p.cancelled || plan.cancelAt == some reported.length }
      else none

/-- The answer, once nothing is left to do. -/
def answer? (p : Pool) : Option PoolAnswer :=
  if p.closed && p.tasks == 0 then
    some (if p.refused || p.cancelled then .interrupted else .done p.reported)
  else none

/-- The next action when a cancellation is known at once and tasks take turns in the order they
    were handed out: work goes before looking, looking before handing out. -/
def turn (p : Pool) (plan : Plan) : PoolAction :=
  if p.cancelled && !p.halted then .halt
  else match p.working, p.waiting with
    | i :: _, _ => .finish i
    | [], i :: _ => .check i
    | [], [] =>
        if p.committed then .hand
        else if p.halted || p.handed == plan.size then .close
        else .commit

/-- Take turns, at most so many. -/
def runFor (plan : Plan) : Nat → Pool → Pool
  | 0, p => p
  | turns + 1, p =>
      match p.answer? with
      | some _ => p
      | none =>
          match p.step? plan (p.turn plan) with
          | some next => runFor plan turns next
          | none => p

/-- Take turns until there is an answer: four for each position, one to halt and one to close. -/
def run (plan : Plan) (cancelled : Bool) : Pool :=
  runFor plan (4 * plan.size + 2) (start cancelled)

end Pool

/-- The entries of a list at the reported positions, nothing elsewhere. -/
def filledSlots {α : Type} (work : List α) (reported : List Nat) : List (Option α) :=
  work.mapIdx fun i a => if reported.contains i then some a else none

end TypeBounds
