import CommandRelay.Cancellation.Basic

/-! # Programs on a cancellation

Callbacks are programs over the operations of the cancellation they belong to, so calling one may
call others. A thread is a stack of tasks. Each step takes the top task and runs one operation or
unfolds one call, which is the grain at which threads interleave: `Step` is one step of any of
several threads. An error clears the stack down to the nearest shield; below it stands what the
error does not reach. -/

namespace CommandRelay.Cancellation

/-- An operation of a program. -/
inductive Action (κ : Type) where
  | cancel (reason : Text)
  | add (callback : κ)
  | remove (callback : κ)
  | wait (patience : Patience)
  | close
  | raise (message : Text)
  deriving DecidableEq, Repr

/-- A task of a thread. -/
inductive Task (κ : Type) where
  | act (action : Action κ)
  | call (callback : κ)
  | shield
  deriving DecidableEq, Repr

/-- What the threads share: the cancellation, its deadline and the calls made so far. -/
structure Scene (κ : Type) where
  state : Cancellation κ := {}
  deadline : Deadline := none
  called : List κ := []
  deriving DecidableEq, Repr

/-- What a step tells the thread that takes it. -/
inductive Outcome where
  | quiet
  | waited (cancelled : Bool)
  | raised (kind : ErrorKind) (message : Text)
  deriving DecidableEq, Repr

variable {κ : Type} [DecidableEq κ]

/-- What one operation does: the scene afterwards, the tasks it adds and what it tells. -/
def Action.run (scene : Scene κ) : Action κ → Scene κ × List (Task κ) × Outcome
  | .cancel reason =>
    let (state, calls) := scene.state.cancel reason
    ({ scene with state }, calls.map .call, .quiet)
  | .add k =>
    let (state, calls) := scene.state.add k
    ({ scene with state }, calls.map .call, .quiet)
  | .remove k => ({ scene with state := scene.state.remove k }, [], .quiet)
  | .close => ({ scene with deadline := none }, [], .quiet)
  | .raise message => (scene, [], .raised .runtime message)
  | .wait patience =>
    if scene.state.fired then (scene, [], .waited true)
    else
      match patience with
      | .tooLong whole => (scene, [], .raised .overflow (Patience.tooLongMessage whole))
      | .upTo time =>
        if scene.deadline.isDueWithin time then
          let (state, calls) := scene.state.cancel deadlineReason
          ({ scene with state, deadline := none }, calls.map .call ++ [.shield], .waited true)
        else ({ scene with deadline := scene.deadline.elapse time }, [], .waited false)

/-- What is left of a stack that an error clears, and whether a shield stopped it. -/
def unwind : List (Task κ) → List (Task κ) × Bool
  | [] => ([], false)
  | .shield :: rest => (rest, true)
  | _ :: rest => unwind rest

/-- One step of a thread; `body` gives the programs of the callbacks. -/
def step (body : κ → List (Action κ)) (scene : Scene κ) :
    List (Task κ) → Scene κ × List (Task κ) × Outcome
  | [] => (scene, [], .quiet)
  | .shield :: rest => (scene, rest, .quiet)
  | .call k :: rest =>
    ({ scene with called := scene.called ++ [k] }, (body k).map .act ++ rest, .quiet)
  | .act a :: rest =>
    match a.run scene with
    | (scene, added, .raised kind message) =>
      match unwind (added ++ rest) with
      | (stack, true) => (scene, stack, .quiet)
      | (stack, false) => (scene, stack, .raised kind message)
    | (scene, added, outcome) => (scene, added ++ rest, outcome)

/-- One step of one of several threads. -/
inductive Step (body : κ → List (Action κ)) :
    Scene κ × List (List (Task κ)) → Scene κ × List (List (Task κ)) → Prop
  | thread (scene : Scene κ) (before after : List (List (Task κ))) (t : Task κ)
      (stack : List (Task κ)) :
      Step body (scene, before ++ (t :: stack) :: after)
        ((step body scene (t :: stack)).1,
          before ++ (step body scene (t :: stack)).2.1 :: after)

/-- Runs a thread until its stack is empty or an error leaves it; the answer is what the first step
tells, or the error. `fuel` bounds the steps, since callbacks may call each other without end. -/
def run (body : κ → List (Action κ)) :
    Nat → Scene κ → List (Task κ) → Option Outcome → Scene κ × Outcome
  | 0, scene, _, told => (scene, told.getD .quiet)
  | _, scene, [], told => (scene, told.getD .quiet)
  | fuel + 1, scene, stack, told =>
    match step body scene stack with
    | (scene, _, .raised kind message) => (scene, .raised kind message)
    | (scene, stack, outcome) => run body fuel scene stack (some (told.getD outcome))

end CommandRelay.Cancellation
