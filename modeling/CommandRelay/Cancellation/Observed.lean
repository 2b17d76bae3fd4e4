import CommandRelay.Cancellation.Basic

/-! # Observed cancellations

Who asks for a cancellation holds its lock meanwhile, and so does who adds or removes a callback;
who looks at it does so without the lock. Here each assignment and each look is a turn of its own,
so a look may fall between the two assignments of a request: the reason is stored first, the mark
after it. `Observed.follow` is a schedule of such turns. What happened stands in `record`, in order.

A thread makes requests one after the other. The callbacks to notify are called by the thread that
has them, once it has released the lock, and what they do are requests of this thread as well. A
deadline that comes due asks for the cancellation, unless it was closed before.

## Implementation notes

A thread that is inside the lock has a place there, and no two threads are inside: `inside` names
the thread together with its place. An error outside of the lock makes a thread skip requests; how
many it skips is left to the schedule (`Turn.abandon`), and so is when a wait ends without a
cancellation (`Turn.giveUp`). -/

namespace CommandRelay.Cancellation

/-- What is done while the lock is held. -/
inductive Region (κ : Type) where
  | cancel (reason : Text)
  | add (callback : κ)
  | remove (callback : κ)
  deriving DecidableEq, Repr

/-- What a thread asks for. -/
inductive Request (κ : Type) where
  | under (region : Region κ)
  | call (callback : κ)
  | deadline
  | close
  | lookFired
  | lookReason
  | wait
  deriving DecidableEq, Repr

/-- What the thread that is inside the lock does next. -/
inductive Place (κ : Type) where
  | testing (reason : Text)
  | storing (reason : Text)
  | marking
  | copying
  | probing (callback : κ)
  | appending (callback : κ)
  | erasing (callback : κ)
  | leaving (calls : List κ)
  deriving DecidableEq, Repr

/-- What a look shows, or the end of a wait. -/
inductive Sight where
  | fired (answer : Bool)
  | reason (answer : Option Text)
  | waited (answer : Bool)
  deriving DecidableEq, Repr

/-- What happens: a request takes the lock, one of the two assignments is made, a deadline is due or
closed, or something is seen. -/
inductive Event where
  | entered (reason : Text)
  | stored (reason : Text)
  | marked
  | due
  | closed
  | saw (sight : Sight)
  deriving DecidableEq, Repr

/-- A turn of a thread: it goes on, ends a wait, or skips requests. -/
inductive Turn where
  | go (thread : Nat)
  | giveUp (thread : Nat)
  | abandon (thread : Nat) (skipped : Nat)
  deriving DecidableEq, Repr

variable {κ : Type}

/-- Where a region begins. -/
def Region.enter : Region κ → Place κ
  | .cancel reason => .testing reason
  | .add k => .probing k
  | .remove k => .erasing k

/-- What is recorded of a region that begins. -/
def Region.entry : Region κ → List Event
  | .cancel reason => [.entered reason]
  | .add _ | .remove _ => []

variable [DecidableEq κ]

/-- One turn inside the lock: the cancellation afterwards, what is recorded, and the next place. The
lock is not released here. -/
def Place.advance (c : Cancellation κ) : Place κ → Cancellation κ × List Event × Place κ
  | .testing reason => (c, [], if c.fired then .leaving [] else .storing reason)
  | .storing reason => ({ c with reason := some reason }, [.stored reason], .marking)
  | .marking => ({ c with fired := true }, [.marked], .copying)
  | .copying => (c, [], .leaving c.callbacks)
  | .probing k => (c, [], if c.fired then .leaving [k] else .appending k)
  | .appending k => ({ c with callbacks := c.callbacks ++ [k] }, [], .leaving [])
  | .erasing k => ({ c with callbacks := c.callbacks.erase k }, [], .leaving [])
  | .leaving calls => (c, [], .leaving calls)

/-- What the threads share, who is inside the lock, what happened, and the requests that each thread
has yet to make. -/
structure Observed (κ : Type) where
  state : Cancellation κ := {}
  inside : Option (Nat × Place κ) := none
  armed : Bool := true
  record : List Event := []
  threads : List (List (Request κ)) := []
  deriving DecidableEq, Repr

namespace Observed

/-- Threads that make requests one after the other, before any of them has begun. -/
def ofRequests (threads : List (List (Request κ))) : Observed κ :=
  { threads }

/-- The place of a thread inside the lock. -/
def place? (o : Observed κ) (thread : Nat) : Option (Place κ) :=
  match o.inside with
  | some (holder, place) => if holder = thread then some place else none
  | none => none

/-- A thread makes way for what it does next, and something may be recorded. -/
def note (o : Observed κ) (thread : Nat) (requests : List (Request κ)) (events : List Event) :
    Observed κ :=
  { o with record := o.record ++ events, threads := o.threads.set thread requests }

/-- One turn of the thread inside the lock. When it leaves, it has callbacks to call. -/
def proceed (o : Observed κ) (thread : Nat) : Place κ → Observed κ
  | .leaving calls =>
    { o with inside := none, threads := o.threads.modify thread (calls.map .call ++ ·) }
  | place =>
    let (state, events, next) := place.advance o.state
    { o with state, inside := some (thread, next), record := o.record ++ events }

/-- A thread takes up a request, if it can; `body` gives what the callbacks do. -/
def take (body : κ → List (Request κ)) (o : Observed κ) (thread : Nat)
    (rest : List (Request κ)) : Request κ → Option (Observed κ)
  | .under region =>
    if o.inside.isSome then none
    else some { o.note thread rest region.entry with inside := some (thread, region.enter) }
  | .call k => some (o.note thread (body k ++ rest) [])
  | .deadline =>
    if o.armed then some (o.note thread (.under (.cancel deadlineReason) :: rest) [.due])
    else some (o.note thread rest [])
  | .close => some { o.note thread rest [.closed] with armed := false }
  | .lookFired => some (o.note thread rest [.saw (.fired o.state.fired)])
  | .lookReason => some (o.note thread rest [.saw (.reason o.state.reason)])
  | .wait => if o.state.fired then some (o.note thread rest [.saw (.waited true)]) else none

/-- One turn, if it can be made. -/
def step (body : κ → List (Request κ)) (o : Observed κ) : Turn → Option (Observed κ)
  | .go thread =>
    match o.place? thread, o.threads[thread]? with
    | some place, _ => some (o.proceed thread place)
    | none, some (request :: rest) => o.take body thread rest request
    | none, _ => none
  | .giveUp thread =>
    match o.place? thread, o.threads[thread]? with
    | none, some (.wait :: rest) => some (o.note thread rest [.saw (.waited false)])
    | _, _ => none
  | .abandon thread skipped =>
    match o.place? thread, o.threads[thread]? with
    | none, some requests => some (o.note thread (requests.drop skipped) [])
    | _, _ => none

/-- The turns of a schedule. -/
def follow (body : κ → List (Request κ)) (o : Observed κ) : List Turn → Option (Observed κ)
  | [] => some o
  | turn :: schedule => (o.step body turn).bind fun o => o.follow body schedule

end Observed

end CommandRelay.Cancellation
