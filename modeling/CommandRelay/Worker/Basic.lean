import CommandRelay.Authorization.Basic
import CommandRelay.Configuration.Settings
import CommandRelay.Execution.Run

/-! # What settings mean for a worker

The settings of a worker give the authorizer that it asks, the options of every run and the
deadline that a run gets. -/

namespace CommandRelay.Settings

/-- Who may run. -/
def authorizer (s : Settings) : Authorizer :=
  { whitelist := s.whitelist, privileged := s.privileged }

/-- Where output goes. -/
def runOptions (s : Settings) : RunOptions :=
  { echo := s.echo, redirect := s.redirect }

/-- The deadline of a run. -/
def deadline (s : Settings) : Except AccessFault Deadline :=
  match s.timeout with
  | some t => Deadline.after t
  | none => .ok none

/-- The timers that a run starts with. -/
def timers (s : Settings) : List Timer :=
  match s.deadline with
  | .ok (some left) => [⟨left, Cancellation.deadlineReason⟩]
  | _ => []

end CommandRelay.Settings
