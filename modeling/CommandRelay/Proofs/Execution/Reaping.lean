import CommandRelay.Proofs.Execution.FreshFiles
import CommandRelay.Proofs.Execution.Staging
import CommandRelay.Proofs.Relay.Interruption

/-!
# The exit of the child of a run

Whatever happens once a run has started its child, turns of the relay and exceptions in it, the
child is killed only as long as its exit has not been seen, and its exit has been seen when the run
goes on from the relay (`kill_before_reap`). So no kill can hit another process that has come to
have the same number.
-/

namespace CommandRelay

namespace Run

variable {x : Executor} {options : RunOptions} {consoles : Consoles} {w : Surroundings}
  {check : Check} {c : Command} {s : Session}

/-- What a run still does after its relay is done is to close files. -/
theorem complete_closes (x : Executor) (consoles : Consoles) (w : Surroundings) (c : Command)
    (files : Redirects) (r : Relay) :
    Redirects.Closes r.session (complete x consoles w c files r).1 := by
  have hcancellation : (conclude x consoles w c r).1.cancellation = r.session.cancellation :=
    conclude_induction x consoles w
      (p := fun s => s.cancellation = r.session.cancellation) (fun _ _ _ hs => hs)
      (fun _ _ hs => (cancellation_announce ..).trans hs) rfl
  have hconclude : Redirects.Closes r.session (conclude x consoles w c r).1 :=
    ⟨.of_eq (effects_conclude x consoles w r), hcancellation⟩
  exact hconclude.trans (finish_closes w files _ _)

/-- The relay that a run begins with has only just started. -/
theorem starts_of_begin {files : Redirects} {r : Relay}
    (h : begin x options consoles w check c s = .relaying files r) : r.Starts := by
  obtain ⟨child, asked, s', rfl, -⟩ := begin_eq_relaying x options consoles w h
  exact Relay.starts_listen ..

end Run

namespace Relay

variable {r r' : Relay} {tr : List Effect}

/-- A relay that has only just started has seen no exit, unless it was started with one. -/
theorem Starts.reaps (h : r.Starts) (hlaunched : r.child.isReaped = false) : Reaps [] r := by
  refine ⟨.nil, ?_, ?_, ?_⟩
  · simp [hlaunched]
  · rw [hlaunched]
    exact nofun
  · rw [h.phase]
    exact nofun

/-- Once the exit of the child has been seen, nothing that happens kills it. -/
theorem Reaps.no_kill {os : List Occurrence} (h : Reaps tr r) (hreaped : r.child.isReaped = true)
    (ho : r.pursue os = some r') :
    ∃ more, r'.session.effects = r.session.effects ++ more ∧ ∀ group, .killed group ∉ more := by
  obtain ⟨more, he, h'⟩ := h.pursue ho
  have hcross := (List.pairwise_append.mp h'.order).2.2 .reaped (h.reaped.mpr hreaped)
  exact ⟨more, he, fun group hmem => hcross _ hmem rfl group rfl⟩

end Relay

namespace Run

variable {x : Executor} {options : RunOptions} {consoles : Consoles} {w : Surroundings}
  {check : Check} {c : Command} {s : Session}

/-- After a child has been started whose exit nobody has seen, let anything happen that can: turns,
and exceptions that come up in the coordinator. Once the exit has been seen, no kill is issued any
more, and when the coordinator is done, the exit has been seen. It is the coordinator that sees it,
and only after the child has exited. So what the run gives comes after the exit, and every kill
before it. -/
theorem kill_before_reap {files : Redirects} {r r' : Relay} {os : List Relay.Occurrence}
    (hbegin : begin x options consoles w check c s = .relaying files r)
    (hlaunched : r.child.isReaped = false) (hpursue : r.pursue os = some r') :
    (r'.child.isReaped = true → ∀ later r'', r'.pursue later = some r'' →
      ∃ more, r''.session.effects = r'.session.effects ++ more ∧
        ∀ group, .killed group ∉ more) ∧
    (r'.isFinished = true → r'.child.isReaped = true) ∧
    (∀ o next, r'.meet o = some next → r'.child.isReaped = false → next.child.isReaped = true →
      o = .turn .coordinator ∧
        ∃ code, r'.child.life = .exited code ∧ next.child.life = .reaped code) ∧
    ∀ s' answer, run x options consoles w check c s = some (s', answer) →
      ∃ tr, s'.effects = r.session.effects ++ tr ∧ .reaped ∈ tr ∧ Effect.KillsFirst tr := by
  have hreaps := (starts_of_begin hbegin).reaps hlaunched
  have hdone {os : List Relay.Occurrence} {r₁ : Relay} (h : r.pursue os = some r₁)
      (hfin : r₁.isFinished = true) : r₁.child.isReaped = true := by
    obtain ⟨tr, -, h₁⟩ := hreaps.pursue h
    refine h₁.done ?_
    unfold Relay.isFinished at hfin
    rw [of_decide_eq_true hfin]
    rfl
  refine ⟨fun hreaped later r'' hlater => ?_, hdone hpursue,
    fun o next ho hlive hreaped => Relay.life_of_meet ho hlive hreaped, fun s' answer hrun => ?_⟩
  · obtain ⟨tr, -, h⟩ := hreaps.pursue hpursue
    exact h.no_kill hreaped hlater
  · rw [run_eq_begin, hbegin] at hrun
    obtain ⟨r₁, hsettle, hcomplete⟩ := Option.map_eq_some_iff.mp hrun
    obtain ⟨ts, hfollow, hfin⟩ := Relay.exists_follow_of_settle hsettle
    rw [← Relay.pursue_map_turn] at hfollow
    obtain ⟨tr, he, h₁⟩ := hreaps.pursue hfollow
    obtain ⟨more, hclosed, hmore⟩ := (complete_closes x consoles w c files r₁).effects
    rw [hcomplete, he] at hclosed
    refine ⟨tr ++ more, by rw [hclosed, List.append_assoc], ?_, ?_⟩
    · exact List.mem_append_left _ (h₁.reaped.mpr (hdone hfollow hfin))
    · refine h₁.order.append fun e hmem => ?_
      obtain ⟨path, rfl⟩ := hmore e hmem
      exact ⟨nofun, nofun⟩

/-- A command without redirections. -/
def sleeping : Command where
  name := "sleep"
  name_ne := by decide

/-- A child that never ends by itself. -/
def sleeper : Surroundings where
  launch _ _ := .ok { moves := [.pause none] }

/-- The beginning of a run of a child that never ends by itself. -/
def sleepingBegins : Beginning :=
  begin {} {} ⟨0, 0, 0⟩ sleeper (fun s _ => (s, .ok ())) sleeping {}

/-- An exception while output is copied has the child killed; then its exit is seen. -/
def interruption : List Relay.Occurrence :=
  [.exception .endless, .turn .coordinator, .turn .coordinator, .turn .coordinator]

/-- Whether a run begins with a relay whose child has not been reaped, and an interruption leads it
to its end by given effects. -/
def Beginning.pursues (b : Beginning) (os : List Relay.Occurrence) (tr : List Effect) : Bool :=
  match b with
  | .ended .. => false
  | .relaying _ r => !r.child.isReaped && (r.pursue os).any fun r' =>
      r'.isFinished && r'.session.effects = r.session.effects ++ tr

theorem kill_before_reap_interrupted :
    ∃ files r r', sleepingBegins = .relaying files r ∧ r.child.isReaped = false ∧
      r.pursue interruption = some r' ∧ r'.isFinished = true ∧ r'.child.isReaped = true ∧
      r'.session.effects = r.session.effects ++ [.killed true, .reaped] := by
  have hrun : sleepingBegins.pursues interruption [.killed true, .reaped] = true := by
    decide +kernel
  cases hbegin : sleepingBegins with
  | ended =>
      rw [hbegin] at hrun
      cases hrun
  | relaying files r =>
      rw [hbegin, Beginning.pursues, Bool.and_eq_true, Bool.not_eq_true',
        Option.any_eq_true] at hrun
      obtain ⟨hlaunched, r', hpursue, hend⟩ := hrun
      rw [Bool.and_eq_true, decide_eq_true_eq] at hend
      have hreaped := (kill_before_reap hbegin hlaunched hpursue).2.1 hend.1
      exact ⟨files, r, r', rfl, hlaunched, hpursue, hend.1, hreaped, hend.2⟩

end Run

end CommandRelay
