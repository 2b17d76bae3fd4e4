import CommandRelay.Proofs.Execution.Reaping
import CommandRelay.Proofs.Relay.Standstill

/-!
# Progress of runs

A run whose child ends its channels can only get stuck over a child that resists a kill
(`never_stuck`), whatever happens in whatever order. Over such a child it does get stuck, if the
cancellation is asked for while the queue and a pipe are full, and no turn of anybody frees it
(`stuck_for_good`).
-/

namespace CommandRelay

namespace Run

variable {x : Executor} {options : RunOptions} {consoles : Consoles} {w : Surroundings}
  {check : Check} {c : Command} {s : Session} {files : Redirects} {r r' : Relay}

/-- After a child has been started that ends both of its channels and does not pause for good, let
anything happen that can: turns in any order, requests to cancel among them, and exceptions that
come up in the coordinator. If then nobody can move although the coordinator is not done, it waits
for the exit of the child, the child for room in a pipe, and the reader of the pipe for room in the
queue. That does not happen unless the child resists a kill. -/
theorem never_stuck {os : List Relay.Occurrence}
    (hbegin : begin x options consoles w check c s = .relaying files r)
    (hroom : 0 < r.plan.capacity) (hends : ∀ ch, Move.Ends ch r.child.moves)
    (hawake : .pause none ∉ r.child.moves) (hpursue : r.pursue os = some r') :
    (r'.IsStuck → ∃ ch, r'.Standstill ch) ∧ (¬ r.child.Resists → ¬ r'.IsStuck) := by
  have h := ((starts_of_begin hbegin).upkeep hroom hends hawake).pursue hpursue
  exact ⟨h.standstill, h.not_stuck⟩

/-- A command that writes without end. -/
def yes : Command where
  name := "yes"
  name_ne := by decide

/-- The beginning of a run that starts a given child. -/
def beginsWith (child : Child) : Beginning :=
  begin {} {} ⟨0, 0, 0⟩ { launch _ _ := .ok child } (fun s _ => (s, .ok ())) yes {}

theorem beginsWith_eq (child : Child) :
    ∃ files r, beginsWith child = .relaying files r ∧ r.child = child ∧ r.plan.capacity = 256 ∧
      r.session.isCancelled = false :=
  ⟨_, _, rfl, rfl, rfl, rfl⟩

/-- A child that writes one line. -/
def brief : Child where
  moves := [.output .stdout [Stream.lineFeed], .close .stdout .quiet, .close .stderr .quiet]

theorem never_stuck_brief :
    ∃ files r r', beginsWith brief = .relaying files r ∧ 0 < r.plan.capacity ∧
      (∀ ch, Move.Ends ch r.child.moves) ∧ .pause none ∉ r.child.moves ∧
      r.pursue interruption = some r' ∧ ¬ r.child.Resists ∧ ¬ r'.IsStuck := by
  obtain ⟨files, r, r', hbegin, hchild, hcapacity, hpursue⟩ : ∃ files r r',
      beginsWith brief = .relaying files r ∧ r.child = brief ∧ r.plan.capacity = 256 ∧
        r.pursue interruption = some r' := ⟨_, _, _, rfl, rfl, rfl, rfl⟩
  have hroom : 0 < r.plan.capacity := by
    rw [hcapacity]
    decide
  have hends (ch : Channel) : Move.Ends ch r.child.moves := by
    rw [hchild]
    cases ch with
    | stdout => exact fun data hmem => by cases List.mem_singleton.mp hmem
    | stderr => exact fun data => List.not_mem_nil
  have hawake : .pause none ∉ r.child.moves := by
    rw [hchild]
    decide
  have hkill : ¬ r.child.Resists := by
    rw [hchild]
    exact fun h => nomatch h.1
  exact ⟨files, r, r', hbegin, hroom, hends, hawake, hpursue, hkill,
    (never_stuck hbegin hroom hends hawake hpursue).2 hkill⟩

/-- Let a child resist a kill, and let it write one line more than the queue has room for and then
more than a pipe holds. There is a schedule in which the cancellation is asked for and the run comes
to a standstill, and whatever turns are made after that, the coordinator is not done. -/
theorem stuck_for_good {ch : Channel} {data : Bytes} {rest : List Move} (reason : Text)
    (hbegin : begin x options consoles w check c s = .relaying files r)
    (hquiet : r.session.isCancelled = false) (hrunning : r.child.life = .running)
    (hresists : r.child.Resists)
    (hmoves : r.child.moves =
      List.replicate (r.plan.capacity + 1) (.output ch [Stream.lineFeed]) ++
        .output ch data :: rest)
    (hdata : Feed.pipeCapacity < data.length) :
    ∃ turns r', r.follow turns = some r' ∧ r'.Standstill ch ∧
      ∀ later r'', r'.follow later = some r'' → r''.isFinished = false := by
  obtain ⟨turns, r', hfollow, hstill⟩ :=
    (starts_of_begin hbegin).exists_standstill reason hquiet hrunning hresists hmoves hdata
  exact ⟨turns, r', hfollow, hstill, fun later r'' hlater => (hstill.follow hlater).not_finished⟩

/-- A child of another user, which may not be killed. -/
def foreign : Child where
  moves := List.replicate 257 (.output .stdout [Stream.lineFeed]) ++
    .output .stdout (List.replicate 65537 Stream.lineFeed) ::
      [.close .stdout .quiet, .close .stderr .quiet]
  killFault := some (.coded 1 "Operation not permitted" none)

theorem stuck_for_good_foreign :
    ∃ files r turns r', beginsWith foreign = .relaying files r ∧ r.session.isCancelled = false ∧
      r.child.life = .running ∧ r.child.Resists ∧ r.follow turns = some r' ∧
      r'.Standstill .stdout ∧ ∀ later r'', r'.follow later = some r'' →
        r''.isFinished = false := by
  obtain ⟨files, r, hbegin, hchild, hcapacity, hquiet⟩ := beginsWith_eq foreign
  have hrunning : r.child.life = .running := by rw [hchild]; rfl
  have hresists : r.child.Resists := by rw [hchild]; exact ⟨rfl, rfl⟩
  have hmoves : r.child.moves =
      List.replicate (r.plan.capacity + 1) (.output .stdout [Stream.lineFeed]) ++
        .output .stdout (List.replicate 65537 Stream.lineFeed) ::
          [.close .stdout .quiet, .close .stderr .quiet] := by
    rw [hchild, hcapacity]
    rfl
  have hdata : Feed.pipeCapacity < (List.replicate 65537 Stream.lineFeed).length := by
    rw [List.length_replicate]
    decide
  obtain ⟨turns, r', hfollow, hstill, hlast⟩ :=
    stuck_for_good "stop" hbegin hquiet hrunning hresists hmoves hdata
  exact ⟨files, r, turns, r', hbegin, hquiet, hrunning, hresists, hfollow, hstill, hlast⟩

end Run

end CommandRelay
