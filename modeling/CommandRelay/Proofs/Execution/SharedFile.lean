import CommandRelay.Proofs.Execution.Closing
import CommandRelay.Proofs.Execution.LostOutput
import CommandRelay.Proofs.Relay.LeadingFile

/-!
# One file for both channels

A run opens one file for its two channels if their targets are spelled alike, and one for each else
(`Redirects.openTargets_both`). A file that both channels share gets all that is written on either
of them, in the order in which it is written, however the channels are interleaved and whatever
disturbs the run (`alike_targets_share`). Two targets that differ in their spelling alone are opened
twice, and what is written through one overwrites what is written through the other
(`unlike_targets_overwrite`).
-/

namespace CommandRelay

namespace Redirects

variable {s s' : Session} {faults : FileFaults} {c : Command} {files : Redirects}

/-- Two targets have one sink if they are spelled alike, and else one each. -/
theorem openTargets_both (hout : c.stdoutTarget ≠ []) (herr : c.stderrTarget ≠ [])
    (h : openTargets true faults c s = (s', .ok files)) :
    (c.stderrTarget = c.stdoutTarget ∧ HasOpened [c.stdoutTarget] s s' ∧
        files = ⟨some s.outlets.handles.length, some s.outlets.handles.length⟩) ∨
      c.stderrTarget ≠ c.stdoutTarget ∧ HasOpened [c.stdoutTarget, c.stderrTarget] s s' ∧
        files = ⟨some s.outlets.handles.length, some (s.outlets.handles.length + 1)⟩ := by
  unfold openTargets at h
  rw [if_neg fun hnone => hout hnone.1, Bool.not_true, if_neg nofun, if_neg hout] at h
  rcases openTarget_cases c.stdoutTarget s with
    ⟨s₁, hopen, h₁⟩ | ⟨s₁, e, hopen, -⟩ | ⟨fault, -, hopen⟩ <;> rw [hopen] at h
  · simp only [openSecond, if_neg herr] at h
    by_cases halike : c.stderrTarget = c.stdoutTarget
    · rw [if_pos halike] at h
      obtain ⟨rfl, hfiles⟩ := Prod.mk.inj h
      obtain rfl := Except.ok.inj hfiles
      exact .inl ⟨halike, h₁, rfl⟩
    · rw [if_neg halike] at h
      rcases openTarget_cases c.stderrTarget s₁ with
        ⟨s₂, hopen, h₂⟩ | ⟨s₂, e, hopen, -⟩ | ⟨fault, -, hopen⟩ <;> rw [hopen] at h
      · obtain ⟨rfl, hfiles⟩ := Prod.mk.inj h
        obtain rfl := Except.ok.inj hfiles
        refine .inr ⟨halike, h₁.trans h₂, ?_⟩
        rw [h₁.handles, List.length_append]
        rfl
      · cases (Prod.mk.inj h).2
      · cases (Prod.mk.inj h).2
  · cases (Prod.mk.inj h).2
  · cases (Prod.mk.inj h).2

end Redirects

/-! ## All calls are calls to a shared sink -/

theorem callsTo_of_shared {trees : PerChannel SinkTree} {i : Nat}
    (h : ∀ ch, i ∈ (trees.get ch).leaves) (calls : List (Channel × Sink.Call)) :
    callsTo trees i calls = calls.map (·.2) := by
  rw [callsTo, ← List.filterMap_eq_map]
  congr 1
  funext c
  exact if_pos (h c.1)

namespace Run

variable {x : Executor} {options : RunOptions} {consoles : Consoles} {w : Surroundings}
  {check : Check} {c : Command} {s : Session} {files : Redirects} {r r' : Relay}
  {ts : List Relay.Turn}

/-- The sinks of a run are as they were before it when an authority that leaves them alone has
answered. -/
theorem sinks_of_check (hcheck : ∀ s name, (check s name).1.outlets.sinks = s.outlets.sinks)
    {asked : Session} {answer : Except Failure Unit}
    (hasked : check ((s.emit (.consulted c.name)).cancelIf w.whileAuthorizing) c.name =
      (asked, answer)) :
    asked.outlets.sinks = s.outlets.sinks := by
  have h := hcheck ((s.emit (.consulted c.name)).cancelIf w.whileAuthorizing) c.name
  rw [hasked] at h
  exact h.trans (congrArg Outlets.sinks (Session.stirs_cancelIf _ _).outlets)

/-- Between the opening of its targets and its relay, a run neither opens nor closes a file. -/
theorem exists_opened_of_begin (h : begin x options consoles w check c s = .relaying files r) :
    ∃ asked s₂, check ((s.emit (.consulted c.name)).cancelIf w.whileAuthorizing) c.name =
        (asked, .ok ()) ∧
      Redirects.openTargets options.redirect w.fileFaults c asked = (s₂, .ok files) ∧
      s₂.Holds r.session := by
  rcases hcheck : check ((s.emit (.consulted c.name)).cancelIf w.whileAuthorizing) c.name with
    ⟨s₁, f | ⟨⟩⟩
  · cases (begin_of_refused hcheck).symm.trans h
  · rcases hopen : Redirects.openTargets options.redirect w.fileFaults c s₁ with ⟨s₂, f | files₂⟩
    · cases (begin_of_unopened hcheck hopen).symm.trans h
    · have hbegins := beginsOpened x options consoles w c files₂ s₂
      rw [← begin_of_opened hcheck hopen, h] at hbegins
      cases hbegins with
      | launched _ _ hspawn =>
          have hstarted : Executing x options consoles w c files s₂ (started x consoles c s₂) :=
            Executing.announce (.noted .opened .info _) .start
          have hnothing (r : Relay) : r.pursue [] = some r := rfl
          exact ⟨s₁, s₂, rfl, hopen, (hstarted.relaying hspawn (hnothing _)).holds⟩

/-- The files that a relay begins with if both channels have targets. -/
theorem begin_both (hcheck : ∀ s name, (check s name).1.outlets.sinks = s.outlets.sinks)
    (hallowed : options.redirect = true) (hout : c.stdoutTarget ≠ []) (herr : c.stderrTarget ≠ [])
    (hbegin : begin x options consoles w check c s = .relaying files r) :
    (c.stderrTarget = c.stdoutTarget ∧
        files = ⟨some s.outlets.handles.length, some s.outlets.handles.length⟩ ∧
        r.session.outlets.handles = s.outlets.handles ++ [some (c.stdoutTarget, false)]) ∨
      c.stderrTarget ≠ c.stdoutTarget ∧
        files = ⟨some s.outlets.handles.length, some (s.outlets.handles.length + 1)⟩ ∧
        r.session.outlets.handles =
          s.outlets.handles ++ [some (c.stdoutTarget, false), some (c.stderrTarget, false)] := by
  obtain ⟨asked, s₂, hasked, hopen, hholds⟩ := exists_opened_of_begin hbegin
  have hhandles : asked.outlets.handles = s.outlets.handles :=
    congrArg (List.map Sink.handle?) (sinks_of_check hcheck hasked)
  rw [hallowed] at hopen
  have hboth := Redirects.openTargets_both hout herr hopen
  rw [hhandles] at hboth
  rcases hboth with ⟨halike, hopened, hfiles⟩ | ⟨hother, hopened, hfiles⟩
  · refine .inl ⟨halike, hfiles, ?_⟩
    rw [hholds.handles, hopened.handles, hhandles]
    rfl
  · refine .inr ⟨hother, hfiles, ?_⟩
    rw [hholds.handles, hopened.handles, hhandles]
    rfl

/-- In the composites of both channels, a file that both are redirected to stands in front. -/
theorem exists_leaves_of_shared {i : Nat} {child : Child} {s' : Session}
    (hfile : ∀ ch, files.get ch = some i) (ch : Channel) : ∃ rest,
      ((relay x options consoles w c files child s').trees.get ch).leaves = i :: rest := by
  rw [relay_trees_get, tree, SinkTree.leaves_group, hfile ch]
  exact ⟨_, rfl⟩

theorem mem_leaves_of_shared {i : Nat} {child : Child} {s' : Session}
    (hfile : ∀ ch, files.get ch = some i) (ch : Channel) :
    i ∈ ((relay x options consoles w c files child s').trees.get ch).leaves := by
  obtain ⟨rest, h⟩ : ∃ rest,
      ((relay x options consoles w c files child s').trees.get ch).leaves = i :: rest :=
    exists_leaves_of_shared hfile ch
  rw [h]
  exact List.mem_cons_self

/-- A file that both channels are redirected to gets the data of every call that writes, whatever
the schedule is, but for a call that it refuses itself as it is planned. -/
theorem exists_gathers_of_shared {i : Nat} {names : List Text} {child : Child} {s' : Session}
    (hstarts : (relay x options consoles w c files child s').Starts)
    (hapart : Apart options consoles files) (hfresh : s'.FreshFile w.fileFaults i)
    (hfile : ∀ ch, files.get ch = some i)
    (hsole : (relay x options consoles w c files child s').Sole i names)
    (hfollow : (relay x options consoles w c files child s').follow ts = some r') :
    ∃ calls refused, r'.session.calls =
        (relay x options consoles w c files child s').session.calls ++
          (calls ++ Option.toList refused) ∧
      (refused ≠ none →
        (relay x options consoles w c files child s').refusals ts ≠ [] ∧
          ∃ refusal ∈ w.fileFaults.refusals, .system refusal.2.2 ∈
            (relay x options consoles w c files child s').refusalsBy i ts) ∧
      Stores x consoles w c files r' i names (calls.filterMap (·.2.data?)).flatten := by
  have hflat := isFlat_relay x w c child s' hapart
  have hfiled := filed_of_fresh
    (hfresh.of_eq (relay_outlets x options consoles w c files child s')) hsole
  obtain ⟨calls, refused, hgathers, hrefused⟩ :=
    hfiled.gathers.follow hflat (fun ch _ => exists_leaves_of_shared hfile ch)
      (hstarts.course fun ch => (hflat ch).isRow) (absurd rfl) hfollow
  obtain ⟨content, waiting, howns, happ⟩ := hgathers.owns
  refine ⟨calls, refused, hgathers.made, fun hne => ?_, ?_⟩
  · obtain ⟨hfaults, hby⟩ := hrefused hne
    obtain ⟨e, hmem, hplans⟩ := hby.resolve_left (absurd rfl)
    obtain ⟨refusal, hrefusal, rfl⟩ := exists_refusal_of_plans x consoles w c hfresh rfl hplans
    exact ⟨hfaults, refusal, hrefusal, hmem⟩
  · rw [List.nil_append, callsTo_of_shared (mem_leaves_of_shared hfile), List.filterMap_map] at happ
    have hstores := stores_of_owns x consoles w c howns (hfile .stdout) fun _ =>
      exists_refusal_of_plans x consoles w c hfresh (Relay.planned_follow hfollow)
    rw [happ] at hstores
    exact hstores

/-- Once the output of an undisturbed run has been copied, the calls that write are all that its
child has written on each channel, and a file that both are redirected to holds just that. -/
theorem written_of_shared {i : Nat} {names : List Text} {child : Child} {s' : Session}
    {calls : List (Channel × Sink.Call)} (hapart : Apart options consoles files)
    (hfresh : s'.FreshFile w.fileFaults i) (hfile : ∀ ch, files.get ch = some i)
    (hsole : (relay x options consoles w c files child s').Sole i names)
    (hfollow : (relay x options consoles w c files child s').follow ts = some r')
    (hcalls : r'.session.calls =
      (relay x options consoles w c files child s').session.calls ++ calls)
    (horderly : ∀ ch,
      Move.Orderly ch (relay x options consoles w c files child s').child.moves)
    (hu : r'.Undisturbed) (hp : r'.phase.isCopying = false) :
    Holds x consoles w c files r' names (calls.filterMap (·.2.data?)).flatten ∧
      ∀ ch, (writesOn ch calls).flatten =
        Move.written ch (relay x options consoles w c files child s').child.moves := by
  have hquiet := (hu.of_advances (Relay.follow_advances hfollow)).notCancelled
  have hflat := isFlat_relay x w c child s' hapart
  obtain ⟨made, hmade, hcalm, haccounts⟩ :=
    (relay_fresh x options consoles w hquiet).accounts_of_follow hflat horderly hfollow hu
  obtain ⟨copies, hcopied⟩ := haccounts.copied hcalm hmade hp
  obtain rfl := List.append_cancel_left (hcalls.symm.trans hcopied.calls)
  constructor
  · have howns := hcopied.files i names (filed_of_fresh
      (hfresh.of_eq (relay_outlets x options consoles w c files child s')) hsole)
    rw [← data_copyCalls (chunksAt _ i copies), ← callsTo_copies,
      callsTo_of_shared (mem_leaves_of_shared hfile), List.filterMap_map] at howns
    exact holds_of_owns howns
  · intro ch
    rw [writesOn_copies]
    exact hcopied.bytes ch

/-- The two channels of a run have one sink if and only if their targets are spelled alike. Then one
file has been opened, and whatever the schedule is, this file, if it is a regular one and nobody
else writes to it, holds by the end of the run what has been written on either channel, call after
call; nothing of it is overwritten, and nothing is missing but what the file itself refuses as it is
planned: one call, after which there is no other, or what still waits for it when it is closed. If
nothing went wrong, it holds all output of the child. -/
theorem alike_targets_share
    (hcheck : ∀ s name, (check s name).1.outlets.sinks = s.outlets.sinks)
    (hconsoles : options.echo = true → ∀ ch, consoles.get ch < s.outlets.sinks.length)
    (hallowed : options.redirect = true) (hout : c.stdoutTarget ≠ []) (herr : c.stderrTarget ≠ [])
    (hbegin : begin x options consoles w check c s = .relaying files r) :
    (files.stdout = files.stderr ↔ c.stderrTarget = c.stdoutTarget) ∧
    (c.stderrTarget = c.stdoutTarget →
      ∃ i, files = ⟨some i, some i⟩ ∧ i = s.outlets.handles.length ∧
        r.session.outlets.handles = s.outlets.handles ++ [some (c.stdoutTarget, false)] ∧
        ∀ ts r' names, r.follow ts = some r' → r.Sole i names →
          ∃ calls refused, r'.session.calls = r.session.calls ++ (calls ++ Option.toList refused) ∧
            (refused ≠ none →
              ∃ refusal ∈ w.fileFaults.refusals, .system refusal.2.2 ∈ r.refusalsBy i ts) ∧
            Stores x consoles w c files r' i names (calls.filterMap (·.2.data?)).flatten ∧
            ((∀ ch, Move.Orderly ch r.child.moves) → r'.Undisturbed →
              r'.phase.isCopying = false → refused = none ∧
                Holds x consoles w c files r' names (calls.filterMap (·.2.data?)).flatten ∧
                ∀ ch, (writesOn ch calls).flatten = Move.written ch r.child.moves)) := by
  have hstarts : r.Starts := starts_of_begin hbegin
  obtain ⟨child, asked, s', rfl, hasked, hfresh⟩ := begin_eq_relaying x options consoles w hbegin
  have hapart : Apart options consoles files := by
    refine apart_of_new hconsoles fun i hi => ?_
    rw [← sinks_of_check hcheck hasked]
    exact (hfresh i hi).2
  rcases begin_both hcheck hallowed hout herr hbegin with
    ⟨halike, rfl, hhandles⟩ | ⟨hother, rfl, hhandles⟩
  · refine ⟨⟨fun _ => halike, fun _ => rfl⟩, fun _ =>
      ⟨_, rfl, rfl, hhandles, fun ts r' names hfollow hsole => ?_⟩⟩
    have hflat := isFlat_relay x w c child s' hapart
    have hfile (ch : Channel) : Redirects.get ⟨some s.outlets.handles.length,
        some s.outlets.handles.length⟩ ch = some s.outlets.handles.length := by
      cases ch <;> rfl
    have hnew := (hfresh _ (.inl rfl)).1
    obtain ⟨calls, refused, hcalls, hrefused, hstores⟩ :=
      exists_gathers_of_shared hstarts hapart hnew hfile hsole hfollow
    refine ⟨calls, refused, hcalls, fun hne => (hrefused hne).2, hstores,
      fun horderly hu hp => ?_⟩
    have hnone : refused = none := by
      refine Decidable.byContradiction fun hne => (hrefused hne).1 ?_
      obtain ⟨_, -, hcourse⟩ := (hstarts.course fun ch => (hflat ch).isRow).follow hfollow
      have hraised := hcourse.faulted.raised
      rwa [hu.notLost, hu.notBroken] at hraised
    subst hnone
    rw [Option.toList_none, List.append_nil] at hcalls
    exact ⟨rfl, written_of_shared hapart hnew hfile hsole hfollow hcalls horderly hu hp⟩
  · refine ⟨⟨fun hsame => ?_, fun halike => absurd halike hother⟩, fun halike =>
      absurd halike hother⟩
    simp at hsame

/-! ## Two paths to one file -/

/-- A command with the file `a` for its output, and some path for its errors. -/
def doubled (path : Text) : Command where
  name := "tee"
  stdoutTarget := "a"
  stderrTarget := path
  name_ne := by decide

/-- One piece of output on each channel. -/
def replies : List Move :=
  [.output .stdout (Bytes.ofString "out\n"), .output .stderr (Bytes.ofString "err\n"),
    .close .stdout .quiet, .close .stderr .quiet]

/-- The beginning of a run that redirects both channels. -/
def doubling (path : Text) : Beginning :=
  begin {} { redirect := true } ⟨0, 1, 1⟩ (starting replies) (fun s _ => (s, .ok ()))
    (doubled path) { outlets := { sinks := [.console (.recorded {}), .console (.recorded {})] } }

/-- The content of the file `a` once a run is over. -/
def leftover (path : Text) (files : Redirects) (r : Relay) : Bytes :=
  (complete {} ⟨0, 1, 1⟩ (starting replies) (doubled path) files r).1.outlets.disk.contentAt ["a"]

/-- Two targets that are spelled alike: the file holds both pieces. -/
theorem alike_targets_share_replies :
    ∃ files r ts r' calls, doubling "a" = .relaying files r ∧ r.follow ts = some r' ∧
      r'.isFinished = true ∧ r'.session.calls = r.session.calls ++ calls ∧
      leftover "a" files r' = (calls.filterMap (·.2.data?)).flatten ∧
      leftover "a" files r' = Bytes.ofString "out\nerr\n" ∧
      ∀ ch, (writesOn ch calls).flatten = Move.written ch replies := by
  have hrun : (doubling "a").settlesWith fun files r r' =>
      r.child.moves = replies ∧
        r.session.outlets.sinks.map Sink.place? = [none, none, some (.file ["a"])] ∧
        leftover "a" files r' = Bytes.ofString "out\nerr\n" := by
    decide +kernel
  obtain ⟨files, r, ts, r', hb, hf, hu, hfin, hmoves, hplaces, hleft⟩ :=
    Beginning.exists_of_settlesWith hrun
  have hsole : r.Sole 2 ["a"] := by
    refine Relay.sole_of_places hplaces fun change hmem => ?_
    rw [hmoves] at hmem
    simp [replies] at hmem
  have horderly (ch : Channel) : Move.Orderly ch r.child.moves := by
    rw [hmoves]
    cases ch <;> simp [replies, Move.Orderly, Move.Silent]
  have hp : r'.phase.isCopying = false := by
    unfold Relay.isFinished at hfin
    rw [of_decide_eq_true hfin]
    rfl
  obtain ⟨-, hshare⟩ := alike_targets_share (fun _ _ => rfl) (fun _ ch => by cases ch <;> decide)
    rfl (by decide) (by decide) hb
  obtain ⟨_, -, rfl, -, hfollow⟩ := hshare rfl
  obtain ⟨calls, refused, hcalls, -, -, hwritten⟩ := hfollow ts r' _ hf hsole
  obtain ⟨rfl, hholds, hall⟩ := hwritten horderly hu hp
  rw [Option.toList_none, List.append_nil] at hcalls
  rw [hmoves] at hall
  exact ⟨files, r, ts, r', calls, hb, hf, hfin, hcalls, hholds.2, hleft, hall⟩

/-- Two targets that differ by a dot lead to the same file, are opened twice, and the second piece
takes the place of the first. -/
theorem unlike_targets_overwrite :
    Path.plain "./a" = Path.plain "a" ∧
      ∃ files r ts r', doubling "./a" = .relaying files r ∧ r.follow ts = some r' ∧
        r'.Undisturbed ∧ r'.isFinished = true ∧ r.child.moves = replies ∧
        files = ⟨some 2, some 3⟩ ∧
        r.session.outlets.sinks.map Sink.place? =
          [none, none, some (.file ["a"]), some (.file ["a"])] ∧
        leftover "./a" files r' = Bytes.ofString "err\n" := by
  have hrun : (doubling "./a").settlesWith fun files r r' =>
      r.child.moves = replies ∧ files = ⟨some 2, some 3⟩ ∧
        r.session.outlets.sinks.map Sink.place? =
          [none, none, some (.file ["a"]), some (.file ["a"])] ∧
        leftover "./a" files r' = Bytes.ofString "err\n" := by
    decide +kernel
  exact ⟨by decide, Beginning.exists_of_settlesWith hrun⟩

end Run

end CommandRelay
