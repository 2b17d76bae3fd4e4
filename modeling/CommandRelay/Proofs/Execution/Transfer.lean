import CommandRelay.Proofs.Execution.FreshFiles
import CommandRelay.Proofs.Execution.Opening
import CommandRelay.Proofs.Relay.Lossless

/-!
# What a run transfers

The relay of a run begins fresh, with flat composites and empty files, so everything that holds of
undisturbed relays holds of it. `transfer_lossless` puts this into the terms of the run: what the
child writes on a channel reaches the redirect file and the console of the channel byte for byte, as
far as nobody else writes to the file and the console takes bytes. `transfer_differs` shows where
the bytes are others.
-/

namespace CommandRelay

/-- The file of a channel. -/
def Redirects.get (files : Redirects) : Channel → Option Nat
  | .stdout => files.stdout
  | .stderr => files.stderr

theorem Redirects.isFile_get {files : Redirects} {ch : Channel} {i : Nat}
    (h : files.get ch = some i) : files.IsFile i := by
  cases ch with
  | stdout => exact .inl h
  | stderr => exact .inr h

/-- The console that a channel is echoed to. -/
def Consoles.get (consoles : Consoles) : Channel → Nat
  | .stdout => consoles.stdout
  | .stderr => consoles.stderr

/-- A sink that stands in the composite of one channel and not in the other. -/
def PerChannel.OnlyAt (trees : PerChannel SinkTree) (i : Nat) (ch : Channel) : Prop :=
  ∀ ch', i ∈ (trees.get ch').leaves ↔ ch' = ch

/-- A sink that stands in both composites. -/
def PerChannel.AtBoth (trees : PerChannel SinkTree) (i : Nat) : Prop :=
  ∀ ch, i ∈ (trees.get ch).leaves

/-- A redirect file that nothing but its own sink writes to, neither another sink nor the child. -/
structure Relay.Sole (r : Relay) (i : Nat) (names : List Text) : Prop where
  place : ∀ w, r.session.outlets.sinks[i]? = some (.file w) → w.place = .file names
  alone : ∀ j s, r.session.outlets.sinks[j]? = some s → s.place? = some (.file names) → j = i
  untouched : ∀ change, .edit change ∈ r.child.moves → names ≠ change.names

/-- The last sink is the only one that writes to the disk, and the child leaves its file alone. -/
theorem Relay.sole_of_places {r : Relay} {n : Nat} {names : List Text}
    (hplaces : r.session.outlets.sinks.map Sink.place? =
      List.replicate n none ++ [some (.file names)])
    (huntouched : ∀ change, .edit change ∈ r.child.moves → names ≠ change.names) :
    r.Sole n names := by
  have hplace (j : Nat) (s : Sink) (hs : r.session.outlets.sinks[j]? = some s) :
      (List.replicate n none ++ [some (.file names)])[j]? = some s.place? := by
    rw [← hplaces, List.getElem?_map, hs]
    rfl
  refine ⟨fun w hw => ?_, fun j s hs hp => ?_, huntouched⟩
  · have h := hplace n _ hw
    rw [List.getElem?_append_right (by simp)] at h
    simpa [Sink.place?] using h.symm
  · have h := hplace j s hs
    rw [hp] at h
    rcases Nat.lt_trichotomy j n with hlt | heq | hgt
    · simp [List.getElem?_append_left, hlt] at h
    · exact heq
    · rw [List.getElem?_eq_none (by simp; omega)] at h
      cases h

namespace Run

variable (x : Executor) (options : RunOptions) (consoles : Consoles) (w : Surroundings)

/-! ## How a relay begins -/

/-- No file is written to through the sink of a console, if there is an echo. -/
def Apart (files : Redirects) : Prop :=
  options.echo = true → ∀ i, files.IsFile i → ∀ ch, i ≠ consoles.get ch

section Trees

variable (c : Command) (files : Redirects) (child : Child) (s : Session)

theorem relay_trees_get (ch : Channel) :
    (relay x options consoles w c files child s).trees.get ch =
      tree options (files.get ch) (consoles.get ch) := by
  unfold relay
  rw [(Relay.stirs_listen _).rest]
  cases ch <;> rfl

/-- The sinks of a channel are its file, and its console if there is an echo. -/
theorem mem_leaves_relay_iff (ch : Channel) (i : Nat) :
    i ∈ ((relay x options consoles w c files child s).trees.get ch).leaves ↔
      files.get ch = some i ∨ options.echo = true ∧ i = consoles.get ch := by
  rw [relay_trees_get, tree, SinkTree.leaves_group, List.mem_append, Option.mem_toList]
  refine or_congr Iff.rfl ?_
  split <;> simp [*]

variable {options consoles files}

theorem isFlat_relay (h : Apart options consoles files) (ch : Channel) :
    ((relay x options consoles w c files child s).trees.get ch).IsFlat := by
  rw [relay_trees_get]
  refine ⟨_, ?_, rfl⟩
  cases hf : files.get ch with
  | none => split <;> simp
  | some i =>
      split
      · rename_i hecho
        have hne := h hecho i (Redirects.isFile_get hf) ch
        simpa using hne
      · simp

/-- A file stands in the composites of the channels that are redirected to it. -/
theorem mem_leaves_relay_of_isFile {i : Nat} (h : Apart options consoles files)
    (hi : files.IsFile i) (ch : Channel) :
    i ∈ ((relay x options consoles w c files child s).trees.get ch).leaves ↔
      files.get ch = some i := by
  rw [mem_leaves_relay_iff]
  exact or_iff_left fun ⟨hecho, heq⟩ => h hecho i hi ch heq

end Trees

/-- Where nobody has asked for the cancellation, a relay begins fresh. -/
theorem relay_fresh {c : Command} {files : Redirects} {child : Child} {s : Session}
    (hu : (relay x options consoles w c files child s).session.isCancelled = false) :
    (relay x options consoles w c files child s).Fresh := by
  have hs := Relay.stirs_listen
    { plan := { x.plan with name := c.name }
      child
      trees :=
        ⟨tree options files.stdout consoles.stdout, tree options files.stderr consoles.stderr⟩
      session := s
      waitAlarms := w.waitAlarms }
  have hq := hs.quiet hu
  have hrest := hs.rest
  unfold relay
  refine ⟨fun ch => ?_, hq, ?_, ?_, ?_⟩ <;> rw [hrest]
  cases ch <;> rfl

theorem relay_outlets (c : Command) (files : Redirects) (child : Child) (s : Session) :
    (relay x options consoles w c files child s).session.outlets = s.outlets := by
  unfold relay
  rw [(Relay.stirs_listen _).session.outlets]

theorem relay_plan (c : Command) (files : Redirects) (child : Child) (s : Session) :
    (relay x options consoles w c files child s).plan = { x.plan with name := c.name } := by
  unfold relay
  rw [(Relay.stirs_listen _).rest]

/-- The files of a relay that begins are empty, so their content is accounted for. -/
theorem filed_of_fresh {r : Relay} {faults : FileFaults} {i : Nat} {names : List Text}
    (h : r.session.FreshFile faults i) (hs : r.Sole i names) : r.Filed i names [] := by
  obtain ⟨w, hw, h0, hwait, hclosed, hempty, -⟩ := h
  have hp := hs.place w hw
  refine ⟨hs.untouched, [], [], ⟨⟨w, hw, hp, hclosed, hwait, h0, hempty names hp⟩, hs.alone⟩, rfl,
    .inl rfl⟩

/-! ## How a run ends -/

theorem announce_keeps {i : Nat} {names : List Text} {content : Bytes} {s : Session}
    (h : s.outlets.Keeps i names content) (n : Notice) (c : Command) :
    (announce x consoles n c s).1.outlets.Keeps i names content := by
  unfold announce
  split
  · exact h.display _ _
  · exact h

theorem conclude_keeps {i : Nat} {names : List Text} {content : Bytes} {r : Relay}
    (h : r.session.outlets.Keeps i names content) (c : Command) :
    (conclude x consoles w c r).1.outlets.Keeps i names content :=
  conclude_induction x consoles w (p := fun s => s.outlets.Keeps i names content)
    (fun _ _ _ hs => hs) (fun _ n hs => announce_keeps x consoles hs n c) h

theorem closeSink_keeps {i : Nat} {names : List Text} {content : Bytes} {s : Session}
    (faults : FileFaults) (h : s.outlets.Keeps i names content) (j : Nat) :
    (Redirects.closeSink faults s j).1.outlets.Keeps i names content := by
  unfold Redirects.closeSink
  split
  · simp only
    split <;> exact h.close j
  · exact h

theorem closeSinks_keeps {i : Nat} {names : List Text} {content : Bytes} {s : Session}
    (faults : FileFaults) (h : s.outlets.Keeps i names content) (is : List Nat) :
    (Redirects.closeSinks faults s is).1.outlets.Keeps i names content := by
  induction is generalizing s with
  | nil => exact h
  | cons j rest ih => exact ih (closeSink_keeps faults h j)

/-- A file that holds everything keeps it to the end of the run. -/
theorem complete_keeps {i : Nat} {names : List Text} {content : Bytes} {r : Relay}
    (h : r.session.outlets.Keeps i names content) (c : Command) (files : Redirects) :
    (complete x consoles w c files r).1.outlets.Keeps i names content := by
  have hclosed := closeSinks_keeps w.fileFaults (conclude_keeps x consoles w h c) files.sinks
  unfold complete finish Redirects.close
  simp only
  rw [(Redirects.noted_keeps _ _).1]
  exact hclosed

/-! ## What reaches the sinks -/

/-- A file holds bytes, at the moment of a relay and at the end of the run that it leads to. -/
def Holds (c : Command) (files : Redirects) (r : Relay) (names : List Text) (content : Bytes) :
    Prop :=
  r.session.outlets.disk.contentAt names = content ∧
    (complete x consoles w c files r).1.outlets.disk.contentAt names = content

/-- What a relay has transferred from its child to its sinks. `copies` are the chunks in the order
in which they were copied, each with its channel. -/
structure Transferred (options : RunOptions) (c : Command) (files : Redirects) (start : Relay)
    (copies : List (Channel × Bytes)) (r : Relay) : Prop where
  /-- The sinks of a channel are its file, and its console if there is an echo. -/
  sinks : ∀ ch i, i ∈ (start.trees.get ch).leaves ↔
    files.get ch = some i ∨ options.echo = true ∧ i = consoles.get ch
  /-- Both channels have ended, and nothing is left in the queue or in a reader. -/
  drained : r.Drained
  /-- The copied chunks of a channel are those that its reader makes of the output, in order. -/
  order : ∀ ch, chunksOn ch copies = Move.chunks ch start.child.moves
  /-- The copied chunks of a channel are all bytes that the child wrote on it. -/
  bytes : ∀ ch, (chunksOn ch copies).flatten = Move.written ch start.child.moves
  /-- A chunk is written to the composite of its channel, which is flushed before the next one. -/
  calls : r.session.calls = start.session.calls ++ copies.flatMap copy
  /-- A sink of one channel takes the chunks of this channel, in order, each followed by a flush. -/
  own : ∀ ch i s, start.trees.OnlyAt i ch → start.session.outlets.sinks[i]? = some s →
    ∃ s', r.session.outlets.sinks[i]? = some s' ∧
      s.TakesAll (copyCalls (Move.chunks ch start.child.moves)) s' ∧
      Sink.Gains (Move.chunks ch start.child.moves) s s'
  /-- A sink of both channels takes all chunks, in the order of the copying. -/
  shared : ∀ (i : Nat) (s : Sink), start.trees.AtBoth i →
    start.session.outlets.sinks[i]? = some s →
      ∃ s', r.session.outlets.sinks[i]? = some s' ∧ s.TakesAll (copyCalls (copies.map (·.2))) s' ∧
        Sink.Gains (copies.map (·.2)) s s'
  /-- The other sinks are left alone. -/
  others : ∀ (i : Nat) (s : Sink), (∀ ch, i ∉ (start.trees.get ch).leaves) →
    start.session.outlets.sinks[i]? = some s → r.session.outlets.sinks[i]? = some s
  /-- The file of one channel holds what the child wrote on this channel. -/
  ownFile : ∀ ch i names, (∀ ch', files.get ch' = some i ↔ ch' = ch) → start.Sole i names →
    Holds x consoles w c files r names (Move.written ch start.child.moves)
  /-- The file of both channels holds all chunks, in the order of the copying. -/
  sharedFile : ∀ i names, (∀ ch, files.get ch = some i) → start.Sole i names →
    Holds x consoles w c files r names (copies.map (·.2)).flatten

variable {x consoles w}

theorem holds_of_owns {c : Command} {files : Redirects} {r : Relay} {i : Nat} {names : List Text}
    {content : Bytes} (h : r.session.outlets.Owns i names content []) :
    Holds x consoles w c files r names content :=
  ⟨h.keeps.content, (complete_keeps x consoles w h.keeps c files).content⟩

/-- What the relay of a run has copied is transferred to the sinks of the run. -/
theorem transferred_of_copied {options : RunOptions} {c : Command} {files : Redirects}
    {child : Child} {s : Session} {copies : List (Channel × Bytes)} {r : Relay}
    (hapart : Apart options consoles files)
    (hfiles : ∀ i, files.IsFile i → s.FreshFile w.fileFaults i)
    (hd : r.Drained) (hc : (relay x options consoles w c files child s).Copied copies r) :
    Transferred x consoles w options c files (relay x options consoles w c files child s) copies
      r := by
  have hfile {ch : Channel} {i : Nat} {names : List Text} (hi : files.get ch = some i)
      (hs : (relay x options consoles w c files child s).Sole i names) :
      Holds x consoles w c files r names
        (chunksAt (relay x options consoles w c files child s).trees i copies).flatten := by
    have hfresh := (hfiles i (Redirects.isFile_get hi)).of_eq
      (relay_outlets x options consoles w c files child s)
    exact holds_of_owns (hc.files i names (filed_of_fresh hfresh hs))
  refine ⟨mem_leaves_relay_iff x options consoles w c files child s, hd, hc.order, hc.bytes,
    hc.calls, ?_, ?_, ?_, ?_, ?_⟩
  · intro ch i sink hi hsink
    obtain ⟨sink', hsink', htakes⟩ := hc.sinks i sink hsink
    rw [chunksAt_of_own hi, hc.order] at htakes
    exact ⟨sink', hsink', htakes⟩
  · intro i sink hi hsink
    obtain ⟨sink', hsink', htakes⟩ := hc.sinks i sink hsink
    rw [chunksAt_of_shared hi] at htakes
    exact ⟨sink', hsink', htakes⟩
  · intro i sink hi hsink
    obtain ⟨sink', hsink', htakes, -⟩ := hc.sinks i sink hsink
    rw [chunksAt_of_none hi] at htakes
    rwa [← htakes.eq_of_nil]
  · intro ch i names hi hs
    have hisFile := Redirects.isFile_get ((hi ch).mpr rfl)
    have hown (ch' : Channel) :=
      (mem_leaves_relay_of_isFile x w c child s hapart hisFile ch').trans (hi ch')
    have hholds := hfile ((hi ch).mpr rfl) hs
    rwa [chunksAt_of_own hown, hc.bytes] at hholds
  · intro i names hi hs
    have hisFile := Redirects.isFile_get (hi .stdout)
    have hboth (ch : Channel) :=
      (mem_leaves_relay_of_isFile x w c child s hapart hisFile ch).mpr (hi ch)
    have hholds := hfile (hi .stdout) hs
    rwa [chunksAt_of_shared hboth] at hholds

/-- Consoles that were there before the files were opened are apart from them. -/
theorem apart_of_new {options : RunOptions} {files : Redirects} {n : Nat}
    (hconsoles : options.echo = true → ∀ ch, consoles.get ch < n)
    (hfiles : ∀ i, files.IsFile i → n ≤ i) : Apart options consoles files :=
  fun hecho i hi ch => Nat.ne_of_gt (Nat.lt_of_lt_of_le (hconsoles hecho ch) (hfiles i hi))

/-- An undisturbed run loses nothing. As long as the coordinator copies, it can move, or a reader
of a channel that has not ended, unless this channel waits for the child. Once it has left the
copying, whatever the schedule was, all output has been transferred: each sink has taken the chunks
of its channels, and a file that nobody else writes to equals what the child wrote. -/
theorem transfer_lossless {options : RunOptions} {check : Check} {c : Command} {s : Session}
    {files : Redirects} {r r' : Relay} {ts : List Relay.Turn}
    (hcheck : ∀ s name, (check s name).1.outlets.sinks = s.outlets.sinks)
    (hconsoles : options.echo = true → ∀ ch, consoles.get ch < s.outlets.sinks.length)
    (hcapacity : 1 ≤ x.plan.capacity)
    (hbegin : begin x options consoles w check c s = .relaying files r)
    (horderly : ∀ ch, Move.Orderly ch r.child.moves) (hfollow : r.follow ts = some r')
    (hu : r'.Undisturbed) :
    (r'.phase.isCopying = true →
      r'.moveCoordinator.isSome = true ∨ ∃ ch ∈ r'.openChannels, (r'.moveReader ch).isSome = true ∨
        (r'.feeds.get ch).pipe = [] ∧ (r'.feeds.get ch).ended = none) ∧
    (r'.phase.isCopying = false →
      ∃ copies, Transferred x consoles w options c files r copies r') := by
  have hadvances := Relay.follow_advances hfollow
  have hquiet := (hu.of_advances hadvances).notCancelled
  obtain ⟨child, asked, s', rfl, hasked, hfiles⟩ := begin_eq_relaying x options consoles w hbegin
  have hsinks : asked.outlets.sinks = s.outlets.sinks := by
    have h := hcheck ((s.emit (.consulted c.name)).cancelIf w.whileAuthorizing) c.name
    rw [hasked] at h
    exact h.trans (congrArg Outlets.sinks (Session.stirs_cancelIf _ _).outlets)
  have hapart : Apart options consoles files := by
    refine apart_of_new hconsoles fun i hi => ?_
    rw [← hsinks]
    exact (hfiles i hi).2
  have hfresh := relay_fresh x options consoles w hquiet
  have hflat := isFlat_relay x w c child s' hapart
  obtain ⟨calls, hcalls, hcalm, haccounts⟩ :=
    hfresh.accounts_of_follow hflat horderly hfollow hu
  refine ⟨fun hp => ?_, fun hp => ?_⟩
  · refine Relay.moves_of_copying hcalm haccounts ?_ hp
    rw [hadvances.plan, relay_plan]
    exact hcapacity
  · have hdrained := haccounts.drained hcalm (hcalm.openChannels_eq_nil hp)
    obtain ⟨copies, hcopied⟩ := haccounts.copied hcalm hcalls hp
    exact ⟨copies, transferred_of_copied hapart (fun i hi => (hfiles i hi).1) hdrained hcopied⟩

/-! ## Two channels on a queue for one event -/

instance (r : Relay) : Decidable r.Undisturbed :=
  decidable_of_iff (r.session.isCancelled = false ∧ r.lost = none ∧ r.broken = none)
    ⟨fun ⟨hc, hl, hb⟩ => ⟨hc, hl, hb⟩, fun ⟨hc, hl, hb⟩ => ⟨hc, hl, hb⟩⟩

/-- Whether the relay that a run begins with settles without a disturbance, and a property holds
of the files, of the relay and of what it settles into. -/
def Beginning.settlesWith (b : Beginning) (p : Redirects → Relay → Relay → Prop)
    [∀ files r r', Decidable (p files r r')] : Bool :=
  match b with
  | .ended .. => false
  | .relaying files r => r.settle.any fun r' => r'.Undisturbed ∧ p files r r'

/-- What settles is led to its end by some schedule. -/
theorem Beginning.exists_of_settlesWith {b : Beginning} {p : Redirects → Relay → Relay → Prop}
    [∀ files r r', Decidable (p files r r')] (h : b.settlesWith p = true) :
    ∃ files r ts r', b = .relaying files r ∧ r.follow ts = some r' ∧ r'.Undisturbed ∧
      r'.isFinished = true ∧ p files r r' := by
  cases b with
  | ended => cases h
  | relaying files r =>
      obtain ⟨r', hr, hp⟩ := (Option.any_eq_true ..).mp h
      obtain ⟨ts, hf, hfin⟩ := Relay.exists_follow_of_settle hr
      obtain ⟨hu, hp⟩ := of_decide_eq_true hp
      exact ⟨files, r, ts, r', rfl, hf, hu, hfin, hp⟩

/-- A command whose standard output goes into a file. -/
def dialogue : Command where
  name := "sh"
  stdoutTarget := "a"
  name_ne := by decide

/-- An executor with a queue for one event. -/
def narrow : Executor where
  plan := { capacity := 1 }

/-- The start of a child with some moves to make. -/
def starting (moves : List Move) : Surroundings where
  launch _ _ := .ok { moves }

/-- The beginning of a run that echoes the two channels to two consoles. -/
def echoing (stream : ConsoleStream) (moves : List Move) : Beginning :=
  begin narrow { echo := true, redirect := true } ⟨0, 1, 1⟩ (starting moves)
    (fun s _ => (s, .ok ())) dialogue
    { outlets := { sinks := [.console stream, .console stream] } }

/-- Output on both channels in turn, in pieces that are no lines. -/
def remarks : List Move :=
  [.output .stdout [104, 10, 105], .output .stderr [33], .output .stdout [10, 111],
    .close .stdout .quiet, .close .stderr .quiet]

/-- The file of the output channel holds what was written on it, and nothing else. -/
theorem transfer_lossless_remarks :
    ∃ files r ts r', echoing (.recorded {}) remarks = .relaying files r ∧
      r.follow ts = some r' ∧ r'.Undisturbed ∧ r'.isFinished = true ∧
      ∃ copies, Transferred narrow ⟨0, 1, 1⟩ (starting remarks) { echo := true, redirect := true }
          dialogue files r copies r' ∧
        Holds narrow ⟨0, 1, 1⟩ (starting remarks) dialogue files r' ["a"]
          [104, 10, 105, 10, 111] := by
  have hrun : (echoing (.recorded {}) remarks).settlesWith fun files r _ =>
      files = ⟨some 2, none⟩ ∧ r.child.moves = remarks ∧
        r.session.outlets.sinks.map Sink.place? = [none, none, some (.file ["a"])] := by
    decide +kernel
  obtain ⟨files, r, ts, r', hb, hf, hu, hfin, hfiles, hmoves, hplaces⟩ :=
    Beginning.exists_of_settlesWith hrun
  have horderly (ch : Channel) : Move.Orderly ch r.child.moves := by
    rw [hmoves]
    cases ch <;> simp [remarks, Move.Orderly, Move.Silent]
  have hsole : r.Sole 2 ["a"] := by
    refine ⟨fun v hv => ?_, fun j sink hsink hp => ?_, fun change hmem => ?_⟩
    · have hplace := congrArg (·[2]?) hplaces
      simpa [hv, Sink.place?] using hplace
    · have hplace := congrArg (·[j]?) hplaces
      simp only [List.getElem?_map, hsink, Option.map_some, hp] at hplace
      rcases j with _ | _ | _ | j
      · simp at hplace
      · simp at hplace
      · rfl
      · simp at hplace
    · rw [hmoves] at hmem
      simp [remarks] at hmem
  have hp : r'.phase.isCopying = false := by
    unfold Relay.isFinished at hfin
    rw [of_decide_eq_true hfin]
    rfl
  obtain ⟨copies, ht⟩ := (transfer_lossless (fun _ _ => rfl) (fun _ ch => by cases ch <;> decide)
    (by decide) hb horderly hf hu).2 hp
  refine ⟨files, r, ts, r', hb, hf, hu, hfin, copies, ht, ?_⟩
  have hholds := ht.ownFile .stdout 2 ["a"] (fun ch => by rw [hfiles]; cases ch <;> decide) hsole
  rwa [hmoves] at hholds

/-- A child whose output is no text. -/
def noise : List Move :=
  [.output .stdout [255, 10], .close .stdout .quiet, .close .stderr .quiet]

/-- A child that writes nothing on its channels, but into the file `a`. -/
def scribble : List Move :=
  [.edit (.write ["a"] 0 [120]), .close .stdout .quiet, .close .stderr .quiet]

/-- What a stream of text shows. -/
def shown? : Sink → Option Text
  | .console (.text shown) => some shown
  | _ => none

/-- Undisturbed runs end with bytes other than those of the child on a console that shows text, and
in a file that the child writes to by itself. -/
theorem transfer_differs :
    (∃ files r ts r', echoing (.text []) noise = .relaying files r ∧ r.follow ts = some r' ∧
      r'.Undisturbed ∧ r'.isFinished = true ∧ (∀ ch, Move.Orderly ch r.child.moves) ∧
      ∃ shown, r'.session.outlets.sinks[0]?.bind shown? = some shown ∧
        Utf8.encodeShown shown ≠ Move.written .stdout r.child.moves) ∧
    ∃ files r ts r', echoing (.recorded {}) scribble = .relaying files r ∧
      r.follow ts = some r' ∧ r'.Undisturbed ∧ r'.isFinished = true ∧
      (∀ ch, Move.Orderly ch r.child.moves) ∧ files = ⟨some 2, none⟩ ∧
      r.session.outlets.sinks[2]?.bind Sink.place? = some (.file ["a"]) ∧
      r'.session.outlets.disk.contentAt ["a"] ≠ Move.written .stdout r.child.moves := by
  constructor
  · have hrun : (echoing (.text []) noise).settlesWith fun _ r r' =>
        r.child.moves = noise ∧
          r'.session.outlets.sinks[0]?.bind shown? = some (Text.ofString "\uFFFD\n") := by
      decide +kernel
    obtain ⟨files, r, ts, r', hb, hf, hu, hfin, hmoves, hshown⟩ :=
      Beginning.exists_of_settlesWith hrun
    refine ⟨files, r, ts, r', hb, hf, hu, hfin, fun ch => ?_, _, hshown, ?_⟩ <;> rw [hmoves]
    · cases ch <;> simp [noise, Move.Orderly, Move.Silent]
    · decide +kernel
  · have hrun : (echoing (.recorded {}) scribble).settlesWith fun files r r' =>
        r.child.moves = scribble ∧ files = ⟨some 2, none⟩ ∧
          r.session.outlets.sinks[2]?.bind Sink.place? = some (.file ["a"]) ∧
          r'.session.outlets.disk.contentAt ["a"] = [120] := by
      decide +kernel
    obtain ⟨files, r, ts, r', hb, hf, hu, hfin, hmoves, hfiles, hplace, hcontent⟩ :=
      Beginning.exists_of_settlesWith hrun
    refine ⟨files, r, ts, r', hb, hf, hu, hfin, fun ch => ?_, hfiles, hplace, ?_⟩ <;> rw [hmoves]
    · cases ch <;> simp [scribble, Move.Orderly, Move.Silent]
    · rw [hcontent]
      decide

end Run

end CommandRelay
