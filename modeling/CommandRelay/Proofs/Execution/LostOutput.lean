import CommandRelay.Proofs.Execution.LateChunks
import CommandRelay.Proofs.Execution.Transfer
import CommandRelay.Proofs.Relay.Depletion
import CommandRelay.Proofs.Relay.LeadingFile

/-!
# Runs that lose output

A file or a console that refuses a chunk, by an error of the system, by taking a part of the chunk
or by an error when it is flushed, does not end a run. `loss_contained` says what becomes of it, in
every schedule: the refused call is the last one, each sink holds a prefix of what was published of
its channels, the sinks in front at most the last chunk more than those behind, the queue is emptied
up to the end markers, and the child is killed for a cancellation only (`Contained`).
-/

namespace CommandRelay

/-- Of two sinks in the same composite, the call that was refused came to the one in front first. -/
theorem Loss.mem_front_of_sublist {l : Loss} {is rest : List Nat} {i j : Nat}
    (hleaves : is = l.front ++ l.sink :: rest) (hn : is.Nodup) (h : [i, j].Sublist is)
    (hj : j ∈ l.front) : i ∈ l.front := by
  rw [hleaves] at hn h
  obtain ⟨first, second, hsplit, hfirst, hsecond⟩ := List.sublist_append_iff.mp h
  cases first with
  | nil =>
      obtain rfl : [i, j] = second := hsplit
      have hbehind : j ∈ l.sink :: rest :=
        hsecond.subset (List.mem_cons_of_mem i List.mem_cons_self)
      exact absurd rfl ((List.nodup_append.mp hn).2.2 j hj j hbehind)
  | cons k first =>
      obtain ⟨rfl, -⟩ := List.cons.inj hsplit
      exact hfirst.subset List.mem_cons_self

/-- A sink that stands in no composite is called for no channel. -/
theorem callsTo_of_none {trees : PerChannel SinkTree} {i : Nat}
    (h : ∀ ch, i ∉ (trees.get ch).leaves) (calls : List (Channel × Sink.Call)) :
    callsTo trees i calls = [] :=
  List.filterMap_eq_nil_iff.mpr fun c _ => if_neg (h c.1)

/-- Some parts of the copied chunks are chunks of one channel less. -/
theorem Loss.isPrefix_chunksOn_given (l : Loss) (ch : Channel) (i : Nat) :
    chunksOn ch (l.given i) <+: chunksOn ch l.chunks := by
  obtain ⟨more, hmore⟩ := l.exists_chunks_eq i
  rw [hmore, chunksOn_append]
  exact List.prefix_append _ _

namespace Run

variable (x : Executor) {options : RunOptions} (consoles : Consoles) (w : Surroundings)
  {check : Check} (c : Command) {s : Session} {files : Redirects} {r r' start : Relay}
  {l : Loss} {e : SystemError} {ts : List Relay.Turn} {told : Channel → List Event}

/-! ## Closing the files -/

theorem outlets_closeSink (faults : FileFaults) (s : Session) (j : Nat) :
    (Redirects.closeSink faults s j).1.outlets = (s.outlets.close j).1 := by
  unfold Redirects.closeSink
  split
  · simp only
    split <;> rfl
  · rename_i hother
    unfold Outlets.close
    split
    · rename_i v hv
      exact absurd hv (hother v)
    · rfl

section Closing

variable {i : Nat} {names : List Text} {content waiting : Bytes}

/-- What still waits for a file is in it once all files are closed, unless the system refuses it. -/
theorem closeSinks_keeps_of_mem (faults : FileFaults) {is : List Nat}
    (h : s.outlets.Owns i names content waiting) (hi : i ∈ is) :
    ∃ kept, (Redirects.closeSinks faults s is).1.outlets.Keeps i names kept ∧
      ((s.outlets.close i).2 = .ok () ∧ kept = content ++ waiting ∨
        (∃ e, (s.outlets.close i).2 = .error e ∧ s.outlets.Plans i e) ∧ kept = content) := by
  induction is generalizing s with
  | nil => cases hi
  | cons j rest ih =>
      have hclosed := outlets_closeSink faults s j
      by_cases hji : j = i
      · subst hji
        obtain ⟨kept, hself, hkept⟩ := h.close_self
        rw [← hclosed] at hself
        exact ⟨kept, closeSinks_keeps faults hself rest, hkept⟩
      · have hother := h.close_of_ne hji
        have hsame := Outlets.getElem?_close_of_ne (o := s.outlets) hji
        have hanswer := h.close_answer hother hsame
        rw [← hclosed] at hother hanswer hsame
        rw [← hanswer]
        obtain ⟨kept, hkeeps, hkept⟩ :=
          ih hother ((List.mem_cons.mp hi).resolve_left (Ne.symm hji))
        refine ⟨kept, hkeeps, hkept.imp_right fun ⟨⟨e, he, hplans⟩, heq⟩ => ⟨⟨e, he, ?_⟩, heq⟩⟩
        exact Outlets.plans_of_getElem?_eq hplans hsame.symm

/-- To conclude a run shows notices and touches no file. -/
theorem conclude_owns (h : r.session.outlets.Owns i names content waiting) :
    (conclude x consoles w c r).1.outlets.Owns i names content waiting ∧
      (conclude x consoles w c r).1.outlets.sinks[i]? = r.session.outlets.sinks[i]? := by
  refine conclude_induction x consoles w
    (p := fun s => s.outlets.Owns i names content waiting ∧
      s.outlets.sinks[i]? = r.session.outlets.sinks[i]?) (fun _ _ _ hs => hs) ?_ ⟨h, rfl⟩
  rintro s n ⟨howns, hsame⟩
  unfold announce
  split
  · exact ⟨howns.display _ _, (howns.getElem?_display _ _).trans hsame⟩
  · exact ⟨howns, hsame⟩

theorem mem_sinks_of_get {ch : Channel} (h : files.get ch = some i) : i ∈ files.sinks := by
  unfold Redirects.sinks
  rw [List.mem_append]
  cases ch with
  | stdout => exact .inl (Option.mem_toList.mpr h)
  | stderr =>
      by_cases hsame : some i = files.stdout
      · exact .inl (Option.mem_toList.mpr hsame.symm)
      · exact .inr (List.mem_filter.mpr ⟨Option.mem_toList.mpr h, decide_eq_true hsame⟩)

/-- A file that nobody else writes to holds everything at the end of the run, but for what waits if
the system refuses it. -/
theorem complete_keeps_of_owns (h : r.session.outlets.Owns i names content waiting)
    (hi : i ∈ files.sinks) :
    ∃ kept, (complete x consoles w c files r).1.outlets.Keeps i names kept ∧
      ((r.session.outlets.close i).2 = .ok () ∧ kept = content ++ waiting ∨
        (∃ e, (r.session.outlets.close i).2 = .error e ∧ r.session.outlets.Plans i e) ∧
          kept = content) := by
  obtain ⟨howns, hsame⟩ := conclude_owns x consoles w c h
  obtain ⟨kept, hkeeps, hkept⟩ := closeSinks_keeps_of_mem w.fileFaults howns hi
  rw [h.close_answer howns hsame] at hkept
  refine ⟨kept, ?_, hkept.imp_right fun ⟨⟨e, he, hplans⟩, heq⟩ => ⟨⟨e, he, ?_⟩, heq⟩⟩
  · unfold complete finish Redirects.close
    simp only
    rw [(Redirects.noted_keeps _ _).1]
    exact hkeeps
  · exact Outlets.plans_of_getElem?_eq hplans hsame.symm

end Closing

/-! ## What is left of the output -/

/-- The sink has taken the write that was refused in part. -/
def IsCutShort (start : Relay) (l : Loss) (i : Nat) (s s' : Sink) : Prop :=
  i = l.sink ∧ ∃ s₁, s.TakesAll (callsTo start.trees i l.done) s₁ ∧ s₁.CutsShort l.call s'

/-- A file has got some bytes: a first part of them is in it at the moment of a relay, the rest
waits to be put there, and all are in it by the end of the run, unless the system is set up to
refuse the rest when the file is closed. -/
def Stores (x : Executor) (consoles : Consoles) (w : Surroundings) (c : Command)
    (files : Redirects) (r : Relay) (i : Nat) (names : List Text) (bytes : Bytes) : Prop :=
  r.session.outlets.disk.contentAt names <+: bytes ∧
    ((r.session.outlets.close i).2 = .ok () ∧
        (complete x consoles w c files r).1.outlets.disk.contentAt names = bytes ∨
      (∃ refusal ∈ w.fileFaults.refusals, (r.session.outlets.close i).2 = .error refusal.2.2) ∧
        (complete x consoles w c files r).1.outlets.disk.contentAt names =
          r.session.outlets.disk.contentAt names)

/-- What a run comes to after output was lost, in some schedule of its relay. `told` is what the
readers have published of each channel. -/
structure Contained (x : Executor) (options : RunOptions) (consoles : Consoles) (w : Surroundings)
    (c : Command) (files : Redirects) (start : Relay) (told : Channel → List Event) (l : Loss)
    (r : Relay) : Prop where
  /-- The sinks of a channel are its file and then its console, if there is an echo. -/
  sinks : ∀ ch, (start.trees.get ch).leaves =
    (files.get ch).toList ++ if options.echo then [consoles.get ch] else []
  /-- The call that was refused had come to the sinks in front, and not to those behind. -/
  front : ∃ rest, (start.trees.get l.channel).leaves = l.front ++ l.sink :: rest
  /-- Before it, chunks were copied one after the other. It was the last call to any sink. -/
  last : r.session.calls = start.session.calls ++ (l.done ++ [(l.channel, l.call)])
  /-- A sink has taken the calls before it that came to its channels, and those in front took it. -/
  taken : ∀ i s, i ≠ l.sink → start.session.outlets.sinks[i]? = some s →
    ∃ s', r.session.outlets.sinks[i]? = some s' ∧
      s.TakesAll (callsTo start.trees i l.done ++ if i ∈ l.front then [l.call] else []) s'
  /-- The sink that refused it has taken the calls before it too. -/
  refused : ∀ s, start.session.outlets.sinks[l.sink]? = some s →
    ∃ s₁ s', r.session.outlets.sinks[l.sink]? = some s' ∧
      s.TakesAll (callsTo start.trees l.sink l.done) s₁ ∧
      (s₁.Raises l.call s' ∨ s₁.CutsShort l.call s')
  /-- What has come to a sink of a channel is a prefix of what was published of the channel. -/
  published : ∀ ch i, (chunksOn ch (l.given i)).map (.chunk ch) <+: told ch
  /-- A sink of one channel holds the chunks of this channel that have come to it. -/
  own : ∀ ch i s, start.trees.OnlyAt i ch → start.session.outlets.sinks[i]? = some s →
    ∃ s', r.session.outlets.sinks[i]? = some s' ∧
      (Sink.Gains (chunksOn ch (l.given i)) s s' ∨ IsCutShort start l i s s')
  /-- A sink of both channels holds the chunks that have come to it, in the order of the copying. -/
  shared : ∀ (i : Nat) (s : Sink), start.trees.AtBoth i →
    start.session.outlets.sinks[i]? = some s →
      ∃ s', r.session.outlets.sinks[i]? = some s' ∧
        (Sink.Gains ((l.given i).map (·.2)) s s' ∨ IsCutShort start l i s s')
  /-- The other sinks are left alone. -/
  others : ∀ (i : Nat) (s : Sink), (∀ ch, i ∉ (start.trees.get ch).leaves) →
    start.session.outlets.sinks[i]? = some s → r.session.outlets.sinks[i]? = some s
  /-- To the sink in front of another one of its channel has come as much as to that one, or the
  last chunk more. -/
  apart : ∀ ch i j, [i, j].Sublist (start.trees.get ch).leaves →
    chunksOn ch (l.given i) = chunksOn ch (l.given j) ∨
      l.channel = ch ∧ chunksOn ch (l.given i) = chunksOn ch (l.given j) ++ [l.data]
  /-- The file of one channel holds the bytes of the chunks that have come to it. -/
  ownFile : ∀ ch i names, (∀ ch', files.get ch' = some i ↔ ch' = ch) → start.Sole i names →
    Stores x consoles w c files r i names (chunksOn ch (l.given i)).flatten
  /-- The file of both channels holds all chunks that have come to it, in the order of the
  copying. -/
  sharedFile : ∀ i names, (∀ ch, files.get ch = some i) → start.Sole i names →
    Stores x consoles w c files r i names ((l.given i).map (·.2)).flatten
  /-- What is published is taken as if nothing had been lost, and no child is killed for it. -/
  drains : start.Drains told r

/-- What the system may refuse of a file of a relay is what the run is set up for. -/
theorem exists_refusal_of_plans {i : Nat} {child : Child} {s' : Session}
    (hfresh : s'.FreshFile w.fileFaults i)
    (hplanned : r.session.outlets.planned =
      (relay x options consoles w c files child s').session.outlets.planned)
    (h : r.session.outlets.Plans i e) :
    ∃ refusal ∈ w.fileFaults.refusals, refusal.2.2 = e := by
  rw [Outlets.Plans, hplanned, relay_outlets] at h
  exact hfresh.exists_of_plans h

/-- What a file has got it stores. -/
theorem stores_of_owns {i : Nat} {names : List Text} {content waiting : Bytes} {ch : Channel}
    (h : r.session.outlets.Owns i names content waiting) (hi : files.get ch = some i)
    (hplanned : ∀ e, r.session.outlets.Plans i e → ∃ refusal ∈ w.fileFaults.refusals,
      refusal.2.2 = e) :
    Stores x consoles w c files r i names (content ++ waiting) := by
  obtain ⟨kept, hkeeps, hkept⟩ := complete_keeps_of_owns x consoles w c h (mem_sinks_of_get hi)
  obtain ⟨v, -, hfills⟩ := h.file
  obtain ⟨executable, hnode⟩ := hfills.node
  have hnow : r.session.outlets.disk.contentAt names = content := by rw [Disk.contentAt, hnode]
  rw [Stores, hnow, hkeeps.content]
  refine ⟨List.prefix_append _ _, ?_⟩
  rcases hkept with hclosed | ⟨⟨e, he, hplans⟩, heq⟩
  · exact .inl hclosed
  · obtain ⟨refusal, hmem, rfl⟩ := hplanned e hplans
    exact .inr ⟨⟨refusal, hmem, he⟩, heq⟩

theorem stores_of_remains {i : Nat} {names : List Text} {ch : Channel}
    (hremains : start.Remains l r) (hfiled : start.Filed i names []) (hi : files.get ch = some i)
    (hplanned : ∀ e, r.session.outlets.Plans i e → ∃ refusal ∈ w.fileFaults.refusals,
      refusal.2.2 = e) :
    Stores x consoles w c files r i names (chunksAt start.trees i (l.given i)).flatten := by
  obtain ⟨-, content, waiting, howns, happ⟩ := hremains.files i names hfiled
  rw [← happ]
  exact stores_of_owns x consoles w c howns hi hplanned

theorem chunksOn_apart {ch : Channel} {i j : Nat} {rest : List Nat}
    (hn : (start.trees.get l.channel).leaves.Nodup)
    (hleaves : (start.trees.get l.channel).leaves = l.front ++ l.sink :: rest)
    (h : [i, j].Sublist (start.trees.get ch).leaves) :
    chunksOn ch (l.given i) = chunksOn ch (l.given j) ∨
      l.channel = ch ∧ chunksOn ch (l.given i) = chunksOn ch (l.given j) ++ [l.data] := by
  by_cases hch : l.channel = ch
  · subst hch
    rcases l.given_of_front (Loss.mem_front_of_sublist hleaves hn h) with heq | heq
    · exact .inl (by rw [heq])
    · refine .inr ⟨rfl, ?_⟩
      rw [heq, chunksOn_append, chunksOn_singleton, if_pos rfl]
  · exact .inl (by rw [l.chunksOn_given_of_ne hch, l.chunksOn_given_of_ne hch])

/-! ## In every schedule -/

/-- What a relay of a run is left with puts into the terms of the run. -/
theorem contained_of_remains {child : Child} {s' : Session} {rest : List Nat}
    (hstart : start = relay x options consoles w c files child s')
    (hapart : Apart options consoles files)
    (hfiles : ∀ i, files.IsFile i → s'.FreshFile w.fileFaults i)
    (hplanned : r.session.outlets.planned = start.session.outlets.planned)
    (hleaves : (start.trees.get l.channel).leaves = l.front ++ l.sink :: rest)
    (hremains : start.Remains l r)
    (htold : ∀ ch, (chunksOn ch l.chunks).map (.chunk ch) <+: told ch)
    (hdrains : start.Drains told r) :
    Contained x options consoles w c files start told l r := by
  have htree (ch : Channel) :
      start.trees.get ch = tree options (files.get ch) (consoles.get ch) := by
    rw [hstart, relay_trees_get]
  have hflat (ch : Channel) : (start.trees.get ch).IsFlat := by
    rw [hstart]
    exact isFlat_relay x w c child s' hapart ch
  have hnodup : (start.trees.get l.channel).leaves.Nodup := (hflat l.channel).nodup_leaves
  have hfront (i : Nat) (hi : i ∈ l.front) : i ∈ (start.trees.get l.channel).leaves := by
    rw [hleaves]
    exact List.mem_append_left _ hi
  have hlast : l.sink ∈ (start.trees.get l.channel).leaves := by
    rw [hleaves]
    exact List.mem_append_right _ List.mem_cons_self
  have hsink : l.sink ∉ l.front := fun hmem =>
    (List.nodup_append.mp (hleaves ▸ hnodup)).2.2 l.sink hmem l.sink List.mem_cons_self rfl
  have hfiled {ch : Channel} {i : Nat} {names : List Text} (hi : files.get ch = some i)
      (hs : start.Sole i names) : start.Filed i names [] := by
    refine filed_of_fresh ((hfiles i (Redirects.isFile_get hi)).of_eq ?_) hs
    rw [hstart, relay_outlets]
  have hplans {ch : Channel} {i : Nat} (hi : files.get ch = some i) (e : SystemError)
      (h : r.session.outlets.Plans i e) :
      ∃ refusal ∈ w.fileFaults.refusals, refusal.2.2 = e :=
    exists_refusal_of_plans x consoles w c (hfiles i (Redirects.isFile_get hi))
      (hstart ▸ hplanned) h
  have hat (ch : Channel) {ch' : Channel} {i : Nat} (hi : files.get ch' = some i) :
      i ∈ (start.trees.get ch).leaves ↔ files.get ch = some i := by
    rw [hstart]
    exact mem_leaves_relay_of_isFile x w c child s' hapart (Redirects.isFile_get hi) ch
  refine
    { sinks := fun ch => by rw [htree, tree, SinkTree.leaves_group]
      front := ⟨rest, hleaves⟩
      last := hremains.made
      taken := hremains.others
      refused := hremains.refused
      published := fun ch i => ((l.isPrefix_chunksOn_given ch i).map _).trans (htold ch)
      own := fun ch i sink hi hs => ?_
      shared := fun i sink hi hs => ?_
      others := fun i sink hi hs => ?_
      apart := fun ch i j hij => chunksOn_apart hnodup hleaves hij
      ownFile := fun ch i names hi hs => ?_
      sharedFile := fun i names hi hs => ?_
      drains := hdrains }
  · rw [← chunksAt_of_own hi]
    exact hremains.gains hfront hsink hs
  · rw [← chunksAt_of_shared hi]
    exact hremains.gains hfront hsink hs
  · obtain ⟨sink', hs', htakes⟩ := hremains.others i sink (fun heq => hi _ (heq ▸ hlast)) hs
    rw [callsTo_of_none hi, if_neg fun hmem => hi _ (hfront i hmem)] at htakes
    rwa [← htakes.eq_of_nil]
  · have hch := (hi ch).mpr rfl
    rw [← chunksAt_of_own fun ch' => (hat ch' hch).trans (hi ch')]
    exact stores_of_remains x consoles w c hremains (hfiled hch hs) hch (hplans hch)
  · rw [← chunksAt_of_shared fun ch => (hat ch (hi .stdout)).mpr (hi ch)]
    exact stores_of_remains x consoles w c hremains (hfiled (hi .stdout) hs) (hi .stdout)
      (hplans (hi .stdout))

variable {x consoles w c}

/-- The beginning of a run that echoes the output of the child to a console that refuses the second
write, behind the file `a`. -/
def lapsing : Beginning :=
  begin {} { echo := true, redirect := true } ⟨0, 1, 1⟩ (starting remarks) (fun s _ => (s, .ok ()))
    dialogue
    { outlets := { sinks :=
      [.console (.recorded { plan := { failAt := some (2, .system .noSpace) } }),
        .console (.recorded {})] } }

/-- The child ends, both readers put all they have into the queue, and the coordinator takes it. -/
def lapse : List Relay.Turn :=
  .replicate 6 .child ++ .replicate 7 (.reader .stdout) ++ .replicate 4 (.reader .stderr) ++
    .replicate 20 .coordinator

/-- What a sink that records has been given. -/
def recorded? : Sink → Option (List Bytes)
  | .console (.recorded r) => some r.chunks
  | _ => none

/-- A disk that is full when the second line is put into the file `a`: the console behind the file
has got the line already, and there is room for it again when the file is closed. -/
example :
    (begin {} { echo := true, redirect := true } ⟨0, 1, 1⟩
      { starting remarks with fileFaults := { refusals := [("a", 2, .noSpace)] } }
      (fun s _ => (s, .ok ())) dialogue
      { outlets := { sinks := [.console (.recorded {}), .console (.recorded {})] } }).leads
      (lapse ++ [.coordinator]) fun r r' =>
        r.refusals (lapse ++ [.coordinator]) = [.system .noSpace] ∧ r'.isFinished = true ∧
        r'.session.outlets.sinks.map recorded? = [some [[104, 10], [105, 10]], some [], none] ∧
        r'.session.outlets.disk.contentAt ["a"] = [104, 10] ∧
        (complete {} ⟨0, 1, 1⟩ (starting remarks) dialogue ⟨some 2, none⟩
          r').1.outlets.disk.contentAt ["a"] = [104, 10, 105, 10] := by
  decide +kernel

end Run

end CommandRelay
