import CommandRelay.Proofs.Relay.Flow
import CommandRelay.Proofs.Sink.FileContent

/-!
# What copying does to the sinks

In an undisturbed relay the coordinator writes a chunk and flushes before it goes on (`Paired`),
each sink takes the calls for the channels that it stands in and no others (`Received`), and a file
that only one sink writes to holds what the sink was given (`Filed`). Each of the three is kept by
every turn.
-/

namespace CommandRelay

/-- The calls that copy a chunk of a channel. -/
def copy (c : Channel × Bytes) : List (Channel × Sink.Call) :=
  [(c.1, .write c.2), (c.1, .flush)]

/-- Calls that copy chunks one after the other, the last of which may be in hand. -/
inductive Paired : Hand → List (Channel × Sink.Call) → Prop
  | empty (copies : List (Channel × Bytes)) : Paired .empty (copies.flatMap copy)
  | chunk {ch data} (copies : List (Channel × Bytes)) :
      Paired (.chunk ch data) (copies.flatMap copy)
  | written {ch} (copies : List (Channel × Bytes)) (data : Bytes) :
      Paired (.written ch) (copies.flatMap copy ++ [(ch, .write data)])

/-- The calls to a sink among calls to the composites of the channels. -/
def callsTo (trees : PerChannel SinkTree) (i : Nat) (calls : List (Channel × Sink.Call)) :
    List Sink.Call :=
  calls.filterMap fun (ch, call) => if i ∈ (trees.get ch).leaves then some call else none

theorem callsTo_append (trees : PerChannel SinkTree) (i : Nat)
    (calls more : List (Channel × Sink.Call)) :
    callsTo trees i (calls ++ more) = callsTo trees i calls ++ callsTo trees i more :=
  List.filterMap_append

theorem callsTo_singleton (trees : PerChannel SinkTree) (i : Nat) (ch : Channel)
    (call : Sink.Call) :
    callsTo trees i [(ch, call)] = if i ∈ (trees.get ch).leaves then [call] else [] := by
  unfold callsTo
  split <;> simp [*]

namespace SinkTree

/-- A composite of single sinks, each of which stands in it once. -/
def IsFlat (t : SinkTree) : Prop :=
  ∃ is : List Nat, is.Nodup ∧ t = .group (is.map .leaf)

variable {t : SinkTree} {o o' : Outlets} {data : Bytes} {n : Int}

theorem IsFlat.write_delivers (ht : t.IsFlat) (h : t.write data o = (o', .ok n)) :
    o.Delivers t.leaves (.write data) o' := by
  obtain ⟨is, hn, rfl⟩ := ht
  rw [leaves_group]
  exact writeAll_delivers hn (writeAll_of_write_group h)

theorem IsFlat.flush_delivers (ht : t.IsFlat) (h : t.flush o = (o', .ok ())) :
    o.Delivers t.leaves .flush o' := by
  obtain ⟨is, hn, rfl⟩ := ht
  rw [leaves_group]
  exact flushAll_delivers hn (by rwa [flush] at h)

end SinkTree

namespace Relay

variable {r r' : Relay} {calls new : List (Channel × Sink.Call)} {start : Outlets}

/-! ## Calls -/

theorem paired_step (h : Paired r.phase.hand calls) (hq : r.Quiet new r') :
    Paired r'.phase.hand (calls ++ new) := by
  cases hq with
  | idle hi =>
      rw [List.append_nil, hi.hand]
      exact h
  | output | close | read | publish =>
      rw [List.append_nil]
      exact h
  | takeChunk hp hq | takeEnd hp hq =>
      rw [hp] at h
      cases h with
      | empty copies =>
          rw [List.append_nil]
          constructor
  | @write ch data s o n hp =>
      rw [hp] at h
      cases h with
      | chunk copies => exact .written copies data
  | @flush ch s o hp =>
      rw [hp] at h
      cases h with
      | written copies data =>
          have hcopies : copies.flatMap copy ++ [(ch, .write data)] ++ [(ch, .flush)] =
              (copies ++ [(ch, data)]).flatMap copy := by
            rw [List.flatMap_append, List.flatMap_singleton, List.append_assoc]
            rfl
          rw [hcopies]
          exact .empty _

/-! ## Sinks -/

/-- Every sink has taken the calls for the channels that it stands in. -/
def Received (start : Outlets) (calls : List (Channel × Sink.Call)) (r : Relay) : Prop :=
  ∀ (i : Nat) (s : Sink), start.sinks[i]? = some s →
    ∃ s', r.session.outlets.sinks[i]? = some s' ∧ s.TakesAll (callsTo r.trees i calls) s'

theorem Received.deliver {ch : Channel} {call : Sink.Call} (h : r.Received start calls)
    (hd : r.session.outlets.Delivers (r.trees.get ch).leaves call r'.session.outlets)
    (ht : r'.trees = r.trees) : r'.Received start (calls ++ [(ch, call)]) := by
  intro i s hs
  obtain ⟨s₁, hs₁, htakes⟩ := h i s hs
  obtain ⟨s₂, hs₂, hcall⟩ := hd i s₁ hs₁
  refine ⟨s₂, hs₂, ?_⟩
  rw [ht, callsTo_append, callsTo_singleton]
  split
  · rename_i hi
    rw [if_pos hi] at hcall
    exact htakes.snoc hcall
  · rename_i hi
    rw [if_neg hi] at hcall
    rwa [List.append_nil, hcall]

theorem Received.step (hflat : ∀ ch, (r.trees.get ch).IsFlat) (h : r.Received start calls)
    (hq : r.Quiet new r') : r'.Received start (calls ++ new) := by
  cases hq with
  | idle hi =>
      intro i s hs
      rw [List.append_nil, hi.sinks, hi.trees]
      exact h i s hs
  | output | close | read | publish | takeChunk | takeEnd =>
      rw [List.append_nil]
      exact h
  | @write ch data s o n hp hw he ho =>
      refine h.deliver ?_ rfl
      have hd := (hflat ch).write_delivers hw
      unfold Outlets.Delivers at hd ⊢
      rw [ho]
      exact hd
  | @flush ch s o hp hf he ho =>
      refine h.deliver ?_ rfl
      have hd := (hflat ch).flush_delivers hf
      unfold Outlets.Delivers at hd ⊢
      rw [ho]
      exact hd

/-! ## Files -/

/-- A file that one sink writes to, and nobody else, holds what the sink was given; something waits
only until the next flush. -/
structure Filed (i : Nat) (names : List Text) (calls : List (Channel × Sink.Call)) (r : Relay) :
    Prop where
  untouched : ∀ change, .edit change ∈ r.child.moves → names ≠ change.names
  owns : ∃ content waiting, r.session.outlets.Owns i names content waiting ∧
    content ++ waiting = ((callsTo r.trees i calls).filterMap Sink.Call.data?).flatten ∧
    (waiting = [] ∨ ∃ ch, r.phase.hand = .written ch ∧ i ∈ (r.trees.get ch).leaves)

variable {i : Nat} {names : List Text}

/-- A turn that makes no calls and keeps the sinks and the file. -/
theorem Filed.of_sinks_eq (h : r.Filed i names calls)
    (hm : ∀ change, .edit change ∈ r'.child.moves → .edit change ∈ r.child.moves)
    (ht : r'.trees = r.trees) (hs : r'.session.outlets.sinks = r.session.outlets.sinks)
    (hd : r'.session.outlets.disk.node? names = r.session.outlets.disk.node? names)
    (hp : ∀ ch, r.phase.hand = .written ch → r'.phase.hand = .written ch) :
    r'.Filed i names calls := by
  obtain ⟨content, waiting, howns, happ, hw⟩ := h.owns
  refine ⟨fun change hmem => h.untouched change (hm change hmem), content, waiting,
    howns.of_node?_eq hs hd, by rw [ht]; exact happ, ?_⟩
  rcases hw with hw | ⟨ch, hch, hi⟩
  · exact .inl hw
  · exact .inr ⟨ch, hp ch hch, by rw [ht]; exact hi⟩

theorem Filed.idle (h : r.Filed i names calls) (hi : r.Idles r') : r'.Filed i names calls := by
  refine h.of_sinks_eq hi.moves.edits hi.trees hi.sinks ?_ fun ch hp => by rw [hi.hand, hp]
  rcases hi.disk with hd | ⟨change, hmem, hd⟩
  · rw [hd]
  · rw [hd]
    exact Disk.node?_apply_of_ne (h.untouched change hmem)

theorem mem_of_mem_leftover {ch : Channel} {data : Bytes} {rest : List Move} {change : DiskEdit}
    (h : .edit change ∈ Move.leftover ch data rest) :
    .edit change ∈ Move.output ch data :: rest := by
  unfold Move.leftover at h
  split at h
  · exact List.mem_cons_of_mem _ h
  · rcases List.mem_cons.mp h with heq | h
    · cases heq
    · exact List.mem_cons_of_mem _ h

/-- What a sink was given after one more call. -/
theorem flatten_data_callsTo (trees : PerChannel SinkTree) (i : Nat)
    (calls : List (Channel × Sink.Call)) (ch : Channel) (call : Sink.Call) :
    ((callsTo trees i (calls ++ [(ch, call)])).filterMap Sink.Call.data?).flatten =
      ((callsTo trees i calls).filterMap Sink.Call.data?).flatten ++
        if i ∈ (trees.get ch).leaves then call.data?.getD [] else [] := by
  rw [callsTo_append, callsTo_singleton, List.filterMap_append, List.flatten_append]
  congr 1
  split <;> cases call <;> simp [Sink.Call.data?]

theorem Filed.write {ch : Channel} {data : Bytes} {s : Session} {o : Outlets} {n : Int}
    (hflat : (r.trees.get ch).IsFlat) (h : r.Filed i names calls) (hp : r.phase = .writing ch data)
    (hw : (r.trees.get ch).write data r.session.outlets = (o, .ok n))
    (ho : s.outlets = { o with alarms := [] }) :
    Filed i names (calls ++ [(ch, .write data)])
      { r with phase := .flushing ch, session := s } := by
  obtain ⟨content, waiting, howns, happ, hwait⟩ := h.owns
  obtain ⟨is, hn, htree⟩ := hflat
  rw [htree] at hw
  have hall : SinkTree.callAll (.write data) (is.map .leaf) r.session.outlets = (o, .ok ()) :=
    SinkTree.writeAll_of_write_group hw
  have hleaves : (r.trees.get ch).leaves = is := by rw [htree, SinkTree.leaves_group]
  have hnil : waiting = [] := by
    rcases hwait with hnil | ⟨ch', hhand, -⟩
    · exact hnil
    · rw [hp] at hhand
      cases hhand
  refine ⟨h.untouched, ?_⟩
  rw [flatten_data_callsTo, hleaves]
  by_cases hi : i ∈ is
  · obtain ⟨content', waiting', howns', -, happ'⟩ := howns.callAll_of_mem hn hi hall
    refine ⟨content', waiting', howns'.of_node?_eq (by rw [ho]) (by rw [ho]), ?_,
      .inr ⟨ch, rfl, by rwa [hleaves]⟩⟩
    rw [happ', happ, if_pos hi]
  · have hother := howns.callAll_of_notMem hi (.write data)
    rw [hall] at hother
    refine ⟨content, waiting, hother.of_node?_eq (by rw [ho]) (by rw [ho]), ?_, .inl hnil⟩
    rw [happ, if_neg hi, List.append_nil]

theorem Filed.flush {ch : Channel} {s : Session} {o : Outlets}
    (hflat : (r.trees.get ch).IsFlat) (h : r.Filed i names calls) (hp : r.phase = .flushing ch)
    (hf : (r.trees.get ch).flush r.session.outlets = (o, .ok ()))
    (ho : s.outlets = { o with alarms := [] }) :
    Filed i names (calls ++ [(ch, .flush)]) { r with phase := .checking, session := s } := by
  obtain ⟨content, waiting, howns, happ, hwait⟩ := h.owns
  obtain ⟨is, hn, htree⟩ := hflat
  rw [htree, SinkTree.flush] at hf
  have hall : SinkTree.callAll .flush (is.map .leaf) r.session.outlets = (o, .ok ()) := hf
  have hleaves : (r.trees.get ch).leaves = is := by rw [htree, SinkTree.leaves_group]
  refine ⟨h.untouched, ?_⟩
  rw [flatten_data_callsTo, hleaves]
  by_cases hi : i ∈ is
  · obtain ⟨content', waiting', howns', hempty, happ'⟩ := howns.callAll_of_mem hn hi hall
    refine ⟨content', waiting', howns'.of_node?_eq (by rw [ho]) (by rw [ho]), ?_,
      .inl (hempty rfl)⟩
    rw [happ', happ, if_pos hi]
  · have hnil : waiting = [] := by
      rcases hwait with hnil | ⟨ch', hhand, hmem⟩
      · exact hnil
      · rw [hp] at hhand
        obtain rfl := Hand.written.inj hhand
        exact absurd (hleaves ▸ hmem) hi
    have hother := howns.callAll_of_notMem hi .flush
    rw [hall] at hother
    refine ⟨content, waiting, hother.of_node?_eq (by rw [ho]) (by rw [ho]), ?_, .inl hnil⟩
    rw [happ, if_neg hi, List.append_nil]

theorem Filed.step (hflat : ∀ ch, (r.trees.get ch).IsFlat) (h : r.Filed i names calls)
    (hq : r.Quiet new r') : r'.Filed i names (calls ++ new) := by
  cases hq with
  | idle hi =>
      rw [List.append_nil]
      exact h.idle hi
  | output hm =>
      rw [List.append_nil]
      refine h.of_sinks_eq (fun change hmem => ?_) rfl rfl rfl fun _ => id
      rw [hm]
      exact mem_of_mem_leftover hmem
  | close hm =>
      rw [List.append_nil]
      refine h.of_sinks_eq (fun change hmem => ?_) rfl rfl rfl fun _ => id
      rw [hm]
      exact List.mem_cons_of_mem _ hmem
  | read | publish =>
      rw [List.append_nil]
      exact h.of_sinks_eq (fun _ => id) rfl rfl rfl fun _ => id
  | takeChunk hp | takeEnd hp =>
      rw [List.append_nil]
      refine h.of_sinks_eq (fun _ => id) rfl rfl rfl fun ch hhand => ?_
      rw [hp] at hhand
      cases hhand
  | write hp hw he ho => exact h.write (hflat _) hp hw ho
  | flush hp hf he ho => exact h.flush (hflat _) hp hf ho

end Relay

end CommandRelay
