import CommandRelay.Proofs.Relay.Allowance
import CommandRelay.Proofs.Relay.Tally
import CommandRelay.Proofs.Sink.BrokenCall

/-!
# Output that is lost

A sink that refuses a call with an error of the system has the output lost. `Loss` says how far the
copying had come by then, and `Relay.Remains` what is left of it: the refused call is the last one,
the sinks in front of the one that refused have taken it, and all others have taken what came
before. A schedule in which output is lost has one turn in which that happens
(`Tallies.exists_loss`), and no turn after it calls a sink (`Remains.follow`).
-/

namespace CommandRelay

/-- How output was lost: the chunks that had been copied by then, the chunk that was being copied,
whether it had been written and was being flushed, and the sinks that were called: those in front,
and the one that refused. -/
structure Loss where
  copies : List (Channel × Bytes)
  channel : Channel
  data : Bytes
  flushing : Bool
  front : List Nat
  sink : Nat
  deriving DecidableEq, Repr

theorem SinkTree.IsFlat.isRow {t : SinkTree} (ht : t.IsFlat) : t.IsRow := by
  obtain ⟨is, -, htree⟩ := ht
  exact ⟨is, htree⟩

theorem SinkTree.IsFlat.nodup_leaves {t : SinkTree} (ht : t.IsFlat) : t.leaves.Nodup := by
  obtain ⟨is, hn, rfl⟩ := ht
  rwa [leaves_group]

/-! ## Chunks -/

theorem chunksAt_append (trees : PerChannel SinkTree) (i : Nat)
    (copies more : List (Channel × Bytes)) :
    chunksAt trees i (copies ++ more) = chunksAt trees i copies ++ chunksAt trees i more := by
  unfold chunksAt
  rw [List.filter_append, List.map_append]

theorem chunksAt_singleton (trees : PerChannel SinkTree) (i : Nat) (c : Channel × Bytes) :
    chunksAt trees i [c] = if i ∈ (trees.get c.1).leaves then [c.2] else [] := by
  unfold chunksAt
  split <;> simp [*]

theorem chunksOn_append (ch : Channel) (copies more : List (Channel × Bytes)) :
    chunksOn ch (copies ++ more) = chunksOn ch copies ++ chunksOn ch more := by
  unfold chunksOn
  rw [List.filter_append, List.map_append]

theorem chunksOn_singleton (ch : Channel) (c : Channel × Bytes) :
    chunksOn ch [c] = if c.1 = ch then [c.2] else [] := by
  unfold chunksOn
  split <;> simp [*]

namespace Loss

/-- The call that a sink refused. -/
def call (l : Loss) : Sink.Call :=
  if l.flushing then .flush else .write l.data

/-- The calls that went through before. -/
def done (l : Loss) : List (Channel × Sink.Call) :=
  l.copies.flatMap copy ++ if l.flushing then [(l.channel, .write l.data)] else []

/-- The chunks that had been taken up by then. -/
def chunks (l : Loss) : List (Channel × Bytes) :=
  l.copies ++ [(l.channel, l.data)]

/-- The chunks that had come as far as a sink: the last one only if it had been written to all
sinks, or to the ones in front and the sink is one of them. -/
def given (l : Loss) (i : Nat) : List (Channel × Bytes) :=
  l.copies ++ if l.flushing = true ∨ i ∈ l.front then [(l.channel, l.data)] else []

variable (l : Loss) {trees : PerChannel SinkTree} {i j : Nat}

theorem data_callsTo_done (trees : PerChannel SinkTree) (i : Nat) :
    (callsTo trees i l.done).filterMap Sink.Call.data? =
      chunksAt trees i (l.copies ++ if l.flushing then [(l.channel, l.data)] else []) := by
  rw [done, callsTo_append, callsTo_copies, List.filterMap_append, data_copyCalls,
    chunksAt_append]
  congr 1
  cases l.flushing with
  | false => rfl
  | true =>
      rw [if_pos rfl, if_pos rfl, callsTo_singleton, chunksAt_singleton]
      split <;> rfl

/-- What a sink was given is what the calls to it have written, the refused one among them if the
sink stands in front of the one that refused. -/
theorem chunksAt_given (hfront : i ∈ l.front → i ∈ (trees.get l.channel).leaves) :
    chunksAt trees i (l.given i) =
      (callsTo trees i l.done ++ if i ∈ l.front then [l.call] else []).filterMap
        Sink.Call.data? := by
  rw [List.filterMap_append, data_callsTo_done, given, chunksAt_append, chunksAt_append,
    List.append_assoc]
  congr 1
  cases hf : l.flushing with
  | true =>
      have hnone : (if i ∈ l.front then [l.call] else []).filterMap Sink.Call.data? = [] := by
        rw [call, hf]
        split <;> rfl
      rw [hnone, List.append_nil]
      simp
  | false =>
      by_cases hi : i ∈ l.front
      · simp [hi, hfront hi, call, hf, Sink.Call.data?, chunksAt]
      · simp [hi]

/-- Whatever a sink was given had been taken up. -/
theorem exists_chunks_eq (i : Nat) : ∃ more, l.chunks = l.given i ++ more := by
  unfold chunks given
  split
  · exact ⟨[], (List.append_nil _).symm⟩
  · exact ⟨[(l.channel, l.data)], by rw [List.append_nil]⟩

/-- Of two sinks that stand one behind the other, the one in front was given as much as the other
one, or the last chunk more. -/
theorem given_of_front (h : j ∈ l.front → i ∈ l.front) :
    l.given i = l.given j ∨ l.given i = l.given j ++ [(l.channel, l.data)] := by
  unfold given
  by_cases hf : l.flushing = true
  · simp [hf]
  · by_cases hj : j ∈ l.front
    · simp [hj, h hj]
    · by_cases hi : i ∈ l.front
      · simp [hf, hi, hj]
      · simp [hi, hj]

/-- Sinks differ in nothing but the chunks of the channel that was being copied. -/
theorem chunksOn_given_of_ne {ch : Channel} (h : l.channel ≠ ch) (i : Nat) :
    chunksOn ch (l.given i) = chunksOn ch l.copies := by
  rw [given, chunksOn_append]
  split
  · rw [chunksOn_singleton, if_neg h, List.append_nil]
  · exact List.append_nil _

end Loss

/-- The calls that have gone through, and the one that is due, say how far the copying has come. -/
theorem Paired.exists_loss {p : Phase} {calls : List (Channel × Sink.Call)} {ch : Channel}
    {call : Sink.Call} (h : Paired p.hand calls) (hcall : p.call? = some (ch, call))
    (front : List Nat) (i : Nat) :
    ∃ l : Loss, l.channel = ch ∧ l.front = front ∧ l.sink = i ∧ l.done = calls ∧ l.call = call ∧
      ∀ ch', (chunksOn ch' l.chunks).map (.chunk ch') =
        (writesOn ch' calls).map (.chunk ch') ++ p.hand.holding ch' := by
  cases p with
  | writing ch₁ data =>
      obtain ⟨rfl, rfl⟩ := Prod.mk.inj (Option.some.inj hcall)
      cases h with
      | chunk copies =>
          refine ⟨⟨copies, ch₁, data, false, front, i⟩, rfl, rfl, rfl, List.append_nil _, rfl,
            fun ch' => ?_⟩
          rw [Loss.chunks, chunksOn_append, chunksOn_singleton, writesOn_copies, List.map_append]
          congr 1
          by_cases hch : ch₁ = ch' <;> simp [Phase.hand, Hand.holding, hch]
  | flushing ch₁ =>
      obtain ⟨rfl, rfl⟩ := Prod.mk.inj (Option.some.inj hcall)
      cases h with
      | written copies data =>
          refine ⟨⟨copies, ch₁, data, true, front, i⟩, rfl, rfl, rfl, rfl, rfl, fun ch' => ?_⟩
          rw [Loss.chunks, chunksOn_append, chunksOn_singleton, writesOn_append, writesOn_copies]
          by_cases hch : ch₁ = ch' <;>
            simp [Phase.hand, Hand.holding, hch, writesOn, Sink.Call.data?]
  | checking | taking | waiting | abandoning | stopping | reaping | discarding | joining
  | finished => cases hcall

namespace Relay

variable {start r r₁ m next r' : Relay} {calls : List (Channel × Sink.Call)} {ch : Channel}
  {call : Sink.Call} {e : SystemError} {l : Loss} {t : Turn} {ts : List Turn}
  {tr : List Effect} {faults : List AccessFault} {told : Channel → List Event}

/-! ## The turn in which output is lost -/

/-- The coordinator makes a call that a sink refuses with an error of the system. It goes on to look
at the cancellation, with the channels open that were open before and the same events in the
queue. -/
structure Loses (r : Relay) (ch : Channel) (call : Sink.Call) (e : SystemError) (r' : Relay) :
    Prop where
  due : r.phase.call? = some (ch, call)
  refused : ∃ o, SinkTree.callAll call [r.trees.get ch] r.session.outlets =
    (o, .error (.system e)) ∧ r'.session.outlets = { o with alarms := [] }
  lost : r'.lost = some e
  phase : r'.phase = .checking
  openChannels : r'.openChannels = r.openChannels
  queued : ∀ ch', r'.queued ch' = r.queued ch'
  child : r'.child = r.child
  trees : r'.trees = r.trees
  made : r'.session.calls = r.session.calls ++ [(ch, call)]

theorem Coordinates.loses (hc : r.Coordinates r₁) (hl : r.lost = none)
    (hlost : r₁.lost = some e) : ∃ ch call, r.Loses ch call e r₁ := by
  have hmade := hc.calls_eq
  cases hc with
  | @writeFault ch data o fault hp hw =>
      cases fault with
      | system e' =>
          obtain rfl := Option.some.inj hlost
          rw [hp] at hmade
          refine ⟨ch, .write data, by rw [hp]; rfl, ⟨o, ?_, rfl⟩, rfl, rfl, rfl, fun _ => rfl, rfl,
            rfl, hmade⟩
          rw [SinkTree.callAll, SinkTree.writeAll, hw]
      | unencodable | invalid | endless | unsupported => cases hl.symm.trans hlost
  | @flushFault ch o fault hp hf =>
      cases fault with
      | system e' =>
          obtain rfl := Option.some.inj hlost
          rw [hp] at hmade
          refine ⟨ch, .flush, by rw [hp]; rfl, ⟨o, ?_, rfl⟩, rfl, rfl, rfl, fun _ => rfl, rfl,
            rfl, hmade⟩
          rw [SinkTree.callAll, SinkTree.flushAll, hf]
      | unencodable | invalid | endless | unsupported => cases hl.symm.trans hlost
  | _ => cases hl.symm.trans hlost

/-- Requests to cancel may come in after the rest. -/
theorem Loses.stirs (h : r.Loses ch call e r₁) (hs : r₁.Stirs r') : r.Loses ch call e r' where
  due := h.due
  refused := by rw [hs.session.outlets]; exact h.refused
  lost := hs.surrounds.lost.trans h.lost
  phase := by rw [hs.rest]; exact h.phase
  openChannels := hs.surrounds.openChannels.trans h.openChannels
  queued := fun ch' => (hs.queued ch').trans (h.queued ch')
  child := by rw [hs.rest]; exact h.child
  trees := by rw [hs.rest]; exact h.trees
  made := hs.surrounds.calls_eq.trans h.made

theorem loses_of_turn (hl : r.lost = none) (ht : r.turn t = some r') (hlost : r'.lost = some e) :
    t = .coordinator ∧ ∃ ch call, r.Loses ch call e r' := by
  rcases step_of_turn ht with ⟨rfl, r₁, hc, hs⟩ | ⟨r₁, ha, hs⟩
  · obtain ⟨ch, call, hloses⟩ := hc.loses hl (hs.surrounds.lost ▸ hlost)
    exact ⟨rfl, ch, call, hloses.stirs hs⟩
  · rw [hs.surrounds.lost, ha.surrounds.lost, hl] at hlost
    cases hlost

/-- A schedule in which output is lost has one turn in which that happens. Until then all calls have
gone through. -/
theorem Tallies.exists_loss (hflat : ∀ ch, (start.trees.get ch).IsFlat)
    (h : start.Tallies calls r) (hl : r.lost = none) (hf : r.follow ts = some r')
    (hlost : r'.lost.isSome = true) (hb : r'.broken = none) :
    ∃ before after m next calls ch call e, ts = before ++ .coordinator :: after ∧
      r.follow before = some m ∧ m.turn .coordinator = some next ∧ next.follow after = some r' ∧
      start.Tallies calls m ∧ m.lost = none ∧ m.broken = none ∧ m.Loses ch call e next := by
  induction ts generalizing r calls with
  | nil =>
      obtain rfl := Option.some.inj hf
      rw [hl] at hlost
      cases hlost
  | cons t ts ih =>
      obtain ⟨next, ht, hrest⟩ := follow_cons_eq_some_iff.mp hf
      have hkept {r₁ : Relay} (ha : r₁.Advances r') : r₁.broken = none := by
        refine Option.eq_none_iff_forall_ne_some.mpr fun fault hfault => ?_
        have hsome := ha.broken (by rw [hfault]; rfl)
        rw [hb] at hsome
        cases hsome
      cases hnext : next.lost with
      | none =>
          obtain ⟨more, hmore⟩ := h.turn hflat ht hnext (hkept (follow_advances hrest))
          obtain ⟨before, after, m, after₁, calls', ch, call, e, rfl, hbefore, hafter⟩ :=
            ih hmore hnext hrest
          refine ⟨t :: before, after, m, after₁, calls', ch, call, e, rfl, ?_, hafter⟩
          exact follow_cons_eq_some_iff.mpr ⟨next, ht, hbefore⟩
      | some e =>
          obtain ⟨rfl, ch, call, hloses⟩ := loses_of_turn hl ht hnext
          exact ⟨[], ts, r, next, calls, ch, call, e, rfl, rfl, ht, hrest, h, hl,
            hkept (follow_advances hf), hloses⟩

/-! ## What is left -/

/-- What is left of a relay that has lost output. The refused call was the last one. The sinks in
front have taken it, the sink that refused has raised something or has taken a part of it, and every
sink has taken what came before. -/
structure Remains (start : Relay) (l : Loss) (r : Relay) : Prop where
  trees : r.trees = start.trees
  made : r.session.calls = start.session.calls ++ (l.done ++ [(l.channel, l.call)])
  others : ∀ i s, i ≠ l.sink → start.session.outlets.sinks[i]? = some s →
    ∃ s', r.session.outlets.sinks[i]? = some s' ∧
      s.TakesAll (callsTo start.trees i l.done ++ if i ∈ l.front then [l.call] else []) s'
  refused : ∀ s, start.session.outlets.sinks[l.sink]? = some s →
    ∃ s₁ s', r.session.outlets.sinks[l.sink]? = some s' ∧
      s.TakesAll (callsTo start.trees l.sink l.done) s₁ ∧
      (s₁.Raises l.call s' ∨ s₁.CutsShort l.call s')
  files : ∀ i names, start.Filed i names [] →
    (∀ change, .edit change ∈ r.child.moves → names ≠ change.names) ∧
      ∃ content waiting, r.session.outlets.Owns i names content waiting ∧
        content ++ waiting = (chunksAt start.trees i (l.given i)).flatten

theorem Remains.spares (h : start.Remains l r) (hs : r.Spares r₁)
    (hmade : r₁.session.calls = r.session.calls) : start.Remains l r₁ where
  trees := hs.trees.trans h.trees
  made := hmade.trans h.made
  others := by rw [hs.sinks]; exact h.others
  refused := by rw [hs.sinks]; exact h.refused
  files := fun i names hf => by
    obtain ⟨huntouched, content, waiting, howns, happ⟩ := h.files i names hf
    exact ⟨fun change hmem => huntouched change (hs.edits change hmem), content, waiting,
      howns.of_node?_eq hs.sinks (hs.node?_eq huntouched), happ⟩

theorem flatten_data_concat (calls : List Sink.Call) (call : Sink.Call) :
    ((calls ++ [call]).filterMap Sink.Call.data?).flatten =
      (calls.filterMap Sink.Call.data?).flatten ++ call.data?.getD [] := by
  rw [List.filterMap_append, List.flatten_append]
  cases call <;> simp [Sink.Call.data?]

/-- What has been copied before output is lost remains, and of the refused call what the sinks in
front have taken. -/
theorem Tallies.remains (hflat : ∀ ch, (start.trees.get ch).IsFlat)
    (h : start.Tallies calls m) (hloses : m.Loses ch call e next) :
    ∃ l : Loss, l.channel = ch ∧ l.call = call ∧
      (∃ rest, (start.trees.get ch).leaves = l.front ++ l.sink :: rest) ∧ start.Remains l next ∧
      ∀ ch', (chunksOn ch' l.chunks).map (.chunk ch') =
        (writesOn ch' calls).map (.chunk ch') ++ m.phase.hand.holding ch' := by
  obtain ⟨o, hrefused, ho⟩ := hloses.refused
  rw [h.trees] at hrefused
  obtain ⟨front, i, rest, hleaves, hbreaks⟩ :=
    Outlets.exists_breaksOff (hflat ch).isRow.isBounded hrefused
  have hnodup := (hflat ch).nodup_leaves
  rw [hleaves] at hnodup
  obtain ⟨hn, -, hdisjoint⟩ := List.nodup_append.mp hnodup
  have hi : i ∉ front := fun hmem => hdisjoint i hmem i List.mem_cons_self rfl
  obtain ⟨l, rfl, rfl, rfl, rfl, rfl, hchunks⟩ := h.paired.exists_loss hloses.due front i
  have hfront {j : Nat} (hj : j ∈ l.front) : j ∈ (start.trees.get l.channel).leaves := by
    rw [hleaves]
    exact List.mem_append_left _ hj
  refine ⟨l, rfl, rfl, ⟨rest, hleaves⟩, ?_, hchunks⟩
  refine
    { trees := hloses.trees.trans h.trees
      made := by rw [hloses.made, h.made, List.append_assoc]
      others := fun j s hj hs => ?_
      refused := fun s hs => ?_
      files := fun j names hfile => ?_ }
  · obtain ⟨s₁, hs₁, htakes⟩ := h.received j s hs
    obtain ⟨s', hs', hcall⟩ := hbreaks.sink hn hi hs₁
    rw [h.trees] at htakes
    refine ⟨s', by rw [ho]; exact hs', ?_⟩
    by_cases hmem : j ∈ l.front
    · rw [if_pos hmem] at hcall ⊢
      exact htakes.snoc hcall
    · rw [if_neg hmem, if_neg hj] at hcall
      rw [if_neg hmem, List.append_nil, hcall]
      exact htakes
  · obtain ⟨s₁, hs₁, htakes⟩ := h.received l.sink s hs
    obtain ⟨s', hs', hcall⟩ := hbreaks.sink hn hi hs₁
    rw [h.trees] at htakes
    rw [if_neg hi, if_pos rfl] at hcall
    exact ⟨s₁, s', by rw [ho]; exact hs', htakes, hcall⟩
  · have hfiled := h.filed j names hfile
    obtain ⟨content, waiting, howns, happ, -⟩ := hfiled.owns
    refine ⟨fun change hmem => hfiled.untouched change (hloses.child ▸ hmem), ?_⟩
    rw [l.chunksAt_given hfront]
    rw [h.trees] at happ
    by_cases hmem : j ∈ l.front
    · obtain ⟨content', waiting', howns', happ'⟩ := howns.breaksOff_of_mem hn hi hmem hbreaks
      refine ⟨content', waiting', howns'.of_node?_eq (by rw [ho]) (by rw [ho]), ?_⟩
      rw [if_pos hmem, flatten_data_concat, happ', happ]
    · obtain ⟨content', waiting', howns', happ'⟩ := howns.breaksOff_of_notMem hmem hbreaks
      refine ⟨content', waiting', howns'.of_node?_eq (by rw [ho]) (by rw [ho]), ?_⟩
      rw [if_neg hmem, List.append_nil, happ', happ]

/-- A sink holds what it was given, unless it has taken the last write in part. -/
theorem Remains.gains (h : start.Remains l r)
    (hfront : ∀ i ∈ l.front, i ∈ (start.trees.get l.channel).leaves) (hsink : l.sink ∉ l.front)
    {i : Nat} {s : Sink} (hs : start.session.outlets.sinks[i]? = some s) :
    ∃ s', r.session.outlets.sinks[i]? = some s' ∧
      (Sink.Gains (chunksAt start.trees i (l.given i)) s s' ∨
        i = l.sink ∧ ∃ s₁, s.TakesAll (callsTo start.trees i l.done) s₁ ∧
          s₁.CutsShort l.call s') := by
  by_cases hi : i = l.sink
  · subst hi
    obtain ⟨s₁, s', hs', htakes, hraises | hcuts⟩ := h.refused s hs
    · refine ⟨s', hs', .inl ?_⟩
      have hgains := htakes.gains.trans hraises.gains
      rw [l.chunksAt_given (hfront _), if_neg hsink, List.append_nil]
      rwa [List.append_nil] at hgains
    · exact ⟨s', hs', .inr ⟨rfl, s₁, htakes, hcuts⟩⟩
  · obtain ⟨s', hs', htakes⟩ := h.others i s hi hs
    refine ⟨s', hs', .inl ?_⟩
    rw [l.chunksAt_given (hfront i)]
    exact htakes.gains

/-- After a fault no sink is called. -/
theorem Faulted.spares (h : Faulted faults r) (hne : faults ≠ []) (ht : r.turn t = some r') :
    r.Spares r' ∧ r'.session.calls = r.session.calls := by
  rcases step_of_turn ht with ⟨-, r₁, hc, hs⟩ | ⟨r₁, ha, hs⟩
  · have hcall := h.silent hne
    refine ⟨(hc.spares hcall).stirs hs, ?_⟩
    rw [hs.surrounds.calls_eq, hc.calls_eq, hcall]
    exact List.append_nil _
  · exact ⟨ha.spares.stirs hs, hs.surrounds.calls_eq.trans ha.surrounds.calls_eq⟩

/-- Whatever schedule follows, nothing changes in what is left. -/
theorem Remains.follow (h : start.Remains l r) (hcourse : Course tr faults told r)
    (hne : faults ≠ []) (hf : r.follow ts = some r') :
    start.Remains l r' ∧ r'.session.calls = r.session.calls ∧
      r'.session.outlets.sinks = r.session.outlets.sinks := by
  induction ts generalizing r tr faults told with
  | nil =>
      obtain rfl := Option.some.inj hf
      exact ⟨h, rfl, rfl⟩
  | cons t ts ih =>
      obtain ⟨next, ht, hrest⟩ := follow_cons_eq_some_iff.mp hf
      obtain ⟨more, -, hnext⟩ := hcourse.turn ht
      obtain ⟨hspares, hmade⟩ := hcourse.faulted.spares hne ht
      obtain ⟨hlast, hmade', hsinks⟩ :=
        ih (h.spares hspares hmade) hnext (List.append_ne_nil_of_left_ne_nil hne _) hrest
      exact ⟨hlast, hmade'.trans hmade, hsinks.trans hspares.sinks⟩

/-! ## From the start on -/

/-- What is seen along a schedule is seen along its beginning, and then along the rest. -/
theorem gather_append {α : Type} {see : Relay → Turn → List α} (hf : r.follow ts = some r')
    (more : List Turn) : r.gather see (ts ++ more) = r.gather see ts ++ r'.gather see more := by
  induction ts generalizing r with
  | nil =>
      obtain rfl := Option.some.inj hf
      rfl
  | cons t ts ih =>
      obtain ⟨next, ht, hrest⟩ := follow_cons_eq_some_iff.mp hf
      rw [List.cons_append, gather_cons ht, gather_cons ht, ih hrest, List.append_assoc]

theorem isCopying_of_call? {p : Phase} {c : Channel × Sink.Call} (h : p.call? = some c) :
    p.isCopying = true := by
  cases p with
  | writing | flushing => rfl
  | checking | taking | waiting | abandoning | stopping | reaping | discarding | joining
  | finished => cases h

/-- An error of the system that a sink has raised is why output was lost, and the only fault. -/
theorem Faulted.lost_of_mem (h : Faulted faults r) (hmem : .system e ∈ faults) :
    faults = [.system e] ∧ r.lost = some e ∧ r.broken = none := by
  have hraised := h.raised
  have hbroken : r.broken = none := by
    refine Option.eq_none_iff_forall_ne_some.mpr fun fault hb => ?_
    obtain ⟨hlost, hsystem, -⟩ := h.broken fault hb
    rw [hraised, hlost, hb] at hmem
    exact hsystem e (List.mem_singleton.mp hmem).symm
  rw [hbroken, Option.toList_none, List.append_nil] at hraised
  rw [hraised] at hmem
  cases hl : r.lost with
  | none =>
      rw [hl] at hmem
      cases hmem
  | some e' =>
      rw [hl] at hmem hraised
      obtain rfl := AccessFault.system.inj (List.mem_singleton.mp hmem)
      exact ⟨hraised, rfl, hbroken⟩

/-- As long as no sink has refused a call, what has been taken up of a channel was published of
it. -/
theorem Course.isPrefix_taken (h : Course tr faults told r) (hi : r.Intact)
    (hcalls : tr.filterMap Effect.call? = calls) (ch : Channel) :
    (writesOn ch calls).map (.chunk ch) ++ r.phase.hand.holding ch <+: told ch := by
  have hconveys := h.conveys hi ch
  rw [hcalls] at hconveys
  rw [hconveys, taken, List.append_assoc ((writesOn ch calls).map _ ++ _)]
  exact List.prefix_append _ _

/-- If a sink refuses a call with an error of the system, there is one turn in which that happens.
Nothing is called after it, and what remains has been published. -/
theorem Starts.exists_remains (h : start.Starts) (hflat : ∀ ch, (start.trees.get ch).IsFlat)
    (hf : start.follow ts = some r') (hrefused : .system e ∈ start.refusals ts) :
    ∃ l before m next after, ts = before ++ .coordinator :: after ∧
      start.follow before = some m ∧ m.turn .coordinator = some next ∧
      next.follow after = some r' ∧ m.Loses l.channel l.call e next ∧
      (∃ rest, (start.trees.get l.channel).leaves = l.front ++ l.sink :: rest) ∧
      r'.session.calls = next.session.calls ∧
      r'.session.outlets.sinks = next.session.outlets.sinks ∧ start.Remains l r' ∧
      ∀ ch, (chunksOn ch l.chunks).map (.chunk ch) <+: start.published ts ch := by
  have hcourse : Course [] [] (fun _ => []) start := h.course fun ch => (hflat ch).isRow
  obtain ⟨_, -, hlast⟩ := hcourse.follow hf
  obtain ⟨-, hlost, hbroken⟩ := hlast.faulted.lost_of_mem hrefused
  obtain ⟨before, after, m, next, calls, ch, call, e', rfl, hbefore, hturn, hafter, htallies,
    hmlost, hmbroken, hloses⟩ :=
    h.tallies.exists_loss hflat h.lost hf (by rw [hlost]; rfl) hbroken
  obtain ⟨done, hdone, hm⟩ := hcourse.follow hbefore
  obtain ⟨_, -, hnext⟩ := hm.turn hturn
  -- The error that the turn has lost output for is the one that was raised.
  have hraised := hnext.faulted.raised
  rw [hloses.lost] at hraised
  have hne : [] ++ start.refusals before ++ m.refusing .coordinator ≠ [] := by
    rw [hraised]
    exact List.cons_ne_nil _ _
  obtain ⟨_, -, hend⟩ := hnext.follow hafter
  have hsame := hend.faulted.raised
  rw [hlost, hraised] at hsame
  obtain rfl := AccessFault.system.inj (List.cons.inj hsame).1
  obtain ⟨l, rfl, rfl, hleaves, hremains, hchunks⟩ := htallies.remains hflat hloses
  obtain ⟨hremains', hcalls, hsinks⟩ := hremains.follow hnext hne hafter
  refine ⟨l, before, m, next, after, rfl, hbefore, hturn, hafter, hloses, hleaves, hcalls, hsinks,
    hremains', fun ch' => ?_⟩
  have hintact : m.Intact := by
    refine ⟨by rw [hm.faulted.draining, hmlost]; rfl, hmbroken, ?_⟩
    refine Bool.eq_false_iff.mpr fun hstopped => ?_
    have hleft :=
      isCopying_of_stopped (fun hs => by rw [h.stopped] at hs; cases hs) hbefore hstopped
    rw [isCopying_of_call? hloses.due] at hleft
    cases hleft
  have hmade : ([] ++ done).filterMap Effect.call? = calls := by
    have hmade := htallies.made
    rw [Session.calls, hdone, List.filterMap_append] at hmade
    exact List.append_cancel_left hmade
  rw [hchunks]
  refine (hm.isPrefix_taken hintact hmade ch').trans ?_
  rw [List.nil_append, published, published, gather_append hbefore]
  exact List.prefix_append _ _

end Relay

end CommandRelay
