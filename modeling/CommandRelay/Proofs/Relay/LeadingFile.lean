import CommandRelay.Proofs.Relay.Loss
import CommandRelay.Proofs.Sink.Handles

/-!
# Files in front

The file of a channel stands in front of its composite. So what becomes of the sinks behind it is
nothing to the file: in every schedule, whatever is refused, broken off or cancelled, it gets the
data of every call to its composites, one after the other, but for one that it refuses itself, after
which no sink is called any more (`Relay.Gathers.follow`).
-/

namespace CommandRelay

/-! ## Calls to several sinks -/

/-- The first of several sinks, a file, has got what a call writes, however far the call comes,
unless it refuses the call itself. -/
theorem Outlets.Owns.callAll_cons {o : Outlets} {i : Nat} {rest : List Nat} {names : List Text}
    {content waiting : Bytes} (h : o.Owns i names content waiting) (hi : i ∉ rest)
    (call : Sink.Call) :
    ∃ content' waiting',
      (SinkTree.callAll call ((i :: rest).map .leaf) o).1.Owns i names content' waiting' ∧
        content' ++ waiting' =
          content ++ waiting ++ if o.refusal? i call = none then call.data?.getD [] else [] := by
  rw [SinkTree.callAll_leaf_cons]
  obtain ⟨content', waiting', hself, ⟨hnone, -, happ⟩ | ⟨⟨e, he, -⟩, happ⟩⟩ := h.called_self call
  · rw [hnone, if_pos rfl]
    exact ⟨content', waiting', hself.callAll_of_notMem hi call, happ⟩
  · rw [he, if_neg nofun, List.append_nil]
    exact ⟨content', waiting', hself, happ⟩

namespace SinkTree

/-- A sink that a composite calls before all others, if it calls it at all. -/
def Leads (t : SinkTree) (i : Nat) : Prop :=
  i ∈ t.leaves → ∃ rest, t.leaves = i :: rest

variable {t : SinkTree} {o : Outlets} {i : Nat} {names : List Text} {content waiting : Bytes}

theorem write_fst (data : Bytes) (t : SinkTree) (o : Outlets) :
    (t.write data o).1 = (callAll (.write data) [t] o).1 := by
  rw [callAll, writeAll]
  rcases t.write data o with ⟨o₁, fault | n⟩
  · rfl
  · simp only
    split <;> rfl

theorem flush_fst (t : SinkTree) (o : Outlets) : (t.flush o).1 = (callAll .flush [t] o).1 := by
  rw [callAll, flushAll]
  rcases t.flush o with ⟨o₁, fault | ⟨⟩⟩ <;> rfl

theorem planned_callAll (call : Sink.Call) (t : SinkTree) (o : Outlets) :
    (callAll call [t] o).1.planned = o.planned := by
  cases call with
  | write data => rw [← write_fst, t.planned_write]
  | flush => rw [← flush_fst, t.planned_flush]

/-- A file in front of a composite has got what a call to the composite writes, whether the sinks
behind it take the call or not, unless it refuses the call itself. -/
theorem IsFlat.owns_callAll (ht : t.IsFlat) (hlead : t.Leads i)
    (h : o.Owns i names content waiting) (call : Sink.Call) :
    ∃ content' waiting', (callAll call [t] o).1.Owns i names content' waiting' ∧
      content' ++ waiting' = content ++ waiting ++
        if i ∈ t.leaves ∧ o.refusal? i call = none then call.data?.getD [] else [] := by
  rw [callAll_leaves call ht.isRow.isBounded]
  by_cases hi : i ∈ t.leaves
  · obtain ⟨rest, hleaves⟩ := hlead hi
    have hnodup := ht.nodup_leaves
    rw [hleaves] at hnodup
    simp only [hi, true_and]
    rw [hleaves]
    exact h.callAll_cons (List.nodup_cons.mp hnodup).1 call
  · rw [if_neg fun hboth => hi hboth.1, List.append_nil]
    exact ⟨content, waiting, h.callAll_of_notMem hi call, rfl⟩

end SinkTree

/-! ## In every schedule -/

namespace Relay

variable {start r r₁ r' : Relay} {i : Nat} {names : List Text} {t : Turn} {ts : List Turn}
  {calls : List (Channel × Sink.Call)} {refused : Option (Channel × Sink.Call)}
  {tr : List Effect} {faults : List AccessFault} {told : Channel → List Event}

/-- What a sink makes of the call that the coordinator is about to make, if it is called first and
refuses the call. -/
def refusedBy? (r : Relay) (i : Nat) : Option AccessFault :=
  r.phase.call?.bind fun (ch, call) =>
    if i ∈ (r.trees.get ch).leaves then r.session.outlets.refusal? i call else none

/-- What a sink raises in a turn if it is called first. -/
def refusingBy (i : Nat) (r : Relay) (t : Turn) : List AccessFault :=
  if t = .coordinator then (r.refusedBy? i).toList else []

/-- What a sink that is called first raises along a schedule. -/
def refusalsBy (r : Relay) (i : Nat) (ts : List Turn) : List AccessFault :=
  r.gather (refusingBy i) ts

/-- A sink in front that refuses a call decides what comes of it. -/
theorem refused?_of_refusedBy? {fault : AccessFault} (hlead : ∀ ch, (r.trees.get ch).Leads i)
    (h : r.refusedBy? i = some fault) : r.refused? = some fault := by
  obtain ⟨⟨ch, call⟩, hcall, hfault⟩ := Option.bind_eq_some_iff.mp h
  simp only at hfault
  split at hfault
  · rename_i hi
    obtain ⟨rest, hleaves⟩ := hlead ch hi
    rw [refused?, hcall]
    simp only [Option.bind_some, hleaves, Outlets.firstRefusal?, hfault, Option.some_or]
  · cases hfault

/-- The coordinator calls the composite that it is about to call, whatever comes of it. -/
theorem Coordinates.outlets_of_call {ch : Channel} {call : Sink.Call} (hc : r.Coordinates r₁)
    (hcall : r.phase.call? = some (ch, call)) :
    r₁.trees = r.trees ∧ r₁.child = r.child ∧ r₁.session.outlets =
      { (SinkTree.callAll call [r.trees.get ch] r.session.outlets).1 with alarms := [] } := by
  cases hc with
  | write hp hw =>
      rw [hp] at hcall
      obtain ⟨rfl, rfl⟩ := Prod.mk.inj (Option.some.inj hcall)
      rw [← SinkTree.write_fst, hw]
      exact ⟨rfl, rfl, rfl⟩
  | @writeFault _ _ _ fault hp hw =>
      rw [hp] at hcall
      obtain ⟨rfl, rfl⟩ := Prod.mk.inj (Option.some.inj hcall)
      rw [← SinkTree.write_fst, hw]
      cases fault <;> exact ⟨rfl, rfl, rfl⟩
  | flush hp hf =>
      rw [hp] at hcall
      obtain ⟨rfl, rfl⟩ := Prod.mk.inj (Option.some.inj hcall)
      rw [← SinkTree.flush_fst, hf]
      exact ⟨rfl, rfl, rfl⟩
  | @flushFault _ _ fault hp hf =>
      rw [hp] at hcall
      obtain ⟨rfl, rfl⟩ := Prod.mk.inj (Option.some.inj hcall)
      rw [← SinkTree.flush_fst, hf]
      cases fault <;> exact ⟨rfl, rfl, rfl⟩
  | wait hp | stop hp => rcases hp with ⟨hp, -⟩ | ⟨hp, -⟩ <;> rw [hp] at hcall <;> cases hcall
  | reap hp => rcases hp with hp | hp | ⟨left, hp⟩ <;> rw [hp] at hcall <;> cases hcall
  | look hp | lookAgain hp | takeCancelled hp | takeEnd hp | takeChunk hp | dropChunk hp
  | abandon hp | kill hp | discardEnd hp | discard hp | discarded hp | join hp =>
      rw [hp] at hcall
      cases hcall

/-- What is planned for the files of a relay is settled before it starts. -/
theorem planned_turn (ht : r.turn t = some r') :
    r'.session.outlets.planned = r.session.outlets.planned := by
  have hspares {r₁ : Relay} (hs : r.Spares r₁) :
      r₁.session.outlets.planned = r.session.outlets.planned := by
    rw [Outlets.planned, hs.sinks, Outlets.planned]
  rcases step_of_turn ht with ⟨-, r₁, hc, hs⟩ | ⟨r₁, ha, hs⟩ <;> rw [hs.session.outlets]
  · cases hcall : r.phase.call? with
    | none => exact hspares (hc.spares hcall)
    | some c =>
        obtain ⟨ch, call⟩ := c
        obtain ⟨-, -, houtlets⟩ := hc.outlets_of_call hcall
        rw [houtlets]
        exact SinkTree.planned_callAll call (r.trees.get ch) r.session.outlets
  · exact hspares ha.spares

theorem planned_follow (hf : r.follow ts = some r') :
    r'.session.outlets.planned = r.session.outlets.planned := by
  induction ts generalizing r with
  | nil =>
      obtain rfl := Option.some.inj hf
      rfl
  | cons t ts ih =>
      obtain ⟨next, ht, hrest⟩ := follow_cons_eq_some_iff.mp hf
      exact (ih hrest).trans (planned_turn ht)

/-- What a file has got since a relay started: the data of all calls to its composites, but for one
that it has refused. -/
structure Gathers (start : Relay) (i : Nat) (names : List Text)
    (calls : List (Channel × Sink.Call)) (refused : Option (Channel × Sink.Call)) (r : Relay) :
    Prop where
  trees : r.trees = start.trees
  made : r.session.calls = start.session.calls ++ (calls ++ refused.toList)
  untouched : ∀ change, .edit change ∈ r.child.moves → names ≠ change.names
  owns : ∃ content waiting, r.session.outlets.Owns i names content waiting ∧
    content ++ waiting = ((callsTo start.trees i calls).filterMap Sink.Call.data?).flatten

/-- A turn in which no sink is called. -/
theorem Gathers.spares (h : start.Gathers i names calls refused r) (hs : r.Spares r₁)
    (hcalls : r₁.session.calls = r.session.calls) :
    start.Gathers i names calls refused r₁ where
  trees := hs.trees.trans h.trees
  made := hcalls.trans h.made
  untouched := fun change hmem => h.untouched change (hs.edits change hmem)
  owns := by
    obtain ⟨content, waiting, howns, happ⟩ := h.owns
    exact ⟨content, waiting, howns.of_node?_eq hs.sinks (hs.node?_eq h.untouched), happ⟩

theorem Gathers.stirs (h : start.Gathers i names calls refused r) (hs : r.Stirs r₁) :
    start.Gathers i names calls refused r₁ :=
  h.spares hs.spares hs.surrounds.calls_eq

/-- The coordinator makes a call, which the file takes, or refuses as it is planned. -/
theorem Gathers.call {ch : Channel} {call : Sink.Call}
    (hflat : ∀ ch, (start.trees.get ch).IsFlat) (hlead : ∀ ch, (start.trees.get ch).Leads i)
    (h : start.Gathers i names calls none r) (hc : r.Coordinates r₁)
    (hcall : r.phase.call? = some (ch, call)) :
    start.Gathers i names (calls ++ [(ch, call)]) none r₁ ∨
      (∃ e, r.refusedBy? i = some (.system e) ∧ r.session.outlets.Plans i e) ∧
        start.Gathers i names calls (some (ch, call)) r₁ := by
  obtain ⟨htrees, hchild, houtlets⟩ := hc.outlets_of_call hcall
  obtain ⟨content, waiting, howns, happ⟩ := h.owns
  have hrefused : r.refusedBy? i =
      if i ∈ (start.trees.get ch).leaves then r.session.outlets.refusal? i call else none := by
    rw [refusedBy?, hcall, h.trees]
    rfl
  have hwhy : r.refusedBy? i = none ∨
      ∃ e, r.refusedBy? i = some (.system e) ∧ r.session.outlets.Plans i e := by
    rw [hrefused]
    split
    · obtain ⟨_, _, -, ⟨hnone, -⟩ | ⟨hplans, -⟩⟩ := howns.called_self call
      · exact .inl hnone
      · exact .inr hplans
    · exact .inl rfl
  rw [h.trees] at houtlets
  obtain ⟨content', waiting', howns', happ'⟩ := (hflat ch).owns_callAll (hlead ch) howns call
  have hmade : r₁.session.calls = start.session.calls ++ (calls ++ [(ch, call)]) := by
    rw [hc.calls_eq, h.made, hcall, Option.toList_none, List.append_nil, List.append_assoc,
      Option.toList_some]
  have huntouched : ∀ change, .edit change ∈ r₁.child.moves → names ≠ change.names := by
    rw [hchild]
    exact h.untouched
  have howns₁ : r₁.session.outlets.Owns i names content' waiting' :=
    howns'.of_node?_eq (by rw [houtlets]) (by rw [houtlets])
  rw [happ] at happ'
  rcases hwhy with hnone | ⟨e, he, hplans⟩
  · refine .inl ⟨htrees.trans h.trees, ?_, huntouched, content', waiting', howns₁, ?_⟩
    · rw [Option.toList_none, List.append_nil]
      exact hmade
    · rw [happ', flatten_data_callsTo]
      by_cases hi : i ∈ (start.trees.get ch).leaves
      · rw [hrefused, if_pos hi] at hnone
        rw [if_pos ⟨hi, hnone⟩, if_pos hi]
      · rw [if_neg fun hboth => hi hboth.1, if_neg hi]
  · refine .inr ⟨⟨e, he, hplans⟩, htrees.trans h.trees, hmade, huntouched, content', waiting',
      howns₁, ?_⟩
    rw [happ', if_neg, List.append_nil]
    rintro ⟨hi, hr⟩
    rw [hrefused, if_pos hi, hr] at he
    cases he

/-- Whoever moves, the file has got what there was for it, or has refused it as it is planned. -/
theorem Gathers.turn (hflat : ∀ ch, (start.trees.get ch).IsFlat)
    (hlead : ∀ ch, (start.trees.get ch).Leads i) (h : start.Gathers i names calls refused r)
    (hfaulted : Faulted faults r) (hrefused : refused ≠ none → faults ≠ [])
    (ht : r.turn t = some r') :
    ∃ more refused', start.Gathers i names (calls ++ more) refused' r' ∧
      (refused' ≠ none → refused ≠ none ∨ r.refusing t ≠ [] ∧
        ∃ e, .system e ∈ r.refusingBy i t ∧ r.session.outlets.Plans i e) := by
  have hidle {r₁ : Relay} (hs : r.Spares r₁) (hcalls : r₁.session.calls = r.session.calls)
      (hs' : r₁.Stirs r') : ∃ more refused', start.Gathers i names (calls ++ more) refused' r' ∧
        (refused' ≠ none → refused ≠ none ∨ r.refusing t ≠ [] ∧
          ∃ e, .system e ∈ r.refusingBy i t ∧ r.session.outlets.Plans i e) := by
    refine ⟨[], refused, ?_, .inl⟩
    rw [List.append_nil]
    exact (h.spares hs hcalls).stirs hs'
  rcases step_of_turn ht with ⟨rfl, r₁, hc, hs⟩ | ⟨r₁, ha, hs⟩
  · cases hcall : r.phase.call? with
    | none =>
        refine hidle (hc.spares hcall) ?_ hs
        rw [hc.calls_eq, hcall]
        exact List.append_nil _
    | some c =>
        have hnone : refused = none := by
          refine Decidable.byContradiction fun hne => hrefused hne ?_
          exact (hfaulted.eq_nil (by rw [hcall]; nofun)).1
        subst hnone
        rcases h.call hflat hlead hc hcall with hgathers | ⟨⟨e, he, hplans⟩, hgathers⟩
        · exact ⟨[c], none, hgathers.stirs hs, absurd rfl⟩
        · refine ⟨[], some c, ?_, fun _ => .inr ⟨?_, e, ?_, hplans⟩⟩
          · rw [List.append_nil]
            exact hgathers.stirs hs
          · have hsame := refused?_of_refusedBy? (by rw [h.trees]; exact hlead) he
            simp [refusing, hsame]
          · simp [refusingBy, he]
  · exact hidle ha.spares ha.surrounds.calls_eq hs

/-- Whatever the schedule is, a file in front has got the data of every call to its composites but
for one that it has refused itself as it is planned, and that is the last one. -/
theorem Gathers.follow (hflat : ∀ ch, (start.trees.get ch).IsFlat)
    (hlead : ∀ ch, (start.trees.get ch).Leads i) (h : start.Gathers i names calls refused r)
    (hcourse : Course tr faults told r) (hrefused : refused ≠ none → faults ≠ [])
    (hf : r.follow ts = some r') :
    ∃ more refused', start.Gathers i names (calls ++ more) refused' r' ∧
      (refused' ≠ none →
        faults ++ r.refusals ts ≠ [] ∧ (refused ≠ none ∨
          ∃ e, .system e ∈ r.refusalsBy i ts ∧ r.session.outlets.Plans i e)) := by
  induction ts generalizing r calls refused tr faults told with
  | nil =>
      obtain rfl := Option.some.inj hf
      refine ⟨[], refused, ?_, fun hne => ⟨?_, .inl hne⟩⟩
      · rwa [List.append_nil]
      · exact List.append_ne_nil_of_left_ne_nil (hrefused hne) _
  | cons t ts ih =>
      obtain ⟨next, ht, hrest⟩ := follow_cons_eq_some_iff.mp hf
      obtain ⟨more, refused₁, hnext, hwhy⟩ := h.turn hflat hlead hcourse.faulted hrefused ht
      obtain ⟨_, -, hcourse'⟩ := hcourse.turn ht
      have hsilent (hne : refused₁ ≠ none) : faults ++ r.refusing t ≠ [] := by
        rcases hwhy hne with hne | ⟨hne, -⟩
        · exact List.append_ne_nil_of_left_ne_nil (hrefused hne) _
        · exact List.append_ne_nil_of_right_ne_nil _ hne
      obtain ⟨later, refused', hlater, hlast⟩ := ih hnext hcourse' hsilent hrest
      refine ⟨more ++ later, refused', by rwa [← List.append_assoc], fun hne => ?_⟩
      have hrefusals : r.refusals (t :: ts) = r.refusing t ++ next.refusals ts :=
        gather_cons ht ts
      have hby : r.refusalsBy i (t :: ts) = r.refusingBy i t ++ next.refusalsBy i ts :=
        gather_cons ht ts
      obtain ⟨hfaults, hbefore⟩ := hlast hne
      rw [hrefusals, hby, ← List.append_assoc]
      refine ⟨hfaults, ?_⟩
      rcases hbefore with hne₁ | ⟨e, hmem, hplans⟩
      · exact (hwhy hne₁).imp_right fun ⟨_, e, hmem, hplans⟩ =>
          ⟨e, List.mem_append_left _ hmem, hplans⟩
      · refine .inr ⟨e, List.mem_append_right _ hmem, ?_⟩
        rwa [Outlets.Plans, ← planned_turn ht]

/-- An empty file has got nothing yet. -/
theorem Filed.gathers (h : r.Filed i names []) : r.Gathers i names [] none r where
  trees := rfl
  made := (List.append_nil _).symm
  untouched := h.untouched
  owns := by
    obtain ⟨content, waiting, howns, happ, -⟩ := h.owns
    exact ⟨content, waiting, howns, happ⟩

end Relay

end CommandRelay
