import CommandRelay.Proofs.Relay.Course
import CommandRelay.Proofs.Relay.Upkeep

/-!
# What has been copied by any moment

A turn in which no sink is called leaves the sinks alone, and of the disk it changes at most what
the child itself edits (`Relay.Spares`). So as long as no sink has refused a call, whatever else
disturbs a relay, its calls copy chunk after chunk, each sink has taken the calls to its composites,
and a file to which only one sink writes has got what the sink was given (`Relay.Tallies`).
-/

namespace CommandRelay

/-- Moves left to a child that was killed were left to it before. -/
theorem Child.mem_of_mem_kill {c : Child} {m : Move} (h : m ∈ c.kill.1.moves) : m ∈ c.moves := by
  rcases c.kill_cases with ⟨code, hkill⟩ | ⟨-, hkill⟩
  · rw [hkill, (c.endEarly_fields code).1] at h
    exact (List.mem_filter.mp h).1
  · rwa [hkill] at h

/-- A child that lets time pass changes no edit that it has yet to make. -/
theorem Child.mem_of_mem_elapse {c : Child} {change : DiskEdit} {time : Nat}
    (h : .edit change ∈ (c.elapse time).moves) : .edit change ∈ c.moves := by
  unfold elapse at h
  split at h
  · rename_i t rest hm
    rw [hm]
    exact List.mem_cons_of_mem _ ((List.mem_cons.mp h).resolve_left nofun)
  · exact h

/-- A coordinator that is about to call no sink has nothing in hand. -/
theorem Phase.hand_of_call? {p : Phase} (h : p.call? = none) : p.hand = .empty := by
  cases p with
  | writing | flushing => cases h
  | _ => rfl

/-- Whoever has copied chunks may take up the next one. -/
theorem Paired.of_empty {calls : List (Channel × Sink.Call)} {hand : Hand}
    (h : Paired .empty calls) (hne : ∀ ch, hand ≠ .written ch) : Paired hand calls := by
  cases h with
  | empty copies =>
      cases hand with
      | empty => exact .empty copies
      | chunk ch data => exact .chunk copies
      | written ch => exact absurd rfl (hne ch)

namespace Relay

variable {start r r₁ r' : Relay} {calls : List (Channel × Sink.Call)} {t : Turn} {ts : List Turn}

/-! ## Turns in which no sink is called -/

/-- A relay whose sinks were left alone; the child may have edited the disk. -/
structure Spares (r r' : Relay) : Prop where
  trees : r'.trees = r.trees
  sinks : r'.session.outlets.sinks = r.session.outlets.sinks
  disk : r'.session.outlets.disk = r.session.outlets.disk ∨
    ∃ change, .edit change ∈ r.child.moves ∧
      r'.session.outlets.disk = r.session.outlets.disk.apply change
  edits : ∀ change, .edit change ∈ r'.child.moves → .edit change ∈ r.child.moves

theorem spares_of_eq (ht : r'.trees = r.trees) (ho : r'.session.outlets = r.session.outlets)
    (hm : ∀ change, .edit change ∈ r'.child.moves → .edit change ∈ r.child.moves) :
    r.Spares r' :=
  ⟨ht, by rw [ho], .inl (by rw [ho]), hm⟩

/-- The coordinator touches the sinks only to call them. -/
theorem Coordinates.spares (hc : r.Coordinates r₁) (hcall : r.phase.call? = none) :
    r.Spares r₁ := by
  cases hc with
  | write hp | writeFault hp | flush hp | flushFault hp =>
      rw [hp] at hcall
      cases hcall
  | kill hp hs => exact spares_of_eq rfl hs.outlets fun change => Child.mem_of_mem_kill
  | reap hp hcode hs =>
      refine spares_of_eq rfl hs.outlets fun change hmem => ?_
      unfold Child.reap at hmem
      split at hmem <;> exact hmem
  | join hp hs => exact spares_of_eq rfl hs.outlets fun _ => id
  | _ => exact spares_of_eq rfl rfl fun _ => id

/-- Those who surround the coordinator call no sink. -/
theorem Attends.spares (ha : r.Attends t r₁) : r.Spares r₁ := by
  cases ha with
  | publish | read | due | request => exact spares_of_eq rfl rfl fun _ => id
  | elapse => exact spares_of_eq rfl rfl fun change => Child.mem_of_mem_elapse
  | exit hl hm =>
      refine spares_of_eq rfl rfl fun change hmem => ?_
      rcases hm with ⟨-, rfl⟩ | hm
      · cases hmem
      · rw [hm]
        exact List.mem_cons_of_mem _ hmem
  | aside hm hside hd =>
      refine ⟨rfl, rfl, ?_, fun change hmem => ?_⟩
      · rcases hd with hd | ⟨change, rfl, hd⟩
        · exact .inl hd
        · exact .inr ⟨change, hm ▸ List.mem_cons_self, hd⟩
      · rw [hm]
        exact List.mem_cons_of_mem _ hmem
  | output hm =>
      refine spares_of_eq rfl rfl fun change hmem => ?_
      rw [hm]
      exact mem_of_mem_leftover hmem
  | close hm =>
      refine spares_of_eq rfl rfl fun change hmem => ?_
      rw [hm]
      exact List.mem_cons_of_mem _ hmem

/-- Requests to cancel touch no sink. -/
theorem Spares.stirs (h : r.Spares r₁) (hs : r₁.Stirs r') : r.Spares r' where
  trees := by rw [hs.rest]; exact h.trees
  sinks := by rw [hs.session.outlets]; exact h.sinks
  disk := by rw [hs.session.outlets]; exact h.disk
  edits := by rw [hs.rest]; exact h.edits

theorem Stirs.spares (hs : r.Stirs r₁) : r.Spares r₁ :=
  (spares_of_eq rfl rfl fun _ => id : r.Spares r).stirs hs

/-- A file that the child does not edit is what it was. -/
theorem Spares.node?_eq {names : List Text} (hs : r.Spares r₁)
    (h : ∀ change, .edit change ∈ r.child.moves → names ≠ change.names) :
    r₁.session.outlets.disk.node? names = r.session.outlets.disk.node? names := by
  rcases hs.disk with hd | ⟨change, hmem, hd⟩
  · rw [hd]
  · rw [hd]
    exact Disk.node?_apply_of_ne (h change hmem)

/-! ## Calls -/

theorem Coordinates.calls_eq (hc : r.Coordinates r₁) :
    r₁.session.calls = r.session.calls ++ r.phase.call?.toList := by
  obtain ⟨more, he, hcalls, -⟩ := hc.grows
  rw [Session.calls, he, List.filterMap_append, hcalls]
  rfl

theorem Surrounds.calls_eq (hs : r.Surrounds r₁) : r₁.session.calls = r.session.calls := by
  obtain ⟨more, he, hmore⟩ := hs.effects
  rw [Session.calls, he, List.filterMap_append, call?_of_isCancelled hmore, List.append_nil]
  rfl

/-! ## Tallies -/

/-- What a relay has copied since it started, if no sink has refused a call. -/
structure Tallies (start : Relay) (calls : List (Channel × Sink.Call)) (r : Relay) : Prop where
  trees : r.trees = start.trees
  made : r.session.calls = start.session.calls ++ calls
  paired : Paired r.phase.hand calls
  received : r.Received start.session.outlets calls
  filed : ∀ i names, start.Filed i names [] → r.Filed i names calls

/-- A turn in which no sink is called. -/
theorem Tallies.spares (h : start.Tallies calls r) (hs : r.Spares r₁)
    (hcalls : r₁.session.calls = r.session.calls) (hpaired : Paired r₁.phase.hand calls)
    (hhand : ∀ ch, r.phase.hand = .written ch → r₁.phase.hand = .written ch) :
    start.Tallies calls r₁ where
  trees := hs.trees.trans h.trees
  made := hcalls.trans h.made
  paired := hpaired
  received := by
    intro i s hsink
    rw [hs.sinks, hs.trees]
    exact h.received i s hsink
  filed := fun i names hf => by
    have hfiled := h.filed i names hf
    exact hfiled.of_sinks_eq hs.edits hs.trees hs.sinks (hs.node?_eq hfiled.untouched) hhand

theorem Tallies.surrounds (h : start.Tallies calls r) (hspares : r.Spares r₁)
    (hs : r.Surrounds r₁) : start.Tallies calls r₁ := by
  have hhand : r₁.phase.hand = r.phase.hand := hs.phase_eq hand_elapse
  refine h.spares hspares hs.calls_eq ?_ fun ch hp => hhand.trans hp
  rw [hhand]
  exact h.paired

/-- The coordinator makes the call that it is about to make, and no sink refuses it. -/
theorem Tallies.coordinates (hflat : ∀ ch, (start.trees.get ch).IsFlat)
    (h : start.Tallies calls r) (hc : r.Coordinates r₁) (hl : r₁.lost = none)
    (hb : r₁.broken = none) : start.Tallies (calls ++ r.phase.call?.toList) r₁ := by
  have hcalls : r₁.session.calls = start.session.calls ++ (calls ++ r.phase.call?.toList) := by
    rw [hc.calls_eq, h.made, List.append_assoc]
  have hflat' : ∀ ch, (r.trees.get ch).IsFlat := by rwa [h.trees]
  -- Unless it calls sinks, the coordinator has nothing in hand, and may take up a chunk.
  have hidle (hcall : r.phase.call? = none) (hhand : ∀ ch, r₁.phase.hand ≠ .written ch) :
      start.Tallies (calls ++ r.phase.call?.toList) r₁ := by
    have hempty := Phase.hand_of_call? hcall
    have hpaired := h.paired
    rw [hempty] at hpaired
    have hsame := hc.calls_eq
    rw [hcall, Option.toList_none, List.append_nil] at hsame ⊢
    refine h.spares (hc.spares hcall) hsame (hpaired.of_empty hhand) fun ch hp => ?_
    cases hempty.symm.trans hp
  cases hc with
  | @write ch data o n hp hw =>
      rw [hp] at hcalls ⊢
      have hpaired := h.paired
      rw [hp] at hpaired
      have hdelivers := (hflat' ch).write_delivers hw
      refine
        { trees := h.trees
          made := hcalls
          paired := ?_
          received := h.received.deliver (fun i s hs => hdelivers i s hs) rfl
          filed := fun i names hf => (h.filed i names hf).write (hflat' ch) hp hw rfl }
      cases hpaired with
      | chunk copies => exact .written copies data
  | @flush ch o hp hf =>
      rw [hp] at hcalls ⊢
      have hpaired := h.paired
      rw [hp] at hpaired
      have hdelivers := (hflat' ch).flush_delivers hf
      refine
        { trees := h.trees
          made := hcalls
          paired := ?_
          received := h.received.deliver (fun i s hs => hdelivers i s hs) rfl
          filed := fun i names hfile => (h.filed i names hfile).flush (hflat' ch) hp hf rfl }
      cases hpaired with
      | written copies data =>
          have hcopies : copies.flatMap copy ++ [(ch, .write data)] ++ [(ch, .flush)] =
              (copies ++ [(ch, data)]).flatMap copy := by
            rw [List.flatMap_append, List.flatMap_singleton, List.append_assoc]
            rfl
          exact hcopies ▸ .empty _
  | @writeFault _ _ _ fault | @flushFault _ _ fault =>
      cases fault with
      | system => cases hl
      | unencodable | invalid | endless | unsupported => cases hb
  | reap hp =>
      refine hidle ?_ fun ch => ?_
      · rcases hp with hp | hp | ⟨left, hp⟩ <;> rw [hp] <;> rfl
      · simp only
        split <;> nofun
  | @join ch' _ _ hp =>
      refine hidle (by rw [hp]; rfl) fun ch => ?_
      cases ch' <;> nofun
  | wait hp | stop hp => exact hidle (by rcases hp with ⟨hp, -⟩ | ⟨hp, -⟩ <;> rw [hp] <;> rfl) nofun
  | discardEnd hp | discard hp =>
      refine hidle (by rw [hp]; rfl) fun ch hhand => ?_
      rw [hp] at hhand
      cases hhand
  | look hp | lookAgain hp | takeCancelled hp | takeEnd hp | takeChunk hp | dropChunk hp
  | abandon hp | kill hp | discarded hp => exact hidle (by rw [hp]; rfl) nofun

/-- Whoever moves, unless a sink refuses a call. -/
theorem Tallies.turn (hflat : ∀ ch, (start.trees.get ch).IsFlat) (h : start.Tallies calls r)
    (ht : r.turn t = some r') (hl : r'.lost = none) (hb : r'.broken = none) :
    ∃ more, start.Tallies (calls ++ more) r' := by
  rcases step_of_turn ht with ⟨-, r₁, hc, hs⟩ | ⟨r₁, ha, hs⟩
  · have h₁ := h.coordinates hflat hc (hs.surrounds.lost ▸ hl) (hs.surrounds.broken ▸ hb)
    exact ⟨_, h₁.surrounds hs.spares hs.surrounds⟩
  · refine ⟨[], ?_⟩
    rw [List.append_nil]
    exact (h.surrounds ha.spares ha.surrounds).surrounds hs.spares hs.surrounds

/-- A relay that has only just started has copied nothing. -/
theorem Starts.tallies (h : r.Starts) : r.Tallies [] r where
  trees := rfl
  made := (List.append_nil _).symm
  paired := by
    rw [h.phase]
    exact .empty []
  received := fun i s hs => ⟨s, hs, .nil⟩
  filed := fun _ _ => id

end Relay

end CommandRelay
