import CommandRelay.Proofs.Relay.Course
import CommandRelay.Proofs.Relay.Standstill

/-!
# How the queue is emptied

Whether its chunks are written or dropped, the coordinator takes the events of a channel in the
order in which they were published, up to the end marker: what was published of a channel is what
has been taken, followed by what is in the queue, and a channel is open until its end marker has
been taken (`Relay.Consumes`). No request to cancel, no lost output and no fault changes that. So
once no channel is open, nothing of any channel is left (`Consumes.of_notMem`), and as long as the
coordinator takes events, it can move, or a reader, unless a channel waits for the child
(`Depletes.moves`). A relay that is not broken is drained in this way in every schedule, and it
kills its child for a cancellation only (`Starts.drains`).
-/

namespace CommandRelay

/-- The channels that are open once an event has been taken. -/
def Event.leavesOpen (e : Event) (channels : List Channel) : List Channel :=
  match e with
  | .ended ch => channels.erase ch
  | .chunk .. | .cancelled => channels

/-- Behind the end marker of a channel its reader publishes nothing. -/
theorem Feed.Tells.of_ended {f : Feed} {ch : Channel} {front back : List Event}
    (h : f.Tells ch (front ++ .ended ch :: back)) :
    back = [] ∧ f.outbox = [] ∧ f.finished = true ∧
      ∃ chunks : List Bytes, front = chunks.map (.chunk ch) := by
  obtain ⟨chunks, heq⟩ := h
  rw [List.append_assoc, List.cons_append] at heq
  cases hf : f.finished with
  | false =>
      rw [hf, if_neg Bool.false_ne_true, List.append_nil] at heq
      have hmem : Event.ended ch ∈ chunks.map (.chunk ch) :=
        heq ▸ List.mem_append_right _ List.mem_cons_self
      obtain ⟨data, -, hdata⟩ := List.mem_map.mp hmem
      cases hdata
  | true =>
      rw [hf, if_pos rfl] at heq
      have hnil := Relay.eq_nil_of_ended heq
      rw [hnil] at heq
      obtain ⟨hback, hout⟩ := List.append_eq_nil_iff.mp hnil
      exact ⟨hback, hout, rfl, chunks, List.append_cancel_right heq⟩

namespace Relay

/-- What was published of a channel has been taken or is in the queue, and the channel is open until
its end marker has been taken. -/
def Consumes (told : List Event) (r : Relay) (ch : Channel) : Prop :=
  ∃ taken, told = taken ++ r.queued ch ∧ (ch ∈ r.openChannels ↔ .ended ch ∉ taken)

/-- The queue of a relay is emptied as it should be, and the coordinator waits for an event only as
long as a channel is open. -/
structure Depletes (told : Channel → List Event) (r : Relay) : Prop where
  consumes : ∀ ch, r.Consumes (told ch) ch
  taking : r.phase = .taking → r.openChannels ≠ []

variable {r r₁ r' : Relay} {told : List Event} {tolds : Channel → List Event} {ch : Channel}
  {t : Turn} {ts : List Turn} {tr : List Effect} {faults : List AccessFault}

/-! ## Turns -/

theorem Consumes.of_eq (h : r.Consumes told ch) (hq : r₁.queued ch = r.queued ch)
    (ho : r₁.openChannels = r.openChannels) : r₁.Consumes told ch := by
  unfold Consumes
  rw [hq, ho]
  exact h

/-- The first event is taken from the queue. -/
theorem Consumes.take {e : Event} (h : r.Consumes told ch) (hn : r.openChannels.Nodup)
    (hq : r.queue = e :: r₁.queue) (ho : r₁.openChannels = e.leavesOpen r.openChannels) :
    r₁.Consumes told ch := by
  obtain ⟨taken, htold, hopen⟩ := h
  by_cases he : e.channel? = some ch
  · refine ⟨taken ++ [e], ?_, ?_⟩
    · rw [htold, queued, hq, List.filter_cons_of_pos (by simpa using he), List.append_assoc]
      rfl
    · rw [ho, List.mem_append, not_or, ← hopen]
      cases e with
      | cancelled => cases he
      | chunk ch' data => exact (and_iff_left_of_imp fun _ => by simp).symm
      | ended ch' =>
          obtain rfl := Option.some.inj he
          exact iff_of_false hn.not_mem_erase fun hboth => hboth.2 List.mem_cons_self
  · refine ⟨taken, ?_, ?_⟩
    · rw [htold, queued, hq, List.filter_cons_of_neg (by simpa using he)]
      rfl
    · rw [← hopen, ho]
      cases e with
      | cancelled | chunk => exact Iff.rfl
      | ended ch' => exact List.mem_erase_of_ne fun heq => he (congrArg some heq.symm)

theorem Consumes.coordinates (h : r.Consumes told ch) (hn : r.openChannels.Nodup)
    (hc : r.Coordinates r₁) : r₁.Consumes told ch := by
  cases hc with
  | takeCancelled hp hq => exact h.take hn hq rfl
  | takeEnd hp hq | discardEnd hp ho hq => exact h.take hn hq rfl
  | takeChunk hp hq | dropChunk hp hq => exact h.take hn hq rfl
  | @discard left e queue hp ho hq he =>
      refine h.take hn hq ?_
      cases e with
      | ended ch' => exact absurd rfl (he ch')
      | chunk | cancelled => rfl
  | @writeFault _ _ _ fault | @flushFault _ _ fault => cases fault <;> exact h.of_eq rfl rfl
  | _ => exact h.of_eq rfl rfl

theorem Depletes.coordinates (h : r.Depletes tolds) (hn : r.openChannels.Nodup)
    (hc : r.Coordinates r₁) : r₁.Depletes tolds := by
  refine ⟨fun ch => (h.consumes ch).coordinates hn hc, ?_⟩
  cases hc with
  | look hp ho => exact fun _ => ho
  | @writeFault _ _ _ fault | @flushFault _ _ fault => cases fault <;> exact nofun
  | reap =>
      intro hp
      simp only at hp
      split at hp <;> cases hp
  | @join ch' =>
      intro hp
      cases ch' <;> cases hp
  | discardEnd hp | discard hp =>
      intro hp'
      cases hp.symm.trans hp'
  | _ => exact nofun

theorem isTaking_elapse (time : Nat) (p : Phase) : Phase.elapse time p = .taking ↔ p = .taking := by
  cases p <;> simp [Phase.elapse]

theorem Surrounds.taking (hs : r.Surrounds r₁) (h : r.phase = .taking → r.openChannels ≠ []) :
    r₁.phase = .taking → r₁.openChannels ≠ [] := by
  rw [hs.openChannels]
  rcases hs.phase with hp | ⟨time, hp⟩
  · rwa [hp]
  · rwa [hp, isTaking_elapse]

theorem Depletes.attends (h : r.Depletes tolds)
    (ht : ∀ ch, (r.feeds.get ch).Tells ch (tolds ch)) (ha : r.Attends t r₁) :
    r₁.Depletes fun ch => tolds ch ++ r.publishing ch t := by
  refine ⟨fun ch => ?_, ha.surrounds.taking h.taking⟩
  obtain ⟨taken, htold, hopen⟩ := h.consumes ch
  refine ⟨taken, ?_, by rw [ha.surrounds.openChannels]; exact hopen⟩
  rw [htold, ha.queued ht, List.append_assoc]

theorem Depletes.stirs (h : r.Depletes tolds) (hs : r.Stirs r₁) : r₁.Depletes tolds :=
  ⟨fun ch => (h.consumes ch).of_eq (hs.queued ch) hs.surrounds.openChannels,
    hs.surrounds.taking h.taking⟩

/-- Whoever moves, events go through the queue in their order. -/
theorem Depletes.turn (h : r.Depletes tolds) (hcourse : Course tr faults tolds r)
    (ht : r.turn t = some r') : r'.Depletes fun ch => tolds ch ++ r.publishing ch t := by
  rcases step_of_turn ht with ⟨rfl, r₁, hc, hs⟩ | ⟨r₁, ha, hs⟩
  · have hquiet : (fun ch => tolds ch ++ r.publishing ch .coordinator) = tolds :=
      funext fun ch => List.append_nil _
    rw [hquiet]
    exact (h.coordinates hcourse.waited.nodup hc).stirs hs
  · exact (h.attends hcourse.tells ha).stirs hs

theorem Depletes.follow (h : r.Depletes tolds) (hcourse : Course tr faults tolds r)
    (hf : r.follow ts = some r') : r'.Depletes fun ch => tolds ch ++ r.published ts ch := by
  induction ts generalizing r tr faults tolds with
  | nil =>
      obtain rfl := Option.some.inj hf
      simpa [published, gather] using h
  | cons t ts ih =>
      obtain ⟨next, ht, hrest⟩ := follow_cons_eq_some_iff.mp hf
      obtain ⟨more, -, hnext⟩ := hcourse.turn ht
      have hdepletes := ih (h.turn hcourse ht) hnext hrest
      have hpublished (ch : Channel) :
          r.published (t :: ts) ch = r.publishing ch t ++ next.published ts ch :=
        gather_cons ht ts
      simp only [List.append_assoc] at hdepletes
      simpa only [hpublished] using hdepletes

/-- Nothing has been published when a relay starts. -/
theorem Starts.depletes (h : r.Starts) : r.Depletes fun _ => [] := by
  obtain ⟨n, hn⟩ := h.queue
  refine ⟨fun ch => ⟨[], ?_, ?_⟩, ?_⟩
  · rw [queued, hn, filter_channel_replicate]
    rfl
  · rw [h.openChannels]
    cases ch <;> decide
  · rw [h.phase]
    intro hp
    cases hp

/-! ## The end of a channel -/

/-- Once a channel is no longer open, nothing of it is left: all that its reader has published, and
ever will, has been taken. -/
theorem Consumes.of_notMem (h : r.Consumes told ch) (ht : (r.feeds.get ch).Tells ch told)
    (ho : ch ∉ r.openChannels) :
    r.queued ch = [] ∧ (r.feeds.get ch).outbox = [] ∧ (r.feeds.get ch).finished = true ∧
      ∃ chunks : List Bytes, told = chunks.map (.chunk ch) ++ [.ended ch] := by
  obtain ⟨taken, htold, hopen⟩ := h
  have hended : .ended ch ∈ taken := Decidable.byContradiction fun hnot => ho (hopen.mpr hnot)
  obtain ⟨front, back, rfl⟩ := List.append_of_mem hended
  rw [List.append_assoc, List.cons_append] at htold
  rw [htold] at ht
  obtain ⟨hnil, hout, hfin, chunks, hfront⟩ := ht.of_ended
  exact ⟨(List.append_eq_nil_iff.mp hnil).2, hout, hfin, chunks, by rw [htold, hnil, hfront]⟩

/-- A coordinator that copies waits for no time to pass. -/
theorem left?_of_isCopying {p : Phase} (h : p.isCopying = true) : Phase.left? p = none := by
  cases p with
  | checking | taking | writing | flushing => rfl
  | waiting | abandoning | stopping | reaping | discarding | joining | finished => cases h

/-- As long as the coordinator takes events, it can move, or the reader of an open channel, unless
the child has something to do first. -/
theorem Depletes.moves (h : r.Depletes tolds) (ht : ∀ ch, (r.feeds.get ch).Tells ch (tolds ch))
    (hcap : 0 < r.plan.capacity) (hp : r.phase.isCopying = true) :
    r.moveCoordinator.isSome = true ∨ ∃ ch ∈ r.openChannels, (r.moveReader ch).isSome = true ∨
      (r.feeds.get ch).pipe = [] ∧ (r.feeds.get ch).ended = none := by
  cases hmove : r.moveCoordinator with
  | some r' => exact .inl rfl
  | none =>
      have hfin : r.isFinished = false := by
        refine decide_eq_false fun hdone => ?_
        rw [hdone] at hp
        cases hp
      rcases phase_of_moveCoordinator hmove hfin with ⟨htaking, hq⟩ | ⟨time, hleft, -⟩ | ⟨hreap, -⟩
      · obtain ⟨ch, hch⟩ := List.exists_mem_of_ne_nil _ (h.taking htaking)
        refine .inr ⟨ch, hch, ?_⟩
        cases hreader : r.moveReader ch with
        | some r' => exact .inl rfl
        | none =>
            rcases feed_of_moveReader hreader with ⟨-, hfull⟩ | ⟨hout, hdone | hwaits⟩
            · rw [hq] at hfull
              exact absurd hfull (Nat.not_le_of_lt hcap)
            · -- The reader is done, so its end marker has been taken and the channel is closed.
              obtain ⟨taken, htold, hopen⟩ := h.consumes ch
              obtain ⟨chunks, heq⟩ := ht ch
              rw [queued, hq, List.filter_nil, List.append_nil] at htold
              rw [hout, hdone, if_pos rfl, List.append_nil, htold] at heq
              exact absurd (heq ▸ List.mem_append_right _ List.mem_cons_self) (hopen.mp hch)
            · exact .inr hwaits
      · rw [left?_of_isCopying hp] at hleft
        cases hleft
      · rw [hreap] at hp
        cases hp

/-! ## From the start on -/

/-- How a relay takes what is published, whether or not output is lost. `told` is what the readers
have published of each channel. -/
structure Drains (start : Relay) (told : Channel → List Event) (r : Relay) : Prop where
  /-- The events of a channel are taken from the queue in their order, up to its end marker. -/
  consumed : ∀ ch, r.Consumes (told ch) ch
  /-- As long as events are taken, the coordinator can move, or a reader of an open channel, unless
  this channel waits for the child. -/
  going : r.phase.isCopying = true →
    r.moveCoordinator.isSome = true ∨ ∃ ch ∈ r.openChannels, (r.moveReader ch).isSome = true ∨
      (r.feeds.get ch).pipe = [] ∧ (r.feeds.get ch).ended = none
  /-- Once no more are taken, unless the coordinator has stopped for a cancellation, both end
  markers have been taken, and nothing was or will be published that has not been taken. -/
  drained : r.phase.isCopying = false → r.stopped = false → ∀ ch,
    ch ∉ r.openChannels ∧ r.queued ch = [] ∧ (r.feeds.get ch).outbox = [] ∧
      (r.feeds.get ch).finished = true ∧
      ∃ chunks : List Bytes, told ch = chunks.map (.chunk ch) ++ [.ended ch]
  /-- The child is killed only if the run was cancelled. -/
  alive : ∀ tr, r.session.effects = start.session.effects ++ tr → ∀ group, .killed group ∈ tr →
    r.stopped = true ∧ r.session.isCancelled = true

/-- In every schedule a relay drains its channels, unless it is broken. -/
theorem Starts.drains {start : Relay} (h : start.Starts)
    (hrow : ∀ ch, (start.trees.get ch).IsRow) (hcap : 0 < start.plan.capacity)
    (hf : start.follow ts = some r) (hb : r.broken = none) :
    start.Drains (start.published ts) r := by
  have hcourse := h.course hrow
  have hdepletes := h.depletes.follow hcourse hf
  obtain ⟨made, hmade, hlast⟩ := hcourse.follow hf
  simp only [List.nil_append] at hdepletes hlast
  refine
    { consumed := hdepletes.consumes
      going := fun hp => ?_
      drained := fun hp hs ch => ?_
      alive := fun tr htr group hkill => ?_ }
  · rw [← (follow_advances hf).plan] at hcap
    exact hdepletes.moves hlast.tells hcap hp
  · have hclosed : ch ∉ r.openChannels := by
      rw [hlast.waited.ended hp hs hb]
      exact List.not_mem_nil
    exact ⟨hclosed, (hdepletes.consumes ch).of_notMem (hlast.tells ch) hclosed⟩
  · obtain rfl : made = tr := List.append_cancel_left (hmade.symm.trans htr)
    have hstopped : r.stopped = true := by
      refine (hlast.halted.halting (.inr ⟨group, hkill⟩)).resolve_right fun hbroken => ?_
      rw [hb] at hbroken
      cases hbroken
    exact ⟨hstopped, (hlast.halted.stopped hstopped).1⟩

end Relay

end CommandRelay
