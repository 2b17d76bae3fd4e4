import CommandRelay.Proofs.Relay.Lossless
import CommandRelay.Proofs.Relay.Steps

/-!
# What readers publish and what is taken of it

Whatever becomes of a relay, each of its readers publishes chunks and at most one end marker, after
which nothing comes (`Feed.Tells`). As long as nothing has kept the coordinator from copying
(`Relay.Intact`), it has taken all that the readers have published, or it is in the queue
(`Relay.Conveys`), and once the coordinator has left the copying, it has written every chunk.
-/

namespace CommandRelay

/-- The call to the sinks of a channel that the coordinator is about to make. -/
def Phase.call? : Phase → Option (Channel × Sink.Call)
  | .writing ch data => some (ch, .write data)
  | .flushing ch => some (ch, .flush)
  | _ => none

namespace Feed

/-- What a reader has published, and what it is about to publish, are chunks of its channel and, if
it is done, the end marker behind them. -/
def Tells (f : Feed) (ch : Channel) (told : List Event) : Prop :=
  ∃ chunks : List Bytes, told ++ f.outbox =
    chunks.map (.chunk ch) ++ if f.finished then [.ended ch] else []

variable {f f' : Feed} {ch : Channel} {told : List Event}

theorem finished_close (f : Feed) (ending : Stream.Ending) :
    (f.close ending).finished = f.finished := by
  unfold Feed.close
  split <;> rfl

theorem Tells.of_eq (h : f.Tells ch told) (ho : f'.outbox = f.outbox)
    (hf : f'.finished = f.finished) : f'.Tells ch told := by
  unfold Tells
  rw [ho, hf]
  exact h

theorem Tells.append_of_nil {more : List Event} (h : f.Tells ch told) (hmore : more = []) :
    f.Tells ch (told ++ more) := by
  rw [hmore, List.append_nil]
  exact h

/-- A reader publishes nothing but what is of its channel. -/
theorem Tells.channel? (h : f.Tells ch told) {e : Event} (he : e ∈ f.outbox) :
    e.channel? = some ch := by
  obtain ⟨chunks, heq⟩ := h
  have hmem : e ∈ told ++ f.outbox := List.mem_append_right _ he
  rw [heq] at hmem
  rcases List.mem_append.mp hmem with hmem | hmem
  · obtain ⟨data, -, rfl⟩ := List.mem_map.mp hmem
    rfl
  · split at hmem
    · rw [List.mem_singleton.mp hmem]
      rfl
    · cases hmem

theorem Tells.publish (h : f.Tells ch told) {e : Event} {outbox : List Event}
    (ho : f.outbox = e :: outbox) : ({ f with outbox } : Feed).Tells ch (told ++ [e]) := by
  obtain ⟨chunks, heq⟩ := h
  refine ⟨chunks, ?_⟩
  rw [← heq, ho, List.append_assoc, List.singleton_append]

theorem Tells.read (h : f.Tells ch told) {closing : Option SystemError} (ho : f.outbox = [])
    (hf : f.finished = false) (hr : f.read ch closing = some f') : f'.Tells ch told := by
  obtain ⟨chunks, heq⟩ := h
  rw [ho, hf, List.append_nil] at heq
  simp only [Bool.false_eq_true, ↓reduceIte, List.append_nil] at heq
  rcases read_eq_some hr with ⟨piece, pipe, -, rfl⟩ | ⟨ending, -, -, rfl⟩
  · refine ⟨chunks ++ (f.reader.feed piece).1, ?_⟩
    simp [heq, hf]
  · refine ⟨chunks ++ (f.reader.conclude closing ending).1, ?_⟩
    simp [heq]

end Feed

namespace Relay

/-- What a turn publishes of a channel. -/
def publishing (r : Relay) (ch : Channel) (t : Turn) : List Event :=
  if t = .reader ch then (r.feeds.get ch).outbox.head?.toList else []

/-- A relay that nothing has kept from copying: no output was lost, and neither a fault nor the
cancellation has ended it. -/
structure Intact (r : Relay) : Prop where
  draining : r.draining = false
  broken : r.broken = none
  stopped : r.stopped = false

/-- All that was published of a channel has been taken or is in the queue. -/
def Conveys (told : List Event) (calls : List (Channel × Sink.Call)) (r : Relay) (ch : Channel) :
    Prop :=
  told = r.taken calls ch ++ r.queued ch

variable {r r₁ r' : Relay} {told : List Event} {calls : List (Channel × Sink.Call)} {ch : Channel}
  {t : Turn}

/-! ## The turns of the others -/

theorem publishing_of_read {ch' : Channel} (ho : (r.feeds.get ch').outbox = []) :
    r.publishing ch (.reader ch') = [] := by
  unfold publishing
  split
  · rename_i heq
    rw [← Turn.reader.inj heq, ho]
    rfl
  · rfl

theorem Attends.tells (h : (r.feeds.get ch).Tells ch told) (ha : r.Attends t r₁) :
    (r₁.feeds.get ch).Tells ch (told ++ r.publishing ch t) := by
  -- A feed is replaced, and nothing is published.
  have hset {ch' : Channel} {f : Feed} (hquiet : r.publishing ch t = [])
      (hself : ch' = ch → f.Tells ch told) :
      ((r.feeds.set ch' f).get ch).Tells ch (told ++ r.publishing ch t) := by
    apply Feed.Tells.append_of_nil _ hquiet
    by_cases heq : ch' = ch
    · subst heq
      rw [PerChannel.get_set_self]
      exact hself rfl
    · rw [PerChannel.get_set_of_ne _ (Ne.symm heq)]
      exact h
  cases ha with
  | @publish ch' e outbox ho =>
      by_cases heq : ch' = ch
      · subst heq
        rw [PerChannel.get_set_self, publishing, if_pos rfl, ho]
        exact h.publish ho
      · rw [PerChannel.get_set_of_ne _ (Ne.symm heq), publishing,
          if_neg fun hreader => heq (Turn.reader.inj hreader), List.append_nil]
        exact h
  | @read ch' f ho hf hr =>
      refine hset (publishing_of_read ho) ?_
      rintro rfl
      exact h.read ho hf hr
  | output =>
      refine hset rfl ?_
      rintro rfl
      exact h.of_eq rfl rfl
  | close =>
      refine hset rfl ?_
      rintro rfl
      exact h.of_eq (Feed.outbox_close ..) (Feed.finished_close ..)
  | exit | aside | elapse | due | request => exact h.append_of_nil rfl

/-- What is published goes into the queue. -/
theorem Attends.queued {told : Channel → List Event}
    (h : ∀ ch, (r.feeds.get ch).Tells ch (told ch)) (ha : r.Attends t r₁) :
    r₁.queued ch = r.queued ch ++ r.publishing ch t := by
  cases ha with
  | @publish ch' e outbox ho =>
      have he : e.channel? = some ch' := (h ch').channel? (ho ▸ List.mem_cons_self)
      rw [queued, filter_channel_concat, he, publishing, queued]
      by_cases heq : ch' = ch
      · subst heq
        rw [if_pos rfl, if_pos rfl, ho]
        rfl
      · rw [if_neg fun hsome => heq (Option.some.inj hsome),
          if_neg fun hreader => heq (Turn.reader.inj hreader)]
  | @read ch' f ho => rw [publishing_of_read ho, List.append_nil, queued, queued]
  | output | close | exit | aside | elapse | due | request => exact (List.append_nil _).symm

theorem Surrounds.taken (hs : r.Surrounds r₁) (calls : List (Channel × Sink.Call))
    (ch : Channel) : r₁.taken calls ch = r.taken calls ch := by
  unfold Relay.taken
  rw [hs.phase_eq hand_elapse, hs.openChannels]

/-- Requests to cancel are of no channel. -/
theorem filter_channel_replicate (n : Nat) (ch : Channel) :
    (List.replicate n Event.cancelled).filter (·.channel? = some ch) = [] :=
  List.filter_eq_nil_iff.mpr fun e he => by
    rw [List.eq_of_mem_replicate he]
    exact Bool.false_ne_true

theorem Stirs.queued (hs : r.Stirs r₁) (ch : Channel) : r₁.queued ch = r.queued ch := by
  obtain ⟨n, hn⟩ := hs.queue
  unfold Relay.queued
  rw [hn, List.filter_append, filter_channel_replicate, List.append_nil]

/-! ## The turns of the coordinator -/

/-- Behind the end marker of a channel that was taken there is nothing of it. -/
theorem Conveys.of_notMem (h : r.Conveys told calls ch) (ht : (r.feeds.get ch).Tells ch told)
    (ho : ch ∉ r.openChannels) :
    r.queued ch = [] ∧ (r.feeds.get ch).outbox = [] ∧ (r.feeds.get ch).finished = true := by
  obtain ⟨chunks, heq⟩ := ht
  rw [h, taken, if_neg ho] at heq
  simp only [List.append_assoc, List.singleton_append] at heq
  rw [← List.append_assoc] at heq
  cases hf : (r.feeds.get ch).finished with
  | true =>
      rw [hf, if_pos rfl] at heq
      obtain ⟨hq, hout⟩ := List.append_eq_nil_iff.mp (eq_nil_of_ended heq)
      exact ⟨hq, hout, rfl⟩
  | false =>
      rw [hf, if_neg Bool.false_ne_true, List.append_nil] at heq
      have hmem : Event.ended ch ∈ chunks.map (.chunk ch) :=
        heq ▸ List.mem_append_right _ List.mem_cons_self
      obtain ⟨data, -, hdata⟩ := List.mem_map.mp hmem
      cases hdata

/-- A channel of which anything is in the queue is open. -/
theorem Conveys.mem_of_queue (h : r.Conveys told calls ch)
    (ht : (r.feeds.get ch).Tells ch told) {e : Event} {queue : List Event}
    (hq : r.queue = e :: queue) (he : e.channel? = some ch) : ch ∈ r.openChannels := by
  refine Decidable.byContradiction fun ho => ?_
  have hnil := (h.of_notMem ht ho).1
  rw [queued, hq, List.filter_cons_of_pos (by simpa using he)] at hnil
  cases hnil

theorem Coordinates.intact (hc : r.Coordinates r₁) (hi : r₁.Intact) : r.Intact := by
  cases hc with
  | stop | takeCancelled => cases hi.stopped
  | @writeFault _ _ _ fault | @flushFault _ _ fault =>
      cases fault with
      | system => cases hi.draining
      | unencodable | invalid | endless | unsupported => cases hi.broken
  | _ => exact ⟨hi.draining, hi.broken, hi.stopped⟩

theorem Surrounds.intact (hs : r.Surrounds r₁) (hi : r₁.Intact) : r.Intact :=
  ⟨hs.draining ▸ hi.draining, hs.broken ▸ hi.broken, hs.stopped ▸ hi.stopped⟩

/-- What the coordinator takes from the queue it has in hand, and writes. -/
theorem Conveys.coordinates (h : r.Conveys told calls ch)
    (ht : (r.feeds.get ch).Tells ch told) (hn : r.openChannels.Nodup)
    (hopen : r.phase.isCopying = false → r.openChannels = []) (hc : r.Coordinates r₁)
    (hi : r₁.Intact) : r₁.Conveys told (calls ++ r.phase.call?.toList) ch := by
  -- The coordinator moves between phases in which it has nothing in hand.
  have hidle (hq : r₁.queue = r.queue) (ho : r₁.openChannels = r.openChannels)
      (hh : r.phase.hand = .empty) (hh₁ : r₁.phase.hand = .empty) (hcall : r.phase.call? = none) :
      r₁.Conveys told (calls ++ r.phase.call?.toList) ch := by
    have h' := h
    rw [Conveys, taken, queued, hh] at h'
    rwa [Conveys, taken, queued, hcall, hh₁, hq, ho, Option.toList_none, List.append_nil]
  cases hc with
  | stop | takeCancelled => cases hi.stopped
  | dropChunk _ _ hd => cases hd.symm.trans hi.draining
  | @writeFault _ _ _ fault | @flushFault _ _ fault =>
      cases fault with
      | system => cases hi.draining
      | unencodable | invalid | endless | unsupported => cases hi.broken
  | look hp | lookAgain hp | abandon hp | kill hp | discarded hp =>
      exact hidle rfl rfl (by rw [hp]; rfl) rfl (by rw [hp]; rfl)
  | wait hp =>
      rcases hp with ⟨hp, -⟩ | ⟨hp, -⟩ <;>
        exact hidle rfl rfl (by rw [hp]; rfl) rfl (by rw [hp]; rfl)
  | reap hp =>
      have hhand : (if r.broken.isSome then Phase.finished
          else .discarding r.plan.patience).hand = .empty := by split <;> rfl
      rcases hp with hp | hp | ⟨left, hp⟩ <;>
        exact hidle rfl rfl (by rw [hp]; rfl) hhand (by rw [hp]; rfl)
  | @join ch' _ _ hp =>
      have hhand : (r.afterJoin ch').hand = .empty := by cases ch' <;> rfl
      exact hidle rfl rfl (by rw [hp]; rfl) hhand (by rw [hp]; rfl)
  | discardEnd hp ho | discard hp ho => exact absurd (hopen (by rw [hp]; rfl)) ho
  | takeEnd hp hq =>
      have ho := fun hch => h.mem_of_queue ht hq (congrArg some hch)
      have hcall : r.phase.call? = none := by rw [hp]; rfl
      rw [hcall, Option.toList_none, List.append_nil]
      exact h.trans (taken_takeEnd ho hn hp hq).symm
  | takeChunk hp hq =>
      have ho := fun hch => h.mem_of_queue ht hq (congrArg some hch)
      have hcall : r.phase.call? = none := by rw [hp]; rfl
      rw [hcall, Option.toList_none, List.append_nil]
      exact h.trans (taken_takeChunk ho hp hq).symm
  | write hp =>
      rw [hp]
      exact h.trans (congrArg (· ++ r.queued ch) (taken_write hp).symm)
  | flush hp =>
      rw [hp]
      exact h.trans (congrArg (· ++ r.queued ch) (taken_flush hp).symm)

/-- Once all channels have ended and nothing is in hand, every chunk has been written. -/
theorem Conveys.written (h : r.Conveys told calls ch) (ht : (r.feeds.get ch).Tells ch told)
    (ho : r.openChannels = []) (hhand : r.phase.hand = .empty) :
    told = (writesOn ch calls).map (.chunk ch) ++ [.ended ch] := by
  have hnil := (h.of_notMem ht (by rw [ho]; exact List.not_mem_nil)).1
  rw [h, hnil, taken, hhand, ho, if_neg List.not_mem_nil]
  simp [Hand.holding]

end Relay

end CommandRelay
