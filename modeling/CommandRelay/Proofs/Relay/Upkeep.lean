import CommandRelay.Proofs.Relay.Conveyance
import CommandRelay.Proofs.Relay.Interruption

/-!
# What keeps a relay going

A child that ends both of its channels, and never pauses for good, leaves nobody in the dark: as
long as the coordinator still expects the end of a channel, the child has yet to end it, the reader
to read or publish it, or the coordinator to take it from the queue. `Relay.Upkeep` says so, and
that the coordinator waits for the exit without a limit only after a kill that was refused. It is
kept by everything that can happen to a relay, exceptions included (`Upkeep.pursue`).
-/

namespace CommandRelay

/-! ## Moves that end a channel -/

namespace Move

/-- Moves that end a channel, and write nothing on it once they have. -/
def Ends (ch : Channel) : List Move → Prop
  | [] => False
  | .close ch' _ :: rest => if ch' = ch then Silent ch rest else Ends ch rest
  | .output .. :: rest | .edit _ :: rest | .exit :: rest | .pause _ :: rest => Ends ch rest

variable {ch ch' : Channel} {moves rest : List Move}

theorem Silent.endings (h : Silent ch moves) : Silent ch (Child.endings moves) :=
  fun data hmem => h data (List.mem_filter.mp hmem).1

/-- What is left of the moves of a child that was killed ends the channels all the same. -/
theorem Ends.endings (h : Ends ch moves) : Ends ch (Child.endings moves) := by
  induction moves with
  | nil => exact h
  | cons m rest ih =>
      cases m with
      | output | edit | exit | pause => exact ih h
      | close ch' ending =>
          have hendings : Child.endings (.close ch' ending :: rest) =
              .close ch' ending :: Child.endings rest := rfl
          rw [hendings]
          unfold Ends at h ⊢
          split
          · rename_i heq
            rw [if_pos heq] at h
            exact h.endings
          · rename_i hne
            rw [if_neg hne] at h
            exact ih h

theorem ends_leftover {data : Bytes} (h : Ends ch (.output ch' data :: rest)) :
    Ends ch (leftover ch' data rest) := by
  unfold leftover
  split <;> exact h

end Move

/-! ## Channels on their way to the end -/

namespace Feed

/-- A channel that the child has yet to end, or has ended for good; its reader is done only when
nothing is left to read. -/
structure Leads (f : Feed) (ch : Channel) (moves : List Move) : Prop where
  ending : f.ended = none ∧ Move.Ends ch moves ∨ f.ended.isSome = true ∧ Move.Silent ch moves
  finished : f.finished = true → f.pipe = [] ∧ f.ended.isSome = true

variable {f f' : Feed} {ch ch' : Channel} {moves moves' rest : List Move}

theorem Leads.mono (h : f.Leads ch moves) (hends : Move.Ends ch moves → Move.Ends ch moves')
    (hsilent : Move.Silent ch moves → Move.Silent ch moves') : f.Leads ch moves' :=
  ⟨h.ending.imp (And.imp_right hends) (And.imp_right hsilent), h.finished⟩

/-- A move that says nothing of the channel is made. -/
theorem Leads.tail {m : Move} (h : f.Leads ch (m :: rest))
    (hm : m.IsAside ∨ ∃ ch', m = .output ch' []) : f.Leads ch rest := by
  refine h.mono (fun hends => ?_) Move.Silent.tail
  cases m with
  | output | edit | exit | pause => exact hends
  | close =>
      rcases hm with hm | ⟨ch', hm⟩
      · exact hm.elim
      · cases hm

theorem Leads.output {data : Bytes} (h : f.Leads ch (.output ch data :: rest)) :
    ({ f with pipe := f.pipe ++ [data.take Stream.readSize] } : Feed).Leads ch
      (Move.leftover ch data rest) := by
  have hopen : f.ended = none ∧ Move.Ends ch (.output ch data :: rest) :=
    h.ending.resolve_right fun hs => hs.2 data List.mem_cons_self
  refine ⟨.inl ⟨hopen.1, Move.ends_leftover hopen.2⟩, fun hfin => ?_⟩
  have hended := (h.finished hfin).2
  rw [hopen.1] at hended
  cases hended

theorem Leads.output_of_ne {data : Bytes} (h : f.Leads ch (.output ch' data :: rest))
    (hne : ch' ≠ ch) : f.Leads ch (Move.leftover ch' data rest) :=
  h.mono Move.ends_leftover (silent_leftover hne)

/-- The channel is ended, unless it has been. -/
theorem Leads.close {ending : Stream.Ending} (h : f.Leads ch (.close ch ending :: rest)) :
    (f.close ending).Leads ch rest := by
  unfold Feed.close
  rcases h.ending with ⟨hnone, hends⟩ | ⟨hsome, hsilent⟩
  · rw [Move.Ends, if_pos rfl] at hends
    rw [if_pos (by rw [hnone]; rfl)]
    exact ⟨.inr ⟨rfl, hends⟩, fun hfin => ⟨(h.finished hfin).1, rfl⟩⟩
  · have hnot : ¬ f.ended.isNone := by simp [Option.isSome_iff_ne_none.mp hsome]
    rw [if_neg hnot]
    exact ⟨.inr ⟨hsome, hsilent.tail⟩, h.finished⟩

theorem Leads.close_of_ne {ending : Stream.Ending} (h : f.Leads ch (.close ch' ending :: rest))
    (hne : ch' ≠ ch) : f.Leads ch rest := by
  refine h.mono (fun hends => ?_) Move.Silent.tail
  rwa [Move.Ends, if_neg hne] at hends

theorem Leads.read {closing : Option SystemError} (h : f.Leads ch moves)
    (hf : f.finished = false) (hr : f.read ch closing = some f') : f'.Leads ch moves := by
  rcases read_eq_some hr with ⟨piece, pipe, -, rfl⟩ | ⟨ending, hpipe, hended, rfl⟩
  · refine ⟨h.ending, fun hfin => ?_⟩
    cases hf.symm.trans hfin
  · exact ⟨h.ending, fun _ => ⟨hpipe, by rw [hended]; rfl⟩⟩

/-- Time passes for the child. -/
theorem Leads.elapse {c : Child} (h : f.Leads ch c.moves) (time : Nat) :
    f.Leads ch (c.elapse time).moves := by
  unfold Child.elapse
  split
  · rename_i t rest hm
    rw [hm] at h
    refine h.mono id fun hsilent data hmem => ?_
    rcases List.mem_cons.mp hmem with heq | hmem
    · cases heq
    · exact hsilent.tail data hmem
  · exact h

end Feed

/-! ## Children that resist a kill -/

namespace Child

/-- A kill is refused, and the child goes on. -/
def Resists (c : Child) : Prop :=
  c.killFault.isSome = true ∧ c.yields = false

/-- A kill ends a child, with what is left of its moves, or the child resists and does not
change. -/
theorem kill_cases (c : Child) :
    (∃ code, c.kill.1 = c.endEarly code) ∨ c.Resists ∧ c.kill.1 = c := by
  unfold kill
  split
  · exact .inl ⟨-9, rfl⟩
  · rename_i e hsome
    cases hy : c.yields with
    | true => exact .inl ⟨c.exitCode, rfl⟩
    | false => exact .inr ⟨⟨by rw [hsome]; rfl, hy⟩, rfl⟩

theorem Resists.kill_fst {c : Child} (h : c.Resists) : c.kill.1 = c := by
  obtain ⟨e, hsome⟩ := Option.isSome_iff_exists.mp h.1
  unfold kill
  rw [hsome, h.2]
  rfl

/-- A child that ends early has exited, and only ends of channels are left of its moves. -/
theorem endEarly_fields (c : Child) (code : Int) :
    (c.endEarly code).moves = endings c.moves ∧ (c.endEarly code).code? ≠ none ∧
      (c.endEarly code).killFault = c.killFault ∧ (c.endEarly code).yields = c.yields := by
  unfold endEarly
  cases c.life <;> simp [code?]

theorem awake_elapse {c : Child} (h : .pause none ∉ c.moves) (time : Nat) :
    .pause none ∉ (c.elapse time).moves := by
  unfold elapse
  split
  · rename_i t rest hm
    rw [hm] at h
    intro hmem
    rcases List.mem_cons.mp hmem with heq | hmem
    · cases heq
    · exact h (List.mem_cons_of_mem _ hmem)
  · exact h

end Child

namespace Relay

/-- What keeps a relay going whose child was launched as it was: the coordinator waits for the ends
of channels that have yet to come, and without a limit only for a child that is about to exit or
could not be killed. -/
structure Upkeep (launched : Child) (r : Relay) : Prop where
  room : 0 < r.plan.capacity
  nodup : r.openChannels.Nodup
  taking : r.phase = .taking → r.openChannels ≠ []
  leads : ∀ ch, (r.feeds.get ch).Leads ch r.child.moves
  marked : ∀ ch, (r.feeds.get ch).finished = true → ch ∈ r.openChannels →
    .ended ch ∈ (r.feeds.get ch).outbox ∨ .ended ch ∈ r.queue
  awake : .pause none ∉ r.child.moves
  temper : r.child.killFault = launched.killFault ∧ r.child.yields = launched.yields
  refused : r.phase = .reaping → r.child.code? = none → launched.Resists

variable {launched : Child} {r r₁ r' : Relay}

/-- A child resists a kill exactly if it was launched so. -/
theorem Upkeep.resists_iff (h : r.Upkeep launched) : r.child.Resists ↔ launched.Resists := by
  unfold Child.Resists
  rw [h.temper.1, h.temper.2]

/-! ### The coordinator -/

/-- The coordinator goes on without touching channels, queue and child. -/
theorem Upkeep.move (h : r.Upkeep launched) (hplan : r₁.plan = r.plan)
    (ho : r₁.openChannels = r.openChannels) (hf : r₁.feeds = r.feeds) (hq : r₁.queue = r.queue)
    (hc : r₁.child = r.child) (htaking : r₁.phase = .taking → r.openChannels ≠ [])
    (hreaping : r₁.phase = .reaping → r.phase = .reaping) : r₁.Upkeep launched where
  room := hplan ▸ h.room
  nodup := ho ▸ h.nodup
  taking := ho ▸ htaking
  leads := by
    rw [hf, hc]
    exact h.leads
  marked := by
    rw [ho, hf, hq]
    exact h.marked
  awake := hc ▸ h.awake
  temper := hc ▸ h.temper
  refused := fun hp hcode => h.refused (hreaping hp) (hc ▸ hcode)

/-- The coordinator takes an event from the queue. -/
theorem Upkeep.take {e : Event} {queue : List Event} {openChannels : List Channel} {p : Phase}
    (stopped : Bool) (h : r.Upkeep launched) (hq : r.queue = e :: queue)
    (ho : openChannels.Sublist r.openChannels) (he : ∀ ch, e = .ended ch → ch ∉ openChannels)
    (htaking : p ≠ .taking) (hreaping : p ≠ .reaping) :
    ({ r with queue, openChannels, phase := p, stopped } : Relay).Upkeep launched where
  room := h.room
  nodup := ho.nodup h.nodup
  taking := fun hp => absurd hp htaking
  leads := h.leads
  marked := fun ch hfin hmem => by
    rcases h.marked ch hfin (ho.subset hmem) with hout | hqueue
    · exact .inl hout
    · rw [hq] at hqueue
      rcases List.mem_cons.mp hqueue with heq | hqueue
      · exact absurd hmem (he ch heq.symm)
      · exact .inr hqueue
  awake := h.awake
  temper := h.temper
  refused := fun hp => absurd hp hreaping

/-- The coordinator takes the end marker of a channel. -/
theorem Upkeep.takeEnd {ch : Channel} {queue : List Event} {p : Phase} (h : r.Upkeep launched)
    (hq : r.queue = .ended ch :: queue) (htaking : p ≠ .taking) (hreaping : p ≠ .reaping) :
    ({ r with queue, openChannels := r.openChannels.erase ch, phase := p } : Relay).Upkeep
      launched := by
  refine h.take r.stopped hq List.erase_sublist (fun ch' heq => ?_) htaking hreaping
  obtain rfl := Event.ended.inj heq
  exact h.nodup.not_mem_erase

theorem lose_fields (r : Relay) (fault : AccessFault) :
    (r.lose fault).plan = r.plan ∧ (r.lose fault).openChannels = r.openChannels ∧
      (r.lose fault).feeds = r.feeds ∧ (r.lose fault).queue = r.queue := by
  cases fault <;> exact ⟨rfl, rfl, rfl, rfl⟩

theorem Upkeep.lose (h : r.Upkeep launched) (fault : AccessFault) :
    (r.lose fault).Upkeep launched := by
  obtain ⟨hplan, ho, hf, hq⟩ := lose_fields r fault
  obtain ⟨hp, hc, -⟩ := lose_eq r fault
  refine h.move hplan ho hf hq hc (fun heq => ?_) fun heq => ?_
  · rcases hp with hp | hp <;> cases hp.symm.trans heq
  · rcases hp with hp | hp <;> cases hp.symm.trans heq

theorem Upkeep.kill {s : Session} (h : r.Upkeep launched) :
    ({ r with child := r.child.kill.1, session := s, phase := .reaping } : Relay).Upkeep
      launched := by
  rcases r.child.kill_cases with ⟨code, hkill⟩ | ⟨hresists, hkill⟩
  · obtain ⟨hmoves, hcode, htemper⟩ := r.child.endEarly_fields code
    rw [hkill]
    refine ⟨h.room, h.nodup, nofun, fun ch => ?_, h.marked, ?_, ?_, fun _ hnone => ?_⟩
    · rw [hmoves]
      exact (h.leads ch).mono Move.Ends.endings Move.Silent.endings
    · rw [hmoves]
      exact fun hmem => h.awake (List.mem_filter.mp hmem).1
    · exact ⟨htemper.1.trans h.temper.1, htemper.2.trans h.temper.2⟩
    · exact absurd hnone hcode
  · rw [hkill]
    exact ⟨h.room, h.nodup, nofun, h.leads, h.marked, h.awake, h.temper,
      fun _ _ => h.resists_iff.mp hresists⟩

theorem Upkeep.reap {s : Session} {p : Phase} (h : r.Upkeep launched)
    (hp : p.isWindingUp = true) :
    ({ r with child := r.child.reap, session := s, phase := p } : Relay).Upkeep launched := by
  have hfields : r.child.reap.moves = r.child.moves ∧
      r.child.reap.killFault = r.child.killFault ∧ r.child.reap.yields = r.child.yields := by
    unfold Child.reap
    split <;> exact ⟨rfl, rfl, rfl⟩
  obtain ⟨hmoves, hfault, hyields⟩ := hfields
  refine ⟨h.room, h.nodup, ?_, ?_, h.marked, ?_, ?_, ?_⟩
  · rintro rfl
    cases hp
  · rw [hmoves]
    exact h.leads
  · rw [hmoves]
    exact h.awake
  · exact ⟨hfault.trans h.temper.1, hyields.trans h.temper.2⟩
  · rintro rfl
    cases hp

/-- What the coordinator does keeps the relay going. -/
theorem Upkeep.coordinates (h : r.Upkeep launched) (hc : r.Coordinates r₁) :
    r₁.Upkeep launched := by
  cases hc with
  | look hp ho => exact h.move rfl rfl rfl rfl rfl (fun _ => ho) nofun
  | lookAgain | wait | stop | write | flush | abandon | discarded =>
      exact h.move rfl rfl rfl rfl rfl nofun nofun
  | @join ch =>
      refine h.move rfl rfl rfl rfl rfl ?_ ?_
      · cases ch <;> exact nofun
      · cases ch <;> exact nofun
  | takeCancelled hp hq => exact h.take true hq (.refl _) nofun nofun nofun
  | takeChunk hp hq | dropChunk hp hq => exact h.take r.stopped hq (.refl _) nofun nofun nofun
  | takeEnd hp hq => exact h.takeEnd hq nofun nofun
  | discardEnd hp ho hq =>
      refine h.takeEnd hq ?_ ?_
      · rw [hp]
        exact nofun
      · rw [hp]
        exact nofun
  | discard hp ho hq he =>
      refine h.take r.stopped hq (.refl _) (fun ch heq => absurd heq (he ch)) ?_ ?_
      · rw [hp]
        exact nofun
      · rw [hp]
        exact nofun
  | writeFault | flushFault =>
      have hanswered (e : Effect) (o : Outlets) :
          ({ r with session := r.session.answered e o } : Relay).Upkeep launched :=
        h.move rfl rfl rfl rfl rfl h.taking id
      exact (hanswered _ _).lose _
  | kill => exact h.kill
  | reap => exact h.reap (by split <;> rfl)

/-! ### The others -/

/-- A feed is replaced by one that leads to the end as well and has its marker. -/
theorem Upkeep.setFeed {ch : Channel} {f : Feed} (moves : List Move) (h : r.Upkeep launched)
    (hself : f.Leads ch moves) (hothers : ∀ ch', ch' ≠ ch → (r.feeds.get ch').Leads ch' moves)
    (hmarked : f.finished = true → ch ∈ r.openChannels →
      .ended ch ∈ f.outbox ∨ .ended ch ∈ r.queue)
    (hawake : .pause none ∉ moves) :
    ({ r with child := { r.child with moves }, feeds := r.feeds.set ch f } : Relay).Upkeep
      launched := by
  refine ⟨h.room, h.nodup, h.taking, fun ch' => ?_, fun ch' hfin hmem => ?_, hawake, h.temper,
    h.refused⟩
  · by_cases heq : ch' = ch
    · subst heq
      rwa [PerChannel.get_set_self]
    · rw [PerChannel.get_set_of_ne _ heq]
      exact hothers ch' heq
  · by_cases heq : ch' = ch
    · subst heq
      rw [PerChannel.get_set_self] at hfin ⊢
      exact hmarked hfin hmem
    · rw [PerChannel.get_set_of_ne _ heq] at hfin ⊢
      exact h.marked ch' hfin hmem

/-- More events in the queue do no harm. -/
theorem Upkeep.enqueue (h : r.Upkeep launched) (more : List Event) :
    ({ r with queue := r.queue ++ more } : Relay).Upkeep launched :=
  ⟨h.room, h.nodup, h.taking, h.leads,
    fun ch hfin hmem => (h.marked ch hfin hmem).imp_right (List.mem_append_left _), h.awake,
    h.temper, h.refused⟩

theorem Upkeep.publish {ch : Channel} {e : Event} {outbox : List Event} (h : r.Upkeep launched)
    (ho : (r.feeds.get ch).outbox = e :: outbox) :
    ({ r with
      queue := r.queue ++ [e]
      feeds := r.feeds.set ch { r.feeds.get ch with outbox } } : Relay).Upkeep launched := by
  refine (h.enqueue [e]).setFeed r.child.moves ⟨(h.leads ch).ending, (h.leads ch).finished⟩
    (fun ch' _ => h.leads ch') (fun hfin hmem => ?_) h.awake
  rcases h.marked ch hfin hmem with hout | hqueue
  · rw [ho] at hout
    rcases List.mem_cons.mp hout with rfl | hout
    · exact .inr (List.mem_append_right _ List.mem_cons_self)
    · exact .inl hout
  · exact .inr (List.mem_append_left _ hqueue)

theorem Upkeep.read {ch : Channel} {f : Feed} (h : r.Upkeep launched)
    (hf : (r.feeds.get ch).finished = false)
    (hr : (r.feeds.get ch).read ch (r.child.closing.get ch) = some f) :
    ({ r with feeds := r.feeds.set ch f } : Relay).Upkeep launched := by
  refine h.setFeed r.child.moves ((h.leads ch).read hf hr) (fun ch' _ => h.leads ch')
    (fun hfin _ => ?_) h.awake
  rcases Feed.read_eq_some hr with ⟨piece, pipe, -, rfl⟩ | ⟨ending, -, -, rfl⟩
  · cases hf.symm.trans hfin
  · exact .inl (List.mem_append_right _ List.mem_cons_self)

/-- The child makes a move that puts nothing out. -/
theorem Upkeep.aside {moves : List Move} {life : Life} {s : Session} (h : r.Upkeep launched)
    (hleads : ∀ ch, (r.feeds.get ch).Leads ch moves) (hawake : .pause none ∉ moves)
    (hlife : life = r.child.life ∨ ∃ code, life = .exited code) :
    ({ r with child := { r.child with moves, life }, session := s } : Relay).Upkeep launched := by
  refine ⟨h.room, h.nodup, h.taking, hleads, h.marked, hawake, h.temper, fun hp hcode => ?_⟩
  rcases hlife with rfl | ⟨code, rfl⟩
  · exact h.refused hp hcode
  · cases hcode

theorem Upkeep.elapse (h : r.Upkeep launched) (time : Nat) : (r.elapse time).Upkeep launched := by
  have hphase (p : Phase) (hp : p = .taking ∨ p = .reaping) :
      Phase.elapse time r.phase = p → r.phase = p := by
    intro heq
    cases hr : r.phase <;> rcases hp with rfl | rfl <;> simp [hr, Phase.elapse] at heq ⊢
  have hchild : (r.child.elapse time).code? = r.child.code? ∧
      (r.child.elapse time).killFault = r.child.killFault ∧
      (r.child.elapse time).yields = r.child.yields := by
    unfold Child.elapse
    split <;> exact ⟨rfl, rfl, rfl⟩
  obtain ⟨hcode, hfault, hyields⟩ := hchild
  refine ⟨h.room, h.nodup, fun hp => h.taking (hphase _ (.inl rfl) hp),
    fun ch => (h.leads ch).elapse time, h.marked, Child.awake_elapse h.awake time,
    ⟨hfault.trans h.temper.1, hyields.trans h.temper.2⟩, fun hp hnone => ?_⟩
  exact h.refused (hphase _ (.inr rfl) hp) (hcode.symm.trans hnone)

/-- What the others do keeps the relay going. -/
theorem Upkeep.attends {t : Turn} (h : r.Upkeep launched) (ha : r.Attends t r₁) :
    r₁.Upkeep launched := by
  have hawake {m : Move} {rest : List Move} (hm : r.child.moves = m :: rest) :
      .pause none ∉ rest := fun hmem => h.awake (hm ▸ List.mem_cons_of_mem _ hmem)
  have hleads {m : Move} {rest : List Move} (hm : r.child.moves = m :: rest) (ch : Channel) :
      (r.feeds.get ch).Leads ch (m :: rest) := hm ▸ h.leads ch
  cases ha with
  | publish ho => exact h.publish ho
  | read ho hf hr => exact h.read hf hr
  | @exit moves hl hm =>
      rcases hm with ⟨hnil, rfl⟩ | hm
      · exact h.aside (hnil ▸ h.leads) List.not_mem_nil (.inr ⟨_, rfl⟩)
      · exact h.aside (fun ch => (hleads hm ch).tail (.inl trivial)) (hawake hm) (.inr ⟨_, rfl⟩)
  | aside hm hside =>
      exact h.aside (fun ch => (hleads hm ch).tail hside) (hawake hm) (.inl rfl)
  | @output ch data rest hm =>
      refine h.setFeed _ (hleads hm ch).output (fun ch' hne => ?_) (h.marked ch) ?_
      · exact (hleads hm ch').output_of_ne (Ne.symm hne)
      · unfold Move.leftover
        split
        · exact hawake hm
        · intro hmem
          rcases List.mem_cons.mp hmem with heq | hmem
          · cases heq
          · exact hawake hm hmem
  | @close ch ending rest hm =>
      refine h.setFeed _ (hleads hm ch).close (fun ch' hne => ?_) (fun hfin hmem => ?_) (hawake hm)
      · exact (hleads hm ch').close_of_ne (Ne.symm hne)
      · rw [Feed.finished_close] at hfin
        rw [Feed.outbox_close]
        exact h.marked ch hfin hmem
  | elapse => exact h.elapse _
  | due | request => exact h.move rfl rfl rfl rfl rfl h.taking id

/-- Requests to cancel may come in. -/
theorem Upkeep.stirs (h : r.Upkeep launched) (hs : r.Stirs r₁) : r₁.Upkeep launched := by
  obtain ⟨n, hn⟩ := hs.queue
  rw [hs.rest, hn]
  exact (h.enqueue (List.replicate n .cancelled)).move rfl rfl rfl rfl rfl h.taking id

/-! ### Whatever happens -/

theorem Upkeep.interrupt {fault : AccessFault} (h : r.Upkeep launched)
    (hi : r.interrupt fault = some r₁) : r₁.Upkeep launched := by
  rcases interrupt_eq_some hi with rfl | ⟨-, rfl⟩
  · exact h.move rfl rfl rfl rfl rfl nofun nofun
  · exact h.lose fault

theorem Upkeep.meet {o : Occurrence} (h : r.Upkeep launched) (ho : r.meet o = some r₁) :
    r₁.Upkeep launched := by
  cases o with
  | exception fault => exact h.interrupt ho
  | turn t =>
      rcases step_of_turn ho with ⟨-, r₂, hc, hs⟩ | ⟨r₂, ha, hs⟩
      · exact (h.coordinates hc).stirs hs
      · exact (h.attends ha).stirs hs

/-- Whatever happens, the relay is kept going. -/
theorem Upkeep.pursue {os : List Occurrence} (h : r.Upkeep launched)
    (ho : r.pursue os = some r') : r'.Upkeep launched := by
  induction os generalizing r with
  | nil =>
      obtain rfl := Option.some.inj ho
      exact h
  | cons o os ih =>
      obtain ⟨next, hnext, hrest⟩ := Option.bind_eq_some_iff.mp ho
      exact ih (h.meet hnext) hrest

/-- A relay that has only just started is kept going by a child that ends both channels and does
not pause for good. -/
theorem Starts.upkeep (h : r.Starts) (hroom : 0 < r.plan.capacity)
    (hends : ∀ ch, Move.Ends ch r.child.moves) (hawake : .pause none ∉ r.child.moves) :
    r.Upkeep r.child where
  room := hroom
  nodup := by
    rw [h.openChannels]
    decide
  taking := fun hp => by cases h.phase.symm.trans hp
  leads := fun ch => by
    rw [h.feeds ch]
    exact ⟨.inl ⟨rfl, hends ch⟩, nofun⟩
  marked := fun ch hfin => by
    rw [h.feeds ch] at hfin
    cases hfin
  awake := hawake
  temper := ⟨rfl, rfl⟩
  refused := fun hp => by cases h.phase.symm.trans hp

end Relay

end CommandRelay
