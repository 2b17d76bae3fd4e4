import CommandRelay.Proofs.Relay.Faults
import CommandRelay.Proofs.Relay.Interruption

/-!
# The course of a relay

What there is to see along a schedule, what sinks raise and what readers publish, settles how the
coordinator ends. `Course` relates what has been seen by a moment, and the effects by then, to the
relay at that moment: `Halted` says why the child was killed and `Waited` what the coordinator has
waited for, beside the faults and the events that have gone by. Every turn keeps it
(`Course.turn`), and so does every schedule (`Course.follow`).
-/

namespace CommandRelay

/-- Whether the coordinator is about to end the child, or has ended it and waits for its exit. -/
def Phase.isHalting : Phase → Bool
  | .abandoning | .stopping | .reaping => true
  | _ => false

/-- To see the exit of a child does not change its code. -/
theorem Child.code?_reap (c : Child) : c.reap.code? = c.code? := by
  cases hl : c.life <;> simp [reap, code?, hl]

namespace Relay

/-! ## What there is to see -/

/-- What sinks raise in a turn. -/
def refusing (r : Relay) (t : Turn) : List AccessFault :=
  if t = .coordinator then r.refused?.toList else []

/-- What is seen in the turns of a schedule, one after the other. -/
def gather {α : Type} (see : Relay → Turn → List α) (r : Relay) : List Turn → List α
  | [] => []
  | t :: ts => see r t ++ ((r.turn t).map fun r' => r'.gather see ts).getD []

/-- What sinks raise along a schedule. -/
def refusals (r : Relay) (ts : List Turn) : List AccessFault :=
  r.gather refusing ts

/-- What is published of a channel along a schedule. -/
def published (r : Relay) (ts : List Turn) (ch : Channel) : List Event :=
  r.gather (fun r t => r.publishing ch t) ts

theorem gather_cons {α : Type} {see : Relay → Turn → List α} {r r' : Relay} {t : Turn}
    (h : r.turn t = some r') (ts : List Turn) :
    r.gather see (t :: ts) = see r t ++ r'.gather see ts := by
  rw [gather, h]
  rfl

variable {r r₁ r' : Relay} {t : Turn} {tr : List Effect} {faults : List AccessFault}
  {told : Channel → List Event}

/-! ## The effects of the coordinator -/

/-- The coordinator makes the call that it is about to make, and kills the child when it stops
it. -/
theorem Coordinates.grows (hc : r.Coordinates r₁) :
    ∃ more, r₁.session.effects = r.session.effects ++ more ∧
      more.filterMap Effect.call? = r.phase.call?.toList ∧
      ∀ group, .killed group ∈ more ↔ r.phase = .stopping ∧ group = r.plan.grouped := by
  have hquiet (hp : r.phase ≠ .stopping) (hcall : r.phase.call? = none)
      (he : r₁.session.effects = r.session.effects) :
      ∃ more, r₁.session.effects = r.session.effects ++ more ∧
        more.filterMap Effect.call? = r.phase.call?.toList ∧
        ∀ group, .killed group ∈ more ↔ r.phase = .stopping ∧ group = r.plan.grouped :=
    ⟨[], by rw [he, List.append_nil], by rw [hcall]; rfl, fun group => by simp [hp]⟩
  cases hc with
  | look hp | lookAgain hp | takeCancelled hp | takeEnd hp | takeChunk hp | dropChunk hp
  | abandon hp | discardEnd hp | discard hp | discarded hp =>
      exact hquiet (by rw [hp]; nofun) (by rw [hp]; rfl) rfl
  | wait hp | stop hp =>
      rcases hp with ⟨hp, -⟩ | ⟨hp, -⟩ <;> exact hquiet (by rw [hp]; nofun) (by rw [hp]; rfl) rfl
  | write hp | flush hp => exact ⟨_, rfl, by rw [hp]; rfl, fun group => by simp [hp]⟩
  | @writeFault _ _ _ fault hp | @flushFault _ _ fault hp =>
      exact ⟨_, (lose_eq _ fault).2.2, by rw [hp]; rfl, fun group => by simp [hp]⟩
  | kill hp hs => exact ⟨_, hs.effects, by rw [hp]; rfl, fun group => by simp [hp]⟩
  | reap hp _ hs =>
      rcases hp with hp | hp | ⟨left, hp⟩ <;>
        exact ⟨_, hs.effects, by rw [hp]; rfl, fun group => by simp [hp]⟩
  | join hp hs =>
      exact hquiet (by rw [hp]; nofun) (by rw [hp]; rfl) (hs.effects.trans (List.append_nil _))

theorem isHalting_elapse (time : Nat) (p : Phase) :
    (Phase.elapse time p).isHalting = p.isHalting := by
  cases p <;> rfl

theorem isCopying_elapse (time : Nat) (p : Phase) :
    (Phase.elapse time p).isCopying = p.isCopying := by
  cases p <;> rfl

/-! ## Why the child is killed -/

/-- Why the child is killed: a stop comes of the cancellation and ends in a kill, and there is no
kill but for a stop or a fault that has ended the relay. -/
structure Halted (tr : List Effect) (r : Relay) : Prop where
  asked : .cancelled ∈ r.queue → r.session.isCancelled = true
  stopped : r.stopped = true →
    r.session.isCancelled = true ∧ (r.phase = .stopping ∨ .killed r.plan.grouped ∈ tr)
  halting : r.phase.isHalting = true ∨ (∃ group, .killed group ∈ tr) →
    r.stopped = true ∨ r.broken.isSome = true

/-- The coordinator goes on where no kill is due. -/
theorem Halted.step {more : List Effect} (h : Halted tr r)
    (hkill : ∀ group, .killed group ∈ more → r.phase = .stopping) (hp : r.phase ≠ .stopping)
    (hplan : r₁.plan = r.plan) (hqueue : ∀ e ∈ r₁.queue, e ∈ r.queue)
    (hcancelled : r₁.session.isCancelled = r.session.isCancelled)
    (hstopped : r₁.stopped = r.stopped)
    (hbroken : r.broken.isSome = true → r₁.broken.isSome = true)
    (hhalting : r₁.phase.isHalting = true → r.phase.isHalting = true ∨ r₁.broken.isSome = true) :
    Halted (tr ++ more) r₁ := by
  refine ⟨fun hmem => ?_, fun hs => ?_, fun hdue => ?_⟩
  · rw [hcancelled]
    exact h.asked (hqueue _ hmem)
  · rw [hstopped] at hs
    obtain ⟨hc, hkilled⟩ := h.stopped hs
    rw [hcancelled, hplan]
    exact ⟨hc, .inr (List.mem_append_left _ (hkilled.resolve_left hp))⟩
  · have hbefore (hdue : r.phase.isHalting = true ∨ ∃ group, .killed group ∈ tr) :
        r₁.stopped = true ∨ r₁.broken.isSome = true := by
      rw [hstopped]
      exact (h.halting hdue).imp_right hbroken
    rcases hdue with hphase | ⟨group, hmem⟩
    · exact (hhalting hphase).elim (fun hr => hbefore (.inl hr)) .inr
    · rcases List.mem_append.mp hmem with hmem | hmem
      · exact hbefore (.inr ⟨group, hmem⟩)
      · exact absurd (hkill group hmem) hp

/-- A stop begins, for the cancellation. -/
theorem Halted.stop {more : List Effect} {queue : List Event} (h : Halted tr r)
    (hqueue : ∀ e ∈ queue, e ∈ r.queue) (hc : r.session.isCancelled = true) :
    Halted (tr ++ more) { r with queue, stopped := true, phase := .stopping } :=
  ⟨fun hmem => h.asked (hqueue _ hmem), fun _ => ⟨hc, .inl rfl⟩, fun _ => .inl rfl⟩

theorem Halted.coordinates {more : List Effect} (h : Halted tr r) (hc : r.Coordinates r₁)
    (hkill : ∀ group, .killed group ∈ more ↔ r.phase = .stopping ∧ group = r.plan.grouped) :
    Halted (tr ++ more) r₁ := by
  have hnone (group : Bool) (hmem : .killed group ∈ more) := ((hkill group).mp hmem).1
  have hqueue {e' : Event} {queue : List Event} (hq : r.queue = e' :: queue) :
      ∀ e ∈ queue, e ∈ r.queue := fun e he => hq ▸ List.mem_cons_of_mem _ he
  cases hc with
  | look hp | lookAgain hp | discarded hp =>
      exact h.step hnone (by rw [hp]; nofun) rfl (fun _ => id) rfl rfl id nofun
  | wait hp =>
      rcases hp with ⟨hp, -⟩ | ⟨hp, -⟩ <;>
        exact h.step hnone (by rw [hp]; nofun) rfl (fun _ => id) rfl rfl id nofun
  | stop hp hc => exact h.stop (fun _ => id) hc
  | takeCancelled hp hq => exact h.stop (hqueue hq) (h.asked (hq ▸ List.mem_cons_self))
  | takeEnd hp hq | takeChunk hp hq | dropChunk hp hq =>
      exact h.step hnone (by rw [hp]; nofun) rfl (hqueue hq) rfl rfl id nofun
  | discardEnd hp ho hq | discard hp ho hq =>
      exact h.step hnone (by rw [hp]; nofun) rfl (hqueue hq) rfl rfl id .inl
  | write hp | flush hp =>
      exact h.step hnone (by rw [hp]; nofun) rfl (fun _ => id) rfl rfl id nofun
  | @writeFault _ _ _ fault hp | @flushFault _ _ fault hp =>
      cases fault with
      | system => exact h.step hnone (by rw [hp]; nofun) rfl (fun _ => id) rfl rfl id nofun
      | unencodable | invalid | endless | unsupported =>
          exact h.step hnone (by rw [hp]; nofun) rfl (fun _ => id) rfl rfl (fun _ => rfl)
            fun _ => .inr rfl
  | abandon hp =>
      exact h.step hnone (by rw [hp]; nofun) rfl (fun _ => id) rfl rfl id fun _ =>
        .inl (by rw [hp]; rfl)
  | kill hp hs =>
      have hkilled : .killed r.plan.grouped ∈ more := (hkill _).mpr ⟨hp, rfl⟩
      refine ⟨fun hmem => hs.cancelled ▸ h.asked hmem, fun hs' => ?_, fun _ => ?_⟩
      · exact ⟨hs.cancelled ▸ (h.stopped hs').1, .inr (List.mem_append_right _ hkilled)⟩
      · exact h.halting (.inl (by rw [hp]; rfl))
  | reap hp _ hs =>
      have hne : r.phase ≠ .stopping := by
        rcases hp with hp | hp | ⟨left, hp⟩ <;> rw [hp] <;> nofun
      refine h.step hnone hne rfl (fun _ => id) hs.cancelled rfl id fun hphase => ?_
      split at hphase <;> cases hphase
  | @join ch _ _ hp hs =>
      refine h.step hnone (by rw [hp]; nofun) rfl (fun _ => id) hs.cancelled rfl id fun hphase => ?_
      cases ch <;> cases hphase

theorem Halted.surrounds {more : List Effect} (h : Halted tr r) (hs : r.Surrounds r₁)
    (hqueue : .cancelled ∈ r₁.queue → .cancelled ∈ r.queue ∨ r₁.session.isCancelled = true)
    (hmore : ∀ e ∈ more, e.IsCancelled) : Halted (tr ++ more) r₁ := by
  refine ⟨fun hmem => ?_, fun hstop => ?_, fun hdue => ?_⟩
  · exact (hqueue hmem).elim (fun hr => hs.cancelled (h.asked hr)) id
  · rw [hs.stopped] at hstop
    obtain ⟨hc, hkilled⟩ := h.stopped hstop
    refine ⟨hs.cancelled hc, ?_⟩
    rw [hs.plan]
    refine hkilled.imp (fun hp => ?_) (List.mem_append_left _)
    rcases hs.phase with hp' | ⟨time, hp'⟩ <;> rw [hp', hp]
    rfl
  · rw [hs.stopped, hs.broken]
    refine h.halting (hdue.imp (fun hp => ?_) fun ⟨group, hmem⟩ => ⟨group, ?_⟩)
    · rwa [hs.phase_eq isHalting_elapse] at hp
    · exact (List.mem_append.mp hmem).resolve_right fun hm => ((hmore _ hm).isSilent).2 group rfl

/-- There is no kill but for a stop or a fault. -/
theorem Halted.notMem (h : Halted tr r) (hs : r.stopped = false) (hb : r.broken = none)
    (group : Bool) : .killed group ∉ tr := by
  intro hmem
  have hwhy := h.halting (.inr ⟨group, hmem⟩)
  rw [hs, hb] at hwhy
  exact hwhy.elim Bool.false_ne_true Bool.false_ne_true

/-! ## What the coordinator waits for -/

/-- The coordinator leaves the copying only once all channels have ended, unless it is kept from
copying, and goes on to the end only once the child has exited. -/
structure Waited (r : Relay) : Prop where
  ended : r.phase.isCopying = false → r.stopped = false → r.broken = none → r.openChannels = []
  exited : r.phase.isWindingUp = true → r.child.code?.isSome = true
  nodup : r.openChannels.Nodup

theorem Waited.coordinates (h : Waited r) (hc : r.Coordinates r₁) : Waited r₁ := by
  cases hc with
  | look hp | lookAgain hp | takeChunk hp | dropChunk hp | write hp | flush hp =>
      exact ⟨nofun, nofun, h.nodup⟩
  | takeEnd => exact ⟨nofun, nofun, h.nodup.erase _⟩
  | stop | takeCancelled => exact ⟨fun _ => nofun, nofun, h.nodup⟩
  | wait hp =>
      refine ⟨fun _ hs hb => ?_, nofun, h.nodup⟩
      rcases hp with ⟨-, ho⟩ | ⟨hp, -⟩
      · exact ho
      · exact h.ended (by rw [hp]; rfl) hs hb
  | @writeFault _ _ _ fault | @flushFault _ _ fault =>
      cases fault with
      | system => exact ⟨nofun, nofun, h.nodup⟩
      | unencodable | invalid | endless | unsupported => exact ⟨fun _ _ => nofun, nofun, h.nodup⟩
  | abandon hp | kill hp => exact ⟨fun _ => h.ended (by rw [hp]; rfl), nofun, h.nodup⟩
  | reap hp hcode =>
      refine ⟨fun _ => h.ended ?_, fun _ => ?_, h.nodup⟩
      · rcases hp with hp | hp | ⟨left, hp⟩ <;> rw [hp] <;> rfl
      · rwa [Child.code?_reap]
  | discardEnd hp ho =>
      refine ⟨fun hcopy hs hb => ?_, h.exited, h.nodup.erase _⟩
      exact absurd (h.ended hcopy hs hb) ho
  | discard => exact ⟨h.ended, h.exited, h.nodup⟩
  | discarded hp | join hp =>
      exact ⟨fun _ => h.ended (by rw [hp]; rfl), fun _ => h.exited (by rw [hp]; rfl), h.nodup⟩

theorem Waited.surrounds (h : Waited r) (hs : r.Surrounds r₁) : Waited r₁ where
  ended := by
    rw [hs.phase_eq isCopying_elapse, hs.stopped, hs.broken, hs.openChannels]
    exact h.ended
  exited := by
    rw [hs.phase_eq isWindingUp_elapse]
    intro hp
    have hexited := h.exited hp
    rcases hs.life with hl | ⟨hl, -⟩
    · rwa [Child.code?, hl]
    · rw [Child.code?, hl] at hexited
      cases hexited
  nodup := by rw [hs.openChannels]; exact h.nodup

/-! ## The whole course -/

/-- Readers do not wake the coordinator. -/
theorem Attends.asked (h : ∀ ch, (r.feeds.get ch).Tells ch (told ch)) (ha : r.Attends t r₁)
    (hmem : .cancelled ∈ r₁.queue) : .cancelled ∈ r.queue := by
  cases ha with
  | @publish ch e outbox ho =>
      refine (List.mem_append.mp hmem).resolve_right fun he => ?_
      have hch := (h ch).channel? (ho ▸ List.mem_cons_self)
      rw [← List.mem_singleton.mp he] at hch
      cases hch
  | _ => exact hmem

theorem Stirs.asked (hs : r.Stirs r₁) (hmem : .cancelled ∈ r₁.queue) :
    .cancelled ∈ r.queue ∨ r₁.session.isCancelled = true := by
  cases hc : r₁.session.isCancelled with
  | true => exact .inr rfl
  | false => exact .inl (hs.quiet hc ▸ hmem)

/-- What a relay has come to since it started, with its effects, what sinks have raised and what
readers have published. -/
structure Course (tr : List Effect) (faults : List AccessFault) (told : Channel → List Event)
    (r : Relay) : Prop where
  rows : ∀ ch, (r.trees.get ch).IsRow
  faulted : Faulted faults r
  halted : Halted tr r
  waited : Waited r
  tells : ∀ ch, (r.feeds.get ch).Tells ch (told ch)
  conveys : r.Intact → ∀ ch, r.Conveys (told ch) (tr.filterMap Effect.call?) ch

theorem Coordinates.keeps (hc : r.Coordinates r₁) : r₁.feeds = r.feeds ∧ r₁.trees = r.trees := by
  cases hc with
  | @writeFault _ _ _ fault | @flushFault _ _ fault => cases fault <;> exact ⟨rfl, rfl⟩
  | _ => exact ⟨rfl, rfl⟩

theorem Course.coordinates (h : Course tr faults told r) (hc : r.Coordinates r₁) :
    ∃ more, r₁.session.effects = r.session.effects ++ more ∧
      Course (tr ++ more) (faults ++ r.refused?.toList) told r₁ := by
  obtain ⟨more, he, hcalls, hkill⟩ := hc.grows
  obtain ⟨hfeeds, htrees⟩ := hc.keeps
  refine ⟨more, he, ?_⟩
  exact
    { rows := by rw [htrees]; exact h.rows
      faulted := h.faulted.coordinates h.rows hc
      halted := h.halted.coordinates hc hkill
      waited := h.waited.coordinates hc
      tells := by rw [hfeeds]; exact h.tells
      conveys := fun hi ch => by
        have hr := hc.intact hi
        rw [List.filterMap_append, hcalls]
        exact (h.conveys hr ch).coordinates (h.tells ch) h.waited.nodup
          (fun hp => h.waited.ended hp hr.stopped hr.broken) hc hi }

/-- What surrounds the coordinator makes no calls. -/
theorem call?_of_isCancelled {more : List Effect} (hmore : ∀ e ∈ more, e.IsCancelled) :
    more.filterMap Effect.call? = [] := by
  refine List.filterMap_eq_nil_iff.mpr fun e he => ?_
  obtain ⟨reason, rfl⟩ := hmore e he
  rfl

theorem Course.attends (h : Course tr faults told r) (ha : r.Attends t r₁) :
    ∃ more, r₁.session.effects = r.session.effects ++ more ∧
      Course (tr ++ more) faults (fun ch => told ch ++ r.publishing ch t) r₁ := by
  have hs := ha.surrounds
  have htrees : r₁.trees = r.trees := by cases ha <;> rfl
  obtain ⟨more, he, hmore⟩ := hs.effects
  refine ⟨more, he, ?_⟩
  exact
    { rows := by rw [htrees]; exact h.rows
      faulted := h.faulted.surrounds hs
      halted := h.halted.surrounds hs (fun hmem => .inl (ha.asked h.tells hmem)) hmore
      waited := h.waited.surrounds hs
      tells := fun ch => ha.tells (h.tells ch)
      conveys := fun hi ch => by
        rw [Conveys, List.filterMap_append, call?_of_isCancelled hmore, List.append_nil,
          hs.taken, ha.queued h.tells, ← List.append_assoc]
        exact congrArg (· ++ _) (h.conveys (hs.intact hi) ch) }

theorem Course.stirs (h : Course tr faults told r) (hs : r.Stirs r₁) :
    ∃ more, r₁.session.effects = r.session.effects ++ more ∧
      Course (tr ++ more) faults told r₁ := by
  obtain ⟨more, he, hmore⟩ := hs.session.effects
  have hfeeds : r₁.feeds = r.feeds := by rw [hs.rest]
  have htrees : r₁.trees = r.trees := by rw [hs.rest]
  refine ⟨more, he, ?_⟩
  exact
    { rows := by rw [htrees]; exact h.rows
      faulted := h.faulted.surrounds hs.surrounds
      halted := h.halted.surrounds hs.surrounds hs.asked hmore
      waited := h.waited.surrounds hs.surrounds
      tells := by rw [hfeeds]; exact h.tells
      conveys := fun hi ch => by
        rw [Conveys, List.filterMap_append, call?_of_isCancelled hmore, List.append_nil,
          hs.surrounds.taken, hs.queued]
        exact h.conveys (hs.surrounds.intact hi) ch }

theorem Attends.refusing (ha : r.Attends t r₁) : r.refusing t = [] := by
  cases ha <;> rfl

/-- Whoever moves, a turn adds to the course what is seen in it. -/
theorem Course.turn (h : Course tr faults told r) (ht : r.turn t = some r') :
    ∃ more, r'.session.effects = r.session.effects ++ more ∧
      Course (tr ++ more) (faults ++ r.refusing t) (fun ch => told ch ++ r.publishing ch t) r' := by
  have hthen {r₂ : Relay} {more : List Effect} {faults : List AccessFault}
      {told : Channel → List Event} (he : r₂.session.effects = r.session.effects ++ more)
      (h₂ : Course (tr ++ more) faults told r₂) (hs : r₂.Stirs r') :
      ∃ more, r'.session.effects = r.session.effects ++ more ∧
        Course (tr ++ more) faults told r' := by
    obtain ⟨more', he', h'⟩ := h₂.stirs hs
    rw [List.append_assoc] at h'
    exact ⟨more ++ more', by rw [he', he, List.append_assoc], h'⟩
  rcases step_of_turn ht with ⟨rfl, r₂, hc, hs⟩ | ⟨r₂, ha, hs⟩
  · obtain ⟨more, he, h₂⟩ := h.coordinates hc
    have htold : (fun ch => told ch ++ r.publishing ch .coordinator) = told :=
      funext fun ch => List.append_nil _
    rw [htold]
    exact hthen he h₂ hs
  · obtain ⟨more, he, h₂⟩ := h.attends ha
    rw [ha.refusing, List.append_nil]
    exact hthen he h₂ hs

/-- Every schedule adds to the course what is seen along it. -/
theorem Course.follow {ts : List Turn} (h : Course tr faults told r)
    (hf : r.follow ts = some r') :
    ∃ more, r'.session.effects = r.session.effects ++ more ∧
      Course (tr ++ more) (faults ++ r.refusals ts)
        (fun ch => told ch ++ r.published ts ch) r' := by
  induction ts generalizing r tr faults told with
  | nil =>
      obtain rfl := Option.some.inj hf
      refine ⟨[], (List.append_nil _).symm, ?_⟩
      simpa [refusals, published, gather] using h
  | cons t ts ih =>
      obtain ⟨next, ht, hrest⟩ := follow_cons_eq_some_iff.mp hf
      obtain ⟨more, he, h₁⟩ := h.turn ht
      obtain ⟨more', he', h₂⟩ := ih h₁ hrest
      refine ⟨more ++ more', by rw [he', he, List.append_assoc], ?_⟩
      have hrefusals : r.refusals (t :: ts) = r.refusing t ++ next.refusals ts :=
        gather_cons ht ts
      have hpublished (ch : Channel) :
          r.published (t :: ts) ch = r.publishing ch t ++ next.published ts ch :=
        gather_cons ht ts
      simp only [List.append_assoc] at h₂
      simpa only [hrefusals, hpublished] using h₂

/-- A relay that has only just started has had nothing to see. -/
theorem Starts.course (h : r.Starts) (hrow : ∀ ch, (r.trees.get ch).IsRow) :
    Course [] [] (fun _ => []) r := by
  obtain ⟨n, hn⟩ := h.queue
  refine
    { rows := hrow
      faulted := ⟨by simp [h.lost, h.broken], by rw [h.draining, h.lost]; rfl,
        fun hne => absurd rfl hne, by rw [h.broken]; nofun⟩
      halted := ⟨fun hmem => ?_, by rw [h.stopped]; nofun, fun hdue => ?_⟩
      waited := ⟨by rw [h.phase]; nofun, by rw [h.phase]; nofun, by rw [h.openChannels]; decide⟩
      tells := fun ch => ⟨[], by rw [h.feeds]; rfl⟩
      conveys := fun _ ch => ?_ }
  · cases hc : r.session.isCancelled with
    | true => rfl
    | false =>
        rw [h.quiet hc] at hmem
        cases hmem
  · rw [h.phase] at hdue
    rcases hdue with hphase | ⟨group, hmem⟩
    · cases hphase
    · cases hmem
  · rw [Conveys, taken, queued, h.phase, h.openChannels, hn, filter_channel_replicate]
    cases ch <;> rfl

/-- Once the coordinator has left the copying, and nothing has kept it from that, every chunk that
was published has been written. -/
theorem Course.written (h : Course tr faults told r) (hi : r.Intact)
    (hp : r.phase.isCopying = false) (ch : Channel) :
    told ch = (writesOn ch (tr.filterMap Effect.call?)).map (.chunk ch) ++ [.ended ch] :=
  (h.conveys hi ch).written (h.tells ch) (h.waited.ended hp hi.stopped hi.broken)
    (Phase.hand_eq_empty hp)

end Relay

end CommandRelay
