import CommandRelay.Proofs.Relay.Upkeep

/-!
# Standstills

Four parties of a relay wait for each other: the child for room in a pipe, its reader for something
to read and for room in the queue, and the coordinator for events and for the exit of the child.
There is one way in which nobody can move any more before the coordinator is done: it waits for the
exit of a child that it could not kill, the child waits for room in its pipe, and the reader of the
pipe for room in the queue, from which nobody takes anything (`Upkeep.standstill`). So a relay whose
child does not resist a kill is never stuck (`Upkeep.not_stuck`). A standstill lasts, whoever moves
(`Standstill.follow`), and a child that resists can bring one about (`Starts.exists_standstill`).
-/

namespace CommandRelay

namespace Relay

variable {launched : Child} {r r' : Relay} {ch : Channel}

/-- The coordinator is not done, and nobody can move unless somebody asks for the cancellation. -/
def IsStuck (r : Relay) : Prop :=
  r.isFinished = false ∧ r.advance = none

/-- The child waits for room in the pipe of a channel, and the reader of that channel for room in
the queue. -/
structure Blocked (r : Relay) (ch : Channel) : Prop where
  writing : ∃ data rest, r.child.moves = .output ch data :: rest ∧ data ≠ [] ∧
    (r.feeds.get ch).hasRoom (data.take Stream.readSize) = false
  publishing : (r.feeds.get ch).outbox ≠ [] ∧ r.plan.capacity ≤ r.queue.length

/-- The coordinator waits for the exit of a child that it could not kill, and the child is
blocked. -/
structure Standstill (r : Relay) (ch : Channel) : Prop extends r.Blocked ch where
  reaping : r.phase = .reaping
  running : r.child.life = .running
  resists : r.child.Resists

/-! ## Who waits for what -/

theorem turn_eq_none_of_advance (h : r.advance = none) (t : Turn) (ht : t ∈ order) :
    r.turn t = none :=
  List.findSome?_eq_none_iff.mp h t ht

/-- When no time can pass, nobody waits for a time to pass. -/
theorem eq_zero_of_passTime (h : r.passTime = none) {t : Nat}
    (ht : Phase.left? r.phase = some t ∨ r.child.pauseLeft? = some t) : t = 0 := by
  unfold passTime at h
  split at h
  · cases h
  · split at h
    · rename_i hdelays
      refine Nat.eq_zero_of_not_pos fun hpos => ?_
      have hmem : t ∈ r.delays := by
        unfold delays
        rw [List.mem_filter, List.mem_append, List.mem_append]
        refine ⟨?_, decide_eq_true hpos⟩
        rcases ht with ht | ht
        · exact .inl (.inr (by rw [ht]; exact List.mem_singleton_self t))
        · exact .inr (by rw [ht]; exact List.mem_singleton_self t)
      rw [hdelays] at hmem
      cases hmem
    · cases h

/-- The coordinator waits for an event, for a time, or for the exit of the child. -/
theorem phase_of_moveCoordinator (h : r.moveCoordinator = none) (hfin : r.isFinished = false) :
    (r.phase = .taking ∧ r.queue = []) ∨ (∃ t, Phase.left? r.phase = some t ∧ t ≠ 0) ∨
      r.phase = .reaping ∧ r.child.code? = none := by
  unfold moveCoordinator at h
  split at h
  case h_1 =>
    split at h
    · cases h
    · split at h <;> cases h
  case h_2 hp =>
    unfold take at h
    split at h
    · rename_i hq
      exact .inl ⟨hp, hq⟩
    all_goals cases h
  case h_5 left hp =>
    split at h
    · cases h
    · split at h
      · split at h <;> cases h
      · rename_i hleft
        exact .inr (.inl ⟨left, by rw [hp]; rfl, hleft⟩)
  case h_6 => split at h <;> cases h
  case h_8 hp =>
    split at h
    · cases h
    · rename_i hcode
      exact .inr (.inr ⟨hp, Option.not_isSome_iff_eq_none.mp hcode⟩)
  case h_9 left hp =>
    split at h
    · cases h
    · rename_i hleft
      exact .inr (.inl ⟨left, by rw [hp]; rfl, fun hzero => hleft (.inr hzero)⟩)
  case h_10 ch left hp =>
    unfold join at h
    simp only at h
    split at h
    · split at h <;> cases h
    · split at h
      · cases h
      · rename_i hleft
        exact .inr (.inl ⟨left, by rw [hp]; rfl, hleft⟩)
  case h_11 hp =>
    rw [isFinished, hp] at hfin
    cases hfin
  all_goals cases h

/-- A reader waits for room in the queue, or for something to read, or is done. -/
theorem feed_of_moveReader (h : r.moveReader ch = none) :
    ((r.feeds.get ch).outbox ≠ [] ∧ r.plan.capacity ≤ r.queue.length) ∨
      (r.feeds.get ch).outbox = [] ∧ ((r.feeds.get ch).finished = true ∨
        (r.feeds.get ch).pipe = [] ∧ (r.feeds.get ch).ended = none) := by
  unfold moveReader at h
  simp only at h
  split at h
  · rename_i e outbox ho
    split at h
    · cases h
    · rename_i hroom
      exact .inl ⟨by rw [ho]; exact nofun, Nat.le_of_not_lt hroom⟩
  · rename_i ho
    refine .inr ⟨ho, ?_⟩
    split at h
    · rename_i hfin
      exact .inl hfin
    · right
      have hread := Option.map_eq_none_iff.mp h
      unfold Feed.read at hread
      split at hread
      · cases hread
      · cases hread
      · rename_i hpipe hended
        exact ⟨hpipe, hended⟩

/-- A child waits for room in a pipe or for a time, or has made its last move. -/
theorem moves_of_moveChild (h : r.moveChild = none) :
    (r.child.moves = [] ∧ r.child.life ≠ .running) ∨
      (∃ ch data rest, r.child.moves = .output ch data :: rest ∧ data ≠ [] ∧
        (r.feeds.get ch).hasRoom (data.take Stream.readSize) = false) ∨
      ∃ time rest, r.child.moves = .pause time :: rest ∧ time ≠ some 0 := by
  unfold moveChild at h
  split at h
  case h_2 hm hrunning => exact .inl ⟨hm, hrunning⟩
  case h_6 ch data rest hm =>
    simp only at h
    split at h
    · cases h
    · rename_i hpiece
      split at h
      · cases h
      · rename_i hroom
        refine .inr (.inl ⟨ch, data, rest, hm, ?_, Bool.eq_false_iff.mpr hroom⟩)
        rintro rfl
        exact hpiece List.take_nil
  case h_9 time rest hne hm => exact .inr (.inr ⟨time, rest, hm, hne⟩)
  all_goals cases h

/-- A pipe that is empty has room for a piece. -/
theorem pipe_ne_nil {f : Feed} {data : Bytes}
    (h : f.hasRoom (data.take Stream.readSize) = false) : f.pipe ≠ [] := by
  intro hnil
  have hlength : (data.take Stream.readSize).length ≤ Stream.readSize := List.length_take_le ..
  have hcapacity : Stream.readSize ≤ Feed.pipeCapacity := by decide
  unfold Feed.hasRoom at h
  rw [hnil] at h
  simp at h
  omega

/-! ## Standstills -/

/-- When nobody can move, the child has made its last move or is blocked: it does not pause, and if
its pipe is full, the reader has something to read, so it waits for room in the queue. -/
theorem Upkeep.blocked_of_stuck (h : r.Upkeep launched) (hstuck : r.advance = none) :
    (r.child.moves = [] ∧ r.child.life ≠ .running) ∨ ∃ ch, r.Blocked ch := by
  have hchild : r.moveChild = none := turn_eq_none_of_advance hstuck .child (by decide)
  have htime : r.passTime = none := turn_eq_none_of_advance hstuck .time (by decide)
  rcases moves_of_moveChild hchild with hdone | ⟨ch, data, rest, hm, hd, hfull⟩ |
    ⟨time, rest, hm, hne⟩
  · exact .inl hdone
  · have hreader : r.moveReader ch = none :=
      turn_eq_none_of_advance hstuck (.reader ch) (by cases ch <;> decide)
    have hpipe := pipe_ne_nil hfull
    rcases feed_of_moveReader hreader with hpublishing | ⟨-, hfin | ⟨hnil, -⟩⟩
    · exact .inr ⟨ch, ⟨data, rest, hm, hd, hfull⟩, hpublishing⟩
    · exact absurd ((h.leads ch).finished hfin).1 hpipe
    · exact absurd hnil hpipe
  · cases time with
    | none => exact absurd (hm ▸ List.mem_cons_self) h.awake
    | some time =>
        have hpause : r.child.pauseLeft? = some time := by
          unfold Child.pauseLeft?
          rw [hm]
        exact absurd (congrArg some (eq_zero_of_passTime htime (.inr hpause))) hne

/-- As long as the coordinator takes events, somebody can move. -/
theorem Upkeep.not_taking (h : r.Upkeep launched) (hstuck : r.advance = none)
    (hp : r.phase = .taking) (hq : r.queue = []) : False := by
  have hroom : ¬ r.plan.capacity ≤ r.queue.length := by
    rw [hq]
    exact Nat.not_le_of_lt h.room
  rcases h.blocked_of_stuck hstuck with ⟨hnil, -⟩ | ⟨ch, hblocked⟩
  · -- The child has ended every channel, so the marker of an open one is on its way.
    obtain ⟨ch, hopen⟩ := List.exists_mem_of_ne_nil _ (h.taking hp)
    have hended : (r.feeds.get ch).ended.isSome = true := by
      rcases (h.leads ch).ending with ⟨-, hends⟩ | ⟨hsome, -⟩
      · rw [hnil] at hends
        exact hends.elim
      · exact hsome
    have hreader : r.moveReader ch = none :=
      turn_eq_none_of_advance hstuck (.reader ch) (by cases ch <;> decide)
    rcases feed_of_moveReader hreader with ⟨-, hfull⟩ | ⟨hout, hfin | ⟨-, hnone⟩⟩
    · exact hroom hfull
    · rcases h.marked ch hfin hopen with hmem | hmem
      · rw [hout] at hmem
        cases hmem
      · rw [hq] at hmem
        cases hmem
    · rw [hnone] at hended
      cases hended
  · exact hroom hblocked.publishing.2

/-- If nobody can move, there is a standstill. -/
theorem Upkeep.standstill (h : r.Upkeep launched) (hstuck : r.IsStuck) : ∃ ch, r.Standstill ch := by
  obtain ⟨hfin, hadvance⟩ := hstuck
  have hcoordinator : r.moveCoordinator = none :=
    turn_eq_none_of_advance hadvance .coordinator (by decide)
  have htime : r.passTime = none := turn_eq_none_of_advance hadvance .time (by decide)
  rcases phase_of_moveCoordinator hcoordinator hfin with ⟨hp, hq⟩ | ⟨t, hleft, hne⟩ | ⟨hp, hcode⟩
  · exact (h.not_taking hadvance hp hq).elim
  · exact absurd (eq_zero_of_passTime htime (.inl hleft)) hne
  · have hrunning : r.child.life = .running := by
      cases hl : r.child.life <;> simp_all [Child.code?]
    rcases h.blocked_of_stuck hadvance with ⟨-, hnot⟩ | ⟨ch, hblocked⟩
    · exact absurd hrunning hnot
    · exact ⟨ch, hblocked, hp, hrunning, h.resists_iff.mpr (h.refused hp hcode)⟩

/-- As long as the child does not resist a kill, the coordinator is done or somebody can move. -/
theorem Upkeep.not_stuck (h : r.Upkeep launched) (hkill : ¬ launched.Resists) : ¬ r.IsStuck := by
  intro hstuck
  obtain ⟨ch, hstill⟩ := h.standstill hstuck
  exact hkill (h.resists_iff.mp hstill.resists)

/-! ## Standstills last -/

/-- Who is blocked stays so as long as the child, the feed of the channel and the plan are what they
were and the queue has not become shorter. -/
theorem Blocked.of_eq (h : r.Blocked ch) (hc : r'.child = r.child)
    (hf : r'.feeds.get ch = r.feeds.get ch) (hplan : r'.plan = r.plan)
    (hq : r.queue.length ≤ r'.queue.length) : r'.Blocked ch where
  writing := by
    rw [hc, hf]
    exact h.writing
  publishing := by
    rw [hf, hplan]
    exact ⟨h.publishing.1, Nat.le_trans h.publishing.2 hq⟩

theorem Standstill.of_eq (h : r.Standstill ch) (hp : r'.phase = r.phase)
    (hc : r'.child = r.child) (hf : r'.feeds.get ch = r.feeds.get ch) (hplan : r'.plan = r.plan)
    (hq : r.queue.length ≤ r'.queue.length) : r'.Standstill ch :=
  ⟨h.toBlocked.of_eq hc hf hplan hq, hp.trans h.reaping, hc ▸ h.running, hc ▸ h.resists⟩

/-- The coordinator waits for good. -/
theorem Standstill.not_coordinates (h : r.Standstill ch) : ¬ r.Coordinates r' := by
  have hp := h.reaping
  intro hc
  cases hc with
  | reap _ hcode =>
      rw [Child.code?, h.running] at hcode
      cases hcode
  | wait hp' | stop hp' =>
      rcases hp' with ⟨hp', -⟩ | ⟨hp', -⟩ <;> cases hp.symm.trans hp'
  | look hp' | lookAgain hp' | takeCancelled hp' | takeEnd hp' | takeChunk hp' | dropChunk hp'
  | write hp' | writeFault hp' | flush hp' | flushFault hp' | abandon hp' | kill hp'
  | discardEnd hp' | discard hp' | discarded hp' | join hp' => cases hp.symm.trans hp'

/-- The child, the reader of its pipe and anybody who would publish wait for good, and what the
others do changes nothing. -/
theorem Standstill.attends {t : Turn} (h : r.Standstill ch) (ha : r.Attends t r') :
    r'.Standstill ch := by
  obtain ⟨data, rest, hm, hd, hfull⟩ := h.writing
  have hmoves {m : Move} {moves : List Move} (hm' : r.child.moves = m :: moves) :
      m = .output ch data := (List.cons.inj (hm'.symm.trans hm)).1
  cases ha with
  | publish _ hroom => exact absurd h.publishing.2 (Nat.not_le_of_lt hroom)
  | @read ch' f ho =>
      have hne : ch ≠ ch' := by
        rintro rfl
        exact h.publishing.1 ho
      exact h.of_eq rfl rfl (PerChannel.get_set_of_ne _ hne f) rfl (Nat.le_refl _)
  | exit _ hexit =>
      rcases hexit with ⟨hnil, -⟩ | hexit
      · cases hm.symm.trans hnil
      · cases hmoves hexit
  | aside hm' hside =>
      obtain rfl := hmoves hm'
      rcases hside with hside | ⟨ch', heq⟩
      · exact hside.elim
      · exact absurd (Move.output.inj heq).2 hd
  | output hm' _ hroom =>
      obtain ⟨rfl, rfl⟩ := Move.output.inj (hmoves hm')
      cases hfull.symm.trans hroom
  | close hm' => cases hmoves hm'
  | @elapse time =>
      have hphase : Phase.elapse time r.phase = r.phase := by rw [h.reaping]; rfl
      have hchild : r.child.elapse time = r.child := by rw [Child.elapse, hm]
      exact h.of_eq hphase hchild rfl rfl (Nat.le_refl _)
  | due | request => exact h.of_eq rfl rfl rfl rfl (Nat.le_refl _)

/-- No turn ends a standstill. -/
theorem Standstill.turn {t : Turn} (h : r.Standstill ch) (ht : r.turn t = some r') :
    r'.Standstill ch := by
  rcases step_of_turn ht with ⟨-, r₁, hc, -⟩ | ⟨r₁, ha, hs⟩
  · exact (h.not_coordinates hc).elim
  · obtain ⟨n, hn⟩ := hs.queue
    rw [hs.rest]
    refine (h.attends ha).of_eq rfl rfl rfl rfl ?_
    rw [hn, List.length_append]
    exact Nat.le_add_right ..

/-- No schedule ends a standstill, so the coordinator is never done. -/
theorem Standstill.follow {ts : List Turn} (h : r.Standstill ch) (ht : r.follow ts = some r') :
    r'.Standstill ch := by
  induction ts generalizing r with
  | nil =>
      obtain rfl := Option.some.inj ht
      exact h
  | cons t ts ih =>
      obtain ⟨next, hnext, hrest⟩ := Option.bind_eq_some_iff.mp ht
      exact ih (h.turn hnext) hrest

theorem Standstill.not_finished (h : r.Standstill ch) : r.isFinished = false := by
  rw [isFinished, h.reaping]
  rfl

/-! ## How it comes to a standstill -/

theorem follow_append (r : Relay) (ts ts' : List Turn) :
    r.follow (ts ++ ts') = (r.follow ts).bind fun r' => r'.follow ts' := by
  induction ts generalizing r with
  | nil => rfl
  | cons t ts ih =>
      have hrest (next : Relay) : next.follow (ts ++ ts') =
          (next.follow ts).bind fun r' => r'.follow ts' := ih next
      simp only [List.cons_append, Relay.follow, hrest, Option.bind_assoc]

/-- The child puts out the first piece of its output if the pipe has room. -/
theorem moveChild_output {data : Bytes} {rest : List Move}
    (hm : r.child.moves = .output ch data :: rest) (hd : data ≠ [])
    (hroom : (r.feeds.get ch).hasRoom (data.take Stream.readSize) = true) :
    ∃ r', r.moveChild = some r' ∧
      r' = { r with
        child := { r.child with moves := Move.leftover ch data rest }, feeds := r'.feeds } ∧
      r'.feeds.get ch = { r.feeds.get ch with
        pipe := (r.feeds.get ch).pipe ++ [data.take Stream.readSize] } := by
  have hpiece : data.take Stream.readSize ≠ [] := by
    simpa [List.take_eq_nil_iff, Stream.readSize] using hd
  unfold moveChild
  rw [hm]
  simp only [if_neg hpiece, if_pos hroom]
  exact ⟨_, rfl, rfl, PerChannel.get_set_self ..⟩

/-- A child that writes more than its pipe has room for comes to wait for that room. -/
theorem exists_full_pipe {data : Bytes} {rest : List Move}
    (hm : r.child.moves = .output ch data :: rest) (hd : data ≠ [])
    (hdata : Feed.pipeCapacity < (r.feeds.get ch).pipe.flatten.length + data.length) :
    ∃ ts r' data', r.follow ts = some r' ∧
      r' = { r with
        child := { r.child with moves := .output ch data' :: rest }, feeds := r'.feeds } ∧
      (r'.feeds.get ch).outbox = (r.feeds.get ch).outbox ∧ data' ≠ [] ∧
      (r'.feeds.get ch).hasRoom (data'.take Stream.readSize) = false := by
  induction hn : data.length using Nat.strongRecOn generalizing r data with
  | ind n ih =>
      cases hroom : (r.feeds.get ch).hasRoom (data.take Stream.readSize) with
      | false => exact ⟨[], r, data, rfl, by rw [← hm], rfl, hd, hroom⟩
      | true =>
          have hfits := of_decide_eq_true hroom
          have hparts : (data.take Stream.readSize).length +
              (data.drop Stream.readSize).length = data.length := by
            rw [← List.length_append, List.take_append_drop]
          have hdrop : data.drop Stream.readSize ≠ [] := by
            refine List.ne_nil_of_length_pos ?_
            omega
          have hless : (data.drop Stream.readSize).length < n := by
            have hpos : 0 < data.length := List.length_pos_iff.mpr hd
            rw [List.length_drop, ← hn]
            exact Nat.sub_lt hpos (by decide)
          obtain ⟨r₁, hchild, heq, hfeed⟩ := moveChild_output hm hd hroom
          rw [Move.leftover, if_neg hdrop] at heq
          have hmoves : r₁.child.moves = .output ch (data.drop Stream.readSize) :: rest := by
            rw [heq]
          have hstill : Feed.pipeCapacity <
              (r₁.feeds.get ch).pipe.flatten.length + (data.drop Stream.readSize).length := by
            rw [hfeed, List.flatten_append, List.flatten_singleton, List.length_append]
            omega
          obtain ⟨ts, r', data', hfollow, heq', hout, hd', hfull⟩ :=
            ih _ hless hmoves hdrop hstill rfl
          refine ⟨.child :: ts, r', data', ?_, ?_, ?_, hd', hfull⟩
          · rw [follow, turn, hchild]
            exact hfollow
          · rw [heq', heq]
          · rw [hout, hfeed]

theorem moveReader_publish {e : Event} {outbox : List Event}
    (ho : (r.feeds.get ch).outbox = e :: outbox) (hroom : r.queue.length < r.plan.capacity) :
    r.moveReader ch = some { r with
      queue := r.queue ++ [e], feeds := r.feeds.set ch { r.feeds.get ch with outbox } } := by
  unfold moveReader
  simp only [ho, if_pos hroom]

theorem moveReader_read {f : Feed} (ho : (r.feeds.get ch).outbox = [])
    (hf : (r.feeds.get ch).finished = false)
    (hr : (r.feeds.get ch).read ch (r.child.closing.get ch) = some f) :
    r.moveReader ch = some { r with feeds := r.feeds.set ch f } := by
  unfold moveReader
  simp only [ho, hf, hr, Bool.false_eq_true, if_false, Option.map_some]

/-- A line that the child writes reaches a reader that has nothing else. -/
theorem follow_line {rest : List Move} (hfeed : r.feeds.get ch = {})
    (hm : r.child.moves = .output ch [Stream.lineFeed] :: rest) :
    ∃ r', r.follow [.child, .reader ch] = some r' ∧
      r' = { r with child := { r.child with moves := rest }, feeds := r'.feeds } ∧
      r'.feeds.get ch = { outbox := [.chunk ch [Stream.lineFeed]] } := by
  have hroom : (r.feeds.get ch).hasRoom ([Stream.lineFeed].take Stream.readSize) = true := by
    rw [hfeed]
    decide
  obtain ⟨r₁, hchild, heq, hpipe⟩ := moveChild_output hm nofun hroom
  rw [hfeed] at hpipe
  have hread : (r₁.feeds.get ch).read ch (r₁.child.closing.get ch) =
      some { outbox := [.chunk ch [Stream.lineFeed]] } := by
    have hchunks : Stream.Reader.feed {} [Stream.lineFeed] = ([[Stream.lineFeed]], {}) := by
      decide +kernel
    have htake : [Stream.lineFeed].take Stream.readSize = [Stream.lineFeed] := rfl
    rw [hpipe, htake, Feed.read]
    simp only [List.nil_append, hchunks, List.map_cons, List.map_nil]
  have hreader := moveReader_read (by rw [hpipe]) (by rw [hpipe]) hread
  refine ⟨{ r₁ with feeds := r₁.feeds.set ch { outbox := [.chunk ch [Stream.lineFeed]] } },
    ?_, ?_, PerChannel.get_set_self ..⟩
  · simp only [follow, turn, hchild, Option.bind_some, hreader]
  · rw [heq]
    rfl

/-- A child that writes one line more than the queue has room for has its reader wait for that
room. -/
theorem exists_full_queue {n : Nat} {rest : List Move}
    (hroom : r.plan.capacity = r.queue.length + n) (hfeed : r.feeds.get ch = {})
    (hm : r.child.moves = List.replicate (n + 1) (.output ch [Stream.lineFeed]) ++ rest) :
    ∃ ts r', r.follow ts = some r' ∧
      r' = { r with
        child := { r.child with moves := rest }, queue := r'.queue, feeds := r'.feeds } ∧
      r'.queue.length = r.plan.capacity ∧
      r'.feeds.get ch = { outbox := [.chunk ch [Stream.lineFeed]] } := by
  induction n generalizing r with
  | zero =>
      obtain ⟨r', hfollow, heq, hout⟩ := follow_line hfeed hm
      have hqueue : r'.queue = r.queue := by rw [heq]
      refine ⟨_, r', hfollow, ?_, ?_, hout⟩
      · rw [hqueue]
        exact heq
      · rw [hqueue, hroom, Nat.add_zero]
  | succ n ih =>
      obtain ⟨r₁, hfollow, heq, hout⟩ := follow_line hfeed hm
      have hqueue : r₁.queue = r.queue := by rw [heq]
      have hplan : r₁.plan = r.plan := by rw [heq]
      have hspace : r₁.queue.length < r₁.plan.capacity := by
        rw [hqueue, hplan, hroom]
        exact Nat.lt_add_of_pos_right (Nat.succ_pos n)
      have hpublish := moveReader_publish (congrArg Feed.outbox hout) hspace
      rw [hout] at hpublish
      have hless : r₁.plan.capacity =
          (r₁.queue ++ [Event.chunk ch [Stream.lineFeed]]).length + n := by
        rw [hplan, hqueue, List.length_append, hroom, Nat.add_right_comm]
        rfl
      obtain ⟨ts, r', hrest, heq', hfull, hout'⟩ := ih (r := { r₁ with
          queue := r₁.queue ++ [.chunk ch [Stream.lineFeed]], feeds := r₁.feeds.set ch {} })
        hless (PerChannel.get_set_self ..) (by rw [heq]; rfl)
      refine ⟨[.child, .reader ch] ++ .reader ch :: ts, r', ?_, ?_, ?_, hout'⟩
      · rw [follow_append, hfollow, Option.bind_some, follow, turn, hpublish]
        exact hrest
      · rw [heq', heq]
      · rw [hfull, ← hplan]

/-- A coordinator that is asked for the cancellation tries to kill the child, and waits for its
exit also when the child resists. -/
theorem exists_refused_kill (reason : Text) (hp : r.phase = .checking) (ho : r.openChannels ≠ [])
    (hresists : r.child.Resists) :
    ∃ r', r.follow [.cancel reason, .coordinator, .coordinator] = some r' ∧
      r'.phase = .reaping ∧ r'.child = r.child ∧ r'.feeds = r.feeds ∧ r'.plan = r.plan ∧
      r.queue.length ≤ r'.queue.length := by
  have hcancelled := isCancelled_cancel r reason
  have hs := stirs_cancel r reason
  have hphase : (r.cancel reason).phase = .checking := by
    rw [hs.rest]
    exact hp
  have hopen : (r.cancel reason).openChannels ≠ [] := by
    rw [hs.rest]
    exact ho
  have hchild : (r.cancel reason).stop.child = r.child := by rw [stop, hs.rest]
  have hstop : (r.cancel reason).moveCoordinator = some (r.cancel reason).stop := by
    unfold moveCoordinator
    simp only [hphase, if_neg hopen, hcancelled, if_true]
  have hkill : (r.cancel reason).stop.moveCoordinator = some (r.cancel reason).stop.kill := rfl
  refine ⟨(r.cancel reason).stop.kill, ?_, rfl, ?_, ?_, ?_, ?_⟩
  · simp only [follow, turn, Option.bind_some, hstop, hkill]
  · have hkilled : (r.cancel reason).stop.kill.child = (r.cancel reason).stop.child.kill.1 := rfl
    rw [hkilled, hchild, hresists.kill_fst]
  · rw [kill, stop, hs.rest]
  · rw [kill, stop, hs.rest]
  · obtain ⟨n, hn⟩ := hs.queue
    have hqueue : (r.cancel reason).stop.kill.queue = (r.cancel reason).queue := rfl
    rw [hqueue, hn, List.length_append]
    exact Nat.le_add_right ..

/-- A child is blocked before anybody takes an event from the queue, if it writes one line more than
the queue has room for and then more than a pipe holds. -/
theorem Starts.exists_blocked {data : Bytes} {rest : List Move} (h : r.Starts)
    (hquiet : r.session.isCancelled = false)
    (hm : r.child.moves = List.replicate (r.plan.capacity + 1) (.output ch [Stream.lineFeed]) ++
      .output ch data :: rest)
    (hdata : Feed.pipeCapacity < data.length) :
    ∃ ts r', r.follow ts = some r' ∧
      r' = { r with
        child := { r.child with moves := r'.child.moves }, queue := r'.queue, feeds := r'.feeds } ∧
      r'.Blocked ch := by
  have hcapacity : r.plan.capacity = r.queue.length + r.plan.capacity := by
    rw [h.quiet hquiet]
    exact (Nat.zero_add _).symm
  obtain ⟨ts, r₁, hfollow, heq, hqueue, hfeed⟩ := exists_full_queue hcapacity (h.feeds ch) hm
  have hm₁ : r₁.child.moves = .output ch data :: rest := by rw [heq]
  have hd : data ≠ [] := List.ne_nil_of_length_pos (Nat.zero_lt_of_lt hdata)
  obtain ⟨ts', r', data', hfollow', heq', hout, hd', hfull⟩ :=
    exists_full_pipe hm₁ hd (Nat.lt_add_left _ hdata)
  have hm' : r'.child.moves = .output ch data' :: rest := by rw [heq']
  have hplan : r'.plan = r.plan := by rw [heq', heq]
  have hqueue' : r'.queue = r₁.queue := by rw [heq']
  refine ⟨ts ++ ts', r', ?_, ?_, ⟨⟨data', rest, hm', hd', hfull⟩, ?_, ?_⟩⟩
  · rw [follow_append, hfollow]
    exact hfollow'
  · rw [hm', hqueue', heq', heq]
  · rw [hout, hfeed]
    exact nofun
  · exact Nat.le_of_eq (by rw [hplan, hqueue', hqueue])

/-- Such a child comes to a standstill if it resists a kill and the relay is cancelled then. -/
theorem Starts.exists_standstill {data : Bytes} {rest : List Move} (reason : Text) (h : r.Starts)
    (hquiet : r.session.isCancelled = false) (hrunning : r.child.life = .running)
    (hresists : r.child.Resists)
    (hm : r.child.moves = List.replicate (r.plan.capacity + 1) (.output ch [Stream.lineFeed]) ++
      .output ch data :: rest)
    (hdata : Feed.pipeCapacity < data.length) :
    ∃ ts r', r.follow ts = some r' ∧ r'.Standstill ch := by
  obtain ⟨ts, r₁, hfollow, heq, hblocked⟩ := h.exists_blocked hquiet hm hdata
  have hphase : r₁.phase = .checking := by
    rw [heq]
    exact h.phase
  have hopen : r₁.openChannels ≠ [] := by
    rw [heq, h.openChannels]
    exact nofun
  have hresists₁ : r₁.child.Resists := by
    rw [heq]
    exact hresists
  obtain ⟨r', hkill, hreaping, hchild, hfeeds, hplan, hlonger⟩ :=
    exists_refused_kill reason hphase hopen hresists₁
  refine ⟨ts ++ [.cancel reason, .coordinator, .coordinator], r', ?_,
    hblocked.of_eq hchild (by rw [hfeeds]) hplan hlonger, hreaping, ?_, hchild ▸ hresists₁⟩
  · rw [follow_append, hfollow]
    exact hkill
  · rw [hchild, heq]
    exact hrunning

end Relay

end CommandRelay
