import CommandRelay.Execution.Run

/-!
# Moments of a run

A run begins with authorization, the opening of its targets and the start of its child. Either it
is over with that, or a relay takes up its work, and then every schedule of turns leads to a moment
of the run. `run_eq_begin` says that a run is its beginning followed by the relay that is settled,
and `reached_of_run` that what a run gives is reached in one of its schedules.

## Implementation notes

A run gives nothing if its child never ends. Its moments are there all the same, so what holds of
every moment holds of runs without an end too.
-/

namespace CommandRelay

/-! ## Schedules -/

namespace Relay

theorem follow_cons_eq_some_iff {r r' : Relay} {t : Turn} {ts : List Turn} :
    r.follow (t :: ts) = some r' ↔ ∃ next, r.turn t = some next ∧ next.follow ts = some r' :=
  Option.bind_eq_some_iff

theorem exists_turn_of_advance {r r' : Relay} (h : r.advance = some r') :
    ∃ t, r.turn t = some r' := by
  obtain ⟨t, -, ht⟩ := List.exists_of_findSome?_eq_some h
  exact ⟨t, ht⟩

theorem exists_follow_of_settleWithin {r r' : Relay} {n : Nat}
    (h : r.settleWithin n = some r') :
    ∃ ts, r.follow ts = some r' ∧ r'.isFinished = true := by
  induction n generalizing r with
  | zero => cases h
  | succ n ih =>
      rw [settleWithin] at h
      split at h
      · rename_i hfin
        obtain rfl := Option.some.inj h
        exact ⟨[], rfl, hfin⟩
      · obtain ⟨next, hadv, hset⟩ := Option.bind_eq_some_iff.mp h
        obtain ⟨t, ht⟩ := exists_turn_of_advance hadv
        obtain ⟨ts, hts, hfin⟩ := ih hset
        exact ⟨t :: ts, follow_cons_eq_some_iff.mpr ⟨next, ht, hts⟩, hfin⟩

/-- To settle is to follow some schedule until the coordinator is done. -/
theorem exists_follow_of_settle {r r' : Relay} (h : r.settle = some r') :
    ∃ ts, r.follow ts = some r' ∧ r'.isFinished = true :=
  exists_follow_of_settleWithin h

end Relay

namespace Run

/-- What the beginning of a run comes to: the run is over, or its child has been started and a
relay begins. -/
inductive Beginning where
  | ended (s : Session) (answer : Except Failure RunResult)
  | relaying (files : Redirects) (r : Relay)

variable (x : Executor) (options : RunOptions) (consoles : Consoles) (w : Surroundings)

/-- What is left of the beginning of a run once its targets are open. -/
def beginOpened (c : Command) (files : Redirects) (s : Session) : Beginning :=
  match announce x consoles .start c (record x .info .start c s) with
  | (s, .error fault) =>
    let (s, answer) := finish w files s (.error (.access fault))
    .ended s answer
  | (s, .ok ()) =>
    if s.isCancelled then
      let (s, answer) := finish w files
        (record x .warning (.cancel s.cancellation.reason) c s)
        (.ok (cancelledResult x c none "0.0"))
      .ended s answer
    else
      match spawn x w c s with
      | (s, .error f) =>
        let (s, answer) := finish w files s (.error f)
        .ended s answer
      | (s, .ok child) => .relaying files (relay x options consoles w c files child s)

/-- The beginning of a run. -/
def begin (check : Check) (c : Command) (s : Session) : Beginning :=
  match check ((s.emit (.consulted c.name)).cancelIf w.whileAuthorizing) c.name with
  | (s, .error f) => .ended s (.error f)
  | (s, .ok ()) =>
    match Redirects.openTargets options.redirect w.fileFaults c s with
    | (s, .error f) => .ended s (.error f)
    | (s, .ok files) => beginOpened x options consoles w c files s

/-- What a run comes to whose relay is done. -/
def complete (c : Command) (files : Redirects) (r : Relay) :
    Session × Except Failure RunResult :=
  let (s, answer) := conclude x consoles w c r
  finish w files s answer

/-- To conclude a run notes lines and shows a notice: what these leave in place stays. -/
theorem conclude_induction {p : Session → Prop} {c : Command} {r : Relay}
    (hnote : ∀ s level text, p s → p (s.note level text))
    (hannounce : ∀ s n, p s → p (announce x consoles n c s).1) (h : p r.session) :
    p (conclude x consoles w c r).1 := by
  have hshown (level : Level) (n : Notice) {s' : Session} {answer : Except AccessFault Unit}
      (heq : announce x consoles n c (record x level n c r.session) = (s', answer)) : p s' := by
    have hnoted : p (announce x consoles n c (record x level n c r.session)).1 :=
      hannounce _ n (hnote _ level _ h)
    rwa [heq] at hnoted
  unfold conclude
  split
  · exact h
  · simp only
    split
    · split
      · rename_i heq
        exact hshown _ _ heq
      · rename_i heq
        exact hshown _ _ heq
    · split
      · exact h
      · split
        · exact hnote _ _ _ h
        · split
          · rename_i heq
            exact hshown _ _ heq
          · rename_i heq
            exact hnote _ _ _ (hshown _ _ heq)

/-! ### Notices -/

/-- Why a notice cannot be shown in a session, if it cannot. -/
def unshown? (n : Notice) (c : Command) (s : Session) : Option AccessFault :=
  match (announce x consoles n c s).2 with
  | .error fault => some fault
  | .ok () => none

/-- That a notice is noted before it is shown changes nothing about whether it can be. -/
theorem announce_record (level : Level) (n : Notice) (c : Command) (s : Session) :
    (announce x consoles n c (record x level n c s)).2 = (announce x consoles n c s).2 := by
  unfold announce
  split <;> rfl

section

variable {x consoles} {level : Level} {n : Notice} {c : Command} {s s' : Session}

theorem unshown?_of_error {fault : AccessFault}
    (h : announce x consoles n c (record x level n c s) = (s', .error fault)) :
    unshown? x consoles n c s = some fault := by
  rw [unshown?, ← announce_record x consoles level, h]

theorem unshown?_of_ok (h : announce x consoles n c (record x level n c s) = (s', .ok ())) :
    unshown? x consoles n c s = none := by
  rw [unshown?, ← announce_record x consoles level, h]

end

/-! ### Ways to begin -/

/-- The session in which a run has said that it starts. -/
def started (c : Command) (s : Session) : Session :=
  (announce x consoles .start c (record x .info .start c s)).1

/-- A run that is over before there is a relay closes its files. -/
def closing (files : Redirects) (s : Session) (answer : Except Failure RunResult) : Beginning :=
  .ended (finish w files s answer).1 (finish w files s answer).2

/-- What the beginning of a run comes to once its targets are open: its start cannot be announced,
it has been cancelled, its child cannot be started, or its child is started and a relay begins. -/
inductive BeginsOpened (c : Command) (files : Redirects) (s : Session) : Beginning → Prop
  | unannounced {fault} (h : unshown? x consoles .start c s = some fault) :
      BeginsOpened c files s (closing w files (started x consoles c s) (.error (.access fault)))
  | cancelled {s₁} (hshown : unshown? x consoles .start c s = none)
      (hs : started x consoles c s = s₁) (h : s₁.isCancelled = true) :
      BeginsOpened c files s
        (closing w files (record x .warning (.cancel s₁.cancellation.reason) c s₁)
          (.ok (cancelledResult x c none "0.0")))
  | unlaunched {s₁ f} (hshown : unshown? x consoles .start c s = none)
      (hgo : (started x consoles c s).isCancelled = false)
      (h : spawn x w c (started x consoles c s) = (s₁, .error f)) :
      BeginsOpened c files s (closing w files s₁ (.error f))
  | launched {s₁ child} (hshown : unshown? x consoles .start c s = none)
      (hgo : (started x consoles c s).isCancelled = false)
      (h : spawn x w c (started x consoles c s) = (s₁, .ok child)) :
      BeginsOpened c files s (.relaying files (relay x options consoles w c files child s₁))

theorem beginsOpened (c : Command) (files : Redirects) (s : Session) :
    BeginsOpened x options consoles w c files s
      (beginOpened x options consoles w c files s) := by
  unfold beginOpened
  split
  · rename_i s₁ fault h
    obtain rfl : started x consoles c s = s₁ := congrArg Prod.fst h
    exact .unannounced (unshown?_of_error h)
  · rename_i s₁ h
    obtain rfl : started x consoles c s = s₁ := congrArg Prod.fst h
    have hshown : unshown? x consoles .start c s = none := unshown?_of_ok h
    split
    · rename_i hcancelled
      exact .cancelled hshown rfl hcancelled
    · rename_i hgo
      split
      · rename_i hspawn
        exact .unlaunched hshown (Bool.eq_false_iff.mpr hgo) hspawn
      · rename_i hspawn
        exact .launched hshown (Bool.eq_false_iff.mpr hgo) hspawn

section

variable {x options consoles w} {check : Check} {c : Command} {s s₁ s₂ : Session}

/-- A run that is refused is over with that. -/
theorem begin_of_refused {f : Failure}
    (hcheck : check ((s.emit (.consulted c.name)).cancelIf w.whileAuthorizing) c.name =
      (s₁, .error f)) :
    begin x options consoles w check c s = .ended s₁ (.error f) := by
  simp only [begin, hcheck]

/-- So is one whose targets are not all opened. -/
theorem begin_of_unopened {f : Failure}
    (hcheck : check ((s.emit (.consulted c.name)).cancelIf w.whileAuthorizing) c.name =
      (s₁, .ok ()))
    (hopen : Redirects.openTargets options.redirect w.fileFaults c s₁ = (s₂, .error f)) :
    begin x options consoles w check c s = .ended s₂ (.error f) := by
  simp only [begin, hcheck, hopen]

theorem begin_of_opened {files : Redirects}
    (hcheck : check ((s.emit (.consulted c.name)).cancelIf w.whileAuthorizing) c.name =
      (s₁, .ok ()))
    (hopen : Redirects.openTargets options.redirect w.fileFaults c s₁ = (s₂, .ok files)) :
    begin x options consoles w check c s = beginOpened x options consoles w c files s₂ := by
  simp only [begin, hcheck, hopen]

end

/-! ### Runs and their beginnings -/

theorem execute_eq_beginOpened (c : Command) (files : Redirects) (s : Session) :
    ((execute x options consoles w c files s).map fun (s, answer) => finish w files s answer) =
      match beginOpened x options consoles w c files s with
      | .ended s answer => some (s, answer)
      | .relaying files r => r.settle.map (complete x consoles w c files) := by
  unfold execute beginOpened
  rcases announce x consoles .start c (record x .info .start c s) with ⟨s₁, fault | ⟨⟩⟩
  · rfl
  simp only
  split
  · rfl
  · rcases spawn x w c s₁ with ⟨s', f | child⟩
    · rfl
    · exact Option.map_map ..

/-- A run is its beginning, and the relay that is settled if there is one. -/
theorem run_eq_begin (check : Check) (c : Command) (s : Session) :
    run x options consoles w check c s =
      match begin x options consoles w check c s with
      | .ended s answer => some (s, answer)
      | .relaying files r => r.settle.map (complete x consoles w c files) := by
  unfold run begin
  rcases check ((s.emit (.consulted c.name)).cancelIf w.whileAuthorizing) c.name with ⟨s₁, f | ⟨⟩⟩
  · rfl
  · simp only
    rcases Redirects.openTargets options.redirect w.fileFaults c s₁ with ⟨s₂, f | files⟩
    · rfl
    · exact execute_eq_beginOpened x options consoles w c files s₂

/-- The moments of a run: its session, with the answer once there is one. -/
inductive Reached (check : Check) (c : Command) (s : Session) :
    Session → Option (Except Failure RunResult) → Prop
  | ended {s' answer} (h : begin x options consoles w check c s = .ended s' answer) :
      Reached check c s s' (some answer)
  | relaying {files r r'} (turns : List Relay.Turn)
      (h : begin x options consoles w check c s = .relaying files r)
      (hf : r.follow turns = some r') : Reached check c s r'.session none
  | done {files r r'} (turns : List Relay.Turn)
      (h : begin x options consoles w check c s = .relaying files r)
      (hf : r.follow turns = some r') (hfin : r'.isFinished = true) :
      Reached check c s (complete x consoles w c files r').1
        (some (complete x consoles w c files r').2)

/-- What a run gives is reached. -/
theorem reached_of_run {check : Check} {c : Command} {s s' : Session}
    {answer : Except Failure RunResult}
    (h : run x options consoles w check c s = some (s', answer)) :
    Reached x options consoles w check c s s' (some answer) := by
  rw [run_eq_begin] at h
  cases hb : begin x options consoles w check c s with
  | ended s₁ a =>
      rw [hb] at h
      obtain ⟨rfl, rfl⟩ := Prod.mk.inj (Option.some.inj h)
      exact .ended hb
  | relaying files r =>
      rw [hb] at h
      obtain ⟨r', hr, hc⟩ := Option.map_eq_some_iff.mp h
      obtain ⟨turns, hf, hfin⟩ := Relay.exists_follow_of_settle hr
      have hd := Reached.done turns hb hf hfin
      rwa [hc] at hd

/-- The moments of a run on a payload: it ends at once if the payload is no command. -/
inductive PayloadReached (check : Check) (payload : Payload) (s : Session) :
    Session → Option (Except Failure RunResult) → Prop
  | refused {e} (h : Command.decode payload = .error e) :
      PayloadReached check payload s s (some (.error (.record e)))
  | command {c s' answer} (h : Command.decode payload = .ok c)
      (hr : Reached x options consoles w check c s s' answer) :
      PayloadReached check payload s s' answer

theorem payloadReached_of_runPayload {check : Check} {payload : Payload} {s s' : Session}
    {answer : Except Failure RunResult}
    (h : runPayload x options consoles w check payload s = some (s', answer)) :
    PayloadReached x options consoles w check payload s s' (some answer) := by
  rw [runPayload] at h
  cases hd : Command.decode payload with
  | error e =>
      rw [hd] at h
      obtain ⟨rfl, rfl⟩ := Prod.mk.inj (Option.some.inj h)
      exact .refused hd
  | ok c =>
      rw [hd] at h
      exact .command hd (reached_of_run x options consoles w h)

end Run

end CommandRelay
