import CommandRelay.Proofs.Cancellation.Notification

/-!
# The lock of a cancellation

A request, an addition and a removal happen while a thread holds the lock of the cancellation, which
no thread can take twice. `LockStep` is the grain at which the lock is seen: a thread takes it, does
its operation, gives it back, and only then goes on to the calls that the operation has asked for.
Schedules at this grain are schedules of `Step` in which some steps change nothing
(`Follows.lockStep`). A thread that waits for the lock never holds it, so whatever callbacks do,
some thread can go on (`Guarded.exists_lockStep`).
-/

namespace CommandRelay.Cancellation

variable {κ : Type}

/-- Whether a task needs the lock. -/
def Task.TakesLock : Task κ → Prop
  | .act (.cancel _) | .act (.add _) | .act (.remove _) => True
  | _ => False

/-- What a thread has to do, at the grain of the lock. -/
inductive Stage (κ : Type) where
  | task (t : Task κ)
  | inside (a : Action κ)
  | leaving
  deriving DecidableEq, Repr

/-- A stage of a thread that does not hold the lock. -/
def Stage.IsTask (s : Stage κ) : Prop :=
  ∃ t, s = .task t

/-- What is left to do of a stage, if it is not seen who holds the lock. -/
def Stage.tasks : Stage κ → List (Task κ)
  | .task t => [t]
  | .inside a => [.act a]
  | .leaving => []

/-- Threads and the lock: the number of the thread that holds it, if there is one. -/
structure Locked (κ : Type) where
  scene : Scene κ
  holder : Option Nat
  threads : List (List (Stage κ))

namespace Locked

/-- Where the threads stand, if it is not seen who holds the lock. -/
def standing (l : Locked κ) : Standing κ :=
  (l.scene, l.threads.map (·.flatMap Stage.tasks))

/-- Threads that stand somewhere while nobody holds the lock. -/
def ofStanding (now : Standing κ) : Locked κ :=
  ⟨now.1, none, now.2.map (·.map .task)⟩

/-- A thread can only go on once it has taken the lock, and the lock is not free. -/
def Waits (l : Locked κ) (i : Nat) : Prop :=
  l.holder ≠ none ∧ ∃ t rest, l.threads[i]? = some (.task t :: rest) ∧ t.TakesLock

end Locked

/-! ## Who holds the lock -/

/-- The thread of a number holds the lock: what it does next waits for nobody. -/
def Holding (threads : List (List (Stage κ))) (i : Nat) : Prop :=
  ∃ s rest, threads[i]? = some (s :: rest) ∧ ¬ s.IsTask

/-- A list is cut at one of its places. -/
theorem exists_append_of_getElem? {α : Type} {l : List α} {i : Nat} {a : α} (h : l[i]? = some a) :
    ∃ before after, l = before ++ a :: after ∧ before.length = i := by
  obtain ⟨hi, rfl⟩ := List.getElem?_eq_some_iff.mp h
  refine ⟨l.take i, l.drop (i + 1), ?_, List.length_take_of_le (Nat.le_of_lt hi)⟩
  rw [List.getElem_cons_drop hi, List.take_append_drop]

/-- Other stacks are not touched when one is replaced. -/
theorem getElem?_replaced {α : Type} (before after : List α) (a b : α) {i : Nat}
    (hi : i ≠ before.length) : (before ++ a :: after)[i]? = (before ++ b :: after)[i]? := by
  rw [List.getElem?_append, List.getElem?_append]
  split
  · rfl
  · obtain ⟨n, hn⟩ : ∃ n, i - before.length = n + 1 := ⟨i - before.length - 1, by omega⟩
    rw [hn, List.getElem?_cons_succ, List.getElem?_cons_succ]

theorem holding_replaced {before after : List (List (Stage κ))} {stack : List (Stage κ)} {i : Nat}
    (other : List (Stage κ)) (hi : i ≠ before.length) :
    Holding (before ++ stack :: after) i ↔ Holding (before ++ other :: after) i := by
  unfold Holding
  rw [getElem?_replaced before after stack other hi]

theorem holding_length {before after : List (List (Stage κ))} {stack : List (Stage κ)} :
    Holding (before ++ stack :: after) before.length ↔
      ∃ s rest, stack = s :: rest ∧ ¬ s.IsTask := by
  simp [Holding]

/-- At most one thread holds the lock, the one that is known to, and only the next thing that it
does is done under the lock. -/
structure Guarded (l : Locked κ) : Prop where
  holder : ∀ i, l.holder = some i ↔ Holding l.threads i
  tail : ∀ stack ∈ l.threads, ∀ s ∈ stack.tail, s.IsTask

theorem Guarded.rest {scene : Scene κ} {holder : Option Nat} {before after : List (List (Stage κ))}
    {s : Stage κ} {rest : List (Stage κ)}
    (h : Guarded ⟨scene, holder, before ++ (s :: rest) :: after⟩) : ∀ s ∈ rest, s.IsTask :=
  h.tail (s :: rest) (List.mem_append_right _ List.mem_cons_self)

theorem guarded_ofStanding (now : Standing κ) : Guarded (.ofStanding now) := by
  have htasks (stack) (hstack : stack ∈ (Locked.ofStanding now).threads) (s) (hs : s ∈ stack) :
      s.IsTask := by
    obtain ⟨ts, -, rfl⟩ := List.mem_map.mp hstack
    obtain ⟨t, -, rfl⟩ := List.mem_map.mp hs
    exact ⟨t, rfl⟩
  refine ⟨fun i => ⟨nofun, ?_⟩, fun stack hstack s hs => ?_⟩
  · rintro ⟨s, rest, hstack, hs⟩
    exact absurd (htasks _ (List.mem_of_getElem? hstack) s List.mem_cons_self) hs
  · exact htasks stack hstack s (List.mem_of_mem_tail hs)

theorem isTask_of_mem_append {ts : List (Task κ)} {rest : List (Stage κ)}
    (hrest : ∀ s ∈ rest, s.IsTask) : ∀ s ∈ ts.map .task ++ rest, s.IsTask := by
  intro s hs
  rcases List.mem_append.mp hs with hs | hs
  · obtain ⟨t, -, rfl⟩ := List.mem_map.mp hs
    exact ⟨t, rfl⟩
  · exact hrest s hs

/-- Replacing a stack keeps the lock guarded if the new stack is as it should be. -/
theorem Guarded.replaced {scene scene' : Scene κ} {holder holder' : Option Nat}
    {before after : List (List (Stage κ))} {stack stack' : List (Stage κ)}
    (h : Guarded ⟨scene, holder, before ++ stack :: after⟩)
    (hothers : ∀ i, i ≠ before.length → (holder' = some i ↔ holder = some i))
    (hstack : holder' = some before.length ↔ ∃ s rest, stack' = s :: rest ∧ ¬ s.IsTask)
    (htail : ∀ s ∈ stack'.tail, s.IsTask) :
    Guarded ⟨scene', holder', before ++ stack' :: after⟩ := by
  refine ⟨fun i => ?_, fun other hmem => ?_⟩
  · by_cases hi : i = before.length
    · subst hi
      rw [holding_length]
      exact hstack
    · rw [holding_replaced stack hi, ← h.holder i]
      exact hothers i hi
  · rcases List.mem_append.mp hmem with hmem | hmem
    · exact h.tail other (List.mem_append_left _ hmem)
    · rcases List.mem_cons.mp hmem with rfl | hmem
      · exact htail
      · exact h.tail other (List.mem_append_right _ (List.mem_cons_of_mem _ hmem))

/-! ## Schedules at the two grains -/

theorem standing_replaced (scene : Scene κ) (holder : Option Nat)
    (before after : List (List (Stage κ))) (stack : List (Stage κ)) :
    Locked.standing ⟨scene, holder, before ++ stack :: after⟩ =
      (scene, before.map (·.flatMap Stage.tasks) ++
        stack.flatMap Stage.tasks :: after.map (·.flatMap Stage.tasks)) := by
  simp [Locked.standing]

theorem ofStanding_replaced (scene : Scene κ) (before after : List (List (Task κ)))
    (stack : List (Task κ)) :
    Locked.ofStanding (scene, before ++ stack :: after) =
      ⟨scene, none, before.map (·.map .task) ++ stack.map .task :: after.map (·.map .task)⟩ := by
  simp [Locked.ofStanding]

theorem flatMap_tasks_task (ts : List (Task κ)) (rest : List (Stage κ)) :
    (ts.map Stage.task ++ rest).flatMap Stage.tasks = ts ++ rest.flatMap Stage.tasks := by
  induction ts with
  | nil => rfl
  | cons t ts ih => exact congrArg (t :: ·) ih

theorem standing_ofStanding (now : Standing κ) : (Locked.ofStanding now).standing = now := by
  obtain ⟨scene, threads⟩ := now
  have hstack (stack : List (Task κ)) : (stack.map Stage.task).flatMap Stage.tasks = stack := by
    simpa using flatMap_tasks_task stack []
  simp [Locked.standing, Locked.ofStanding, Function.comp_def, hstack]

variable [DecidableEq κ]

/-- One step of a thread: it takes the lock if it is free, does what it holds the lock for, gives
the lock back, or does something that needs no lock. -/
inductive LockStep (body : κ → List (Action κ)) : Locked κ → Locked κ → Prop
  | enter (scene before after a rest) (ha : (Task.act a).TakesLock) :
      LockStep body ⟨scene, none, before ++ (.task (.act a) :: rest) :: after⟩
        ⟨scene, some before.length, before ++ (.inside a :: rest) :: after⟩
  | region (scene holder before after a rest) :
      LockStep body ⟨scene, holder, before ++ (.inside a :: rest) :: after⟩
        ⟨((Task.act a).perform body scene).1, holder,
          before ++ (.leaving :: (((Task.act a).perform body scene).2.map .task ++ rest)) :: after⟩
  | leave (scene holder before after rest) :
      LockStep body ⟨scene, holder, before ++ (.leaving :: rest) :: after⟩
        ⟨scene, none, before ++ rest :: after⟩
  | free (scene holder before after t rest) (ht : ¬ t.TakesLock) :
      LockStep body ⟨scene, holder, before ++ (.task t :: rest) :: after⟩
        ⟨(t.perform body scene).1, holder,
          before ++ ((t.perform body scene).2.map .task ++ rest) :: after⟩

variable {body : κ → List (Action κ)} {l l' : Locked κ}

/-- A step at the grain of the lock continues a schedule, or nothing is seen of it. -/
theorem Follows.lockStep {start : Standing κ} {tr : List (Scene κ × Task κ)}
    (h : Follows body start tr l.standing) (hplain : l.standing.IsPlain)
    (hstep : LockStep body l l') : ∃ tr', Follows body start tr' l'.standing := by
  cases hstep with
  | enter | leave =>
      rw [standing_replaced] at h
      exact ⟨tr, by rwa [standing_replaced]⟩
  | region scene holder before after a rest =>
      rw [standing_replaced] at h hplain
      have ha : (Task.act a).IsPlain := (isPlain_iff.mp hplain).1 _ List.mem_cons_self
      refine ⟨tr ++ [(scene, .act a)], ?_⟩
      rw [standing_replaced, List.flatMap_cons, flatMap_tasks_task]
      exact h.perform ha
  | free scene holder before after t rest ht =>
      rw [standing_replaced] at h hplain
      have hp : t.IsPlain := (isPlain_iff.mp hplain).1 _ List.mem_cons_self
      refine ⟨tr ++ [(scene, t)], ?_⟩
      rw [standing_replaced, flatMap_tasks_task]
      exact h.perform hp

/-- A step of a schedule is one step at the grain of the lock, or three of them. -/
theorem lockSteps_of_task {before after : List (List (Task κ))} {scene : Scene κ} {t : Task κ}
    {rest : List (Task κ)} :
    Relation.ReflTransGen (LockStep body)
      (.ofStanding (scene, before ++ (t :: rest) :: after))
      (.ofStanding ((t.perform body scene).1,
        before ++ ((t.perform body scene).2 ++ rest) :: after)) := by
  rw [ofStanding_replaced, ofStanding_replaced, List.map_cons, List.map_append]
  by_cases hlock : t.TakesLock
  · cases t with
    | call | shield => exact hlock.elim
    | act a =>
        exact ((Relation.ReflTransGen.single (.enter _ _ _ a _ hlock)).tail
          (.region _ _ _ _ a _)).tail (.leave ..)
  · exact .single (.free _ _ _ _ t _ hlock)

/-- Schedules lead to what is reachable at the grain of the lock while the lock is free. -/
theorem Follows.lockSteps {start now : Standing κ} {tr : List (Scene κ × Task κ)}
    (h : Follows body start tr now) (hbody : ∀ k, ∀ a ∈ body k, a.IsOperation)
    (hstart : start.IsPlain) :
    Relation.ReflTransGen (LockStep body) (.ofStanding start) (.ofStanding now) := by
  refine h.induction_plain (motive := fun _ now => Relation.ReflTransGen (LockStep body)
    (.ofStanding start) (.ofStanding now)) hbody hstart .refl ?_
  intro tr scene before after t rest _ ih
  exact ih.trans lockSteps_of_task

/-! ## Waiting -/

/-- A step keeps the lock guarded. -/
theorem Guarded.lockStep (h : Guarded l) (hstep : LockStep body l l') : Guarded l' := by
  cases hstep with
  | enter scene before after a rest ha =>
      have hrest := h.rest
      refine h.replaced (fun i hi => ⟨fun heq => ?_, nofun⟩) ⟨fun _ => ?_, fun _ => rfl⟩ hrest
      · exact absurd (Option.some.inj heq).symm hi
      · exact ⟨.inside a, rest, rfl, nofun⟩
  | region scene holder before after a rest =>
      have hrest := h.rest
      have hholder : holder = some before.length :=
        (h.holder _).mpr (holding_length.mpr ⟨.inside a, rest, rfl, nofun⟩)
      refine h.replaced (fun i _ => .rfl) ⟨fun _ => ?_, fun _ => hholder⟩
        (isTask_of_mem_append hrest)
      exact ⟨.leaving, _, rfl, nofun⟩
  | leave scene holder before after rest =>
      have hrest := h.rest
      have hholder : holder = some before.length :=
        (h.holder _).mpr (holding_length.mpr ⟨.leaving, rest, rfl, nofun⟩)
      refine h.replaced (fun i hi => ⟨nofun, fun heq => ?_⟩) ⟨nofun, ?_⟩
        (fun s hs => hrest s (List.mem_of_mem_tail hs))
      · rw [hholder] at heq
        exact absurd (Option.some.inj heq).symm hi
      · rintro ⟨s, rest', rfl, hs⟩
        exact absurd (hrest s List.mem_cons_self) hs
  | free scene holder before after t rest ht =>
      have hrest := h.rest
      have hnew : ∀ s ∈ (t.perform body scene).2.map .task ++ rest, s.IsTask :=
        isTask_of_mem_append hrest
      refine h.replaced (fun i _ => .rfl) ⟨fun heq => ?_, ?_⟩
        (fun s hs => hnew s (List.mem_of_mem_tail hs))
      · obtain ⟨s, rest', hstack, hs⟩ := holding_length.mp ((h.holder _).mp heq)
        obtain ⟨rfl, -⟩ := List.cons.inj hstack
        exact absurd ⟨t, rfl⟩ hs
      · rintro ⟨s, rest', hstack, hs⟩
        exact absurd (hnew s (hstack ▸ List.mem_cons_self)) hs

/-- A thread can take a step by itself, and the stacks of the others stay as they are. -/
def CanStep (body : κ → List (Action κ)) (l : Locked κ) (i : Nat) : Prop :=
  ∃ l', LockStep body l l' ∧ ∀ j, j ≠ i → l'.threads[j]? = l.threads[j]?

/-- Whoever holds the lock can go on. -/
theorem canStep_of_holding {i : Nat} (h : Holding l.threads i) : CanStep body l i := by
  obtain ⟨scene, holder, threads⟩ := l
  obtain ⟨s, rest, hstack, hs⟩ := h
  obtain ⟨before, after, rfl, rfl⟩ := exists_append_of_getElem? hstack
  cases s with
  | task t => exact absurd ⟨t, rfl⟩ hs
  | inside a => exact ⟨_, .region .., fun j hj => getElem?_replaced before after _ _ hj⟩
  | leaving => exact ⟨_, .leave .., fun j hj => getElem?_replaced before after _ _ hj⟩

/-- A thread that waits does not hold the lock itself, and the one that holds it can go on. -/
theorem Guarded.waits {i : Nat} (h : Guarded l) (hwaits : l.Waits i) :
    ∃ j, j ≠ i ∧ l.holder = some j ∧ CanStep body l j := by
  obtain ⟨hheld, t, rest, hstack, -⟩ := hwaits
  obtain ⟨j, hj⟩ := Option.ne_none_iff_exists'.mp hheld
  have hholding := (h.holder j).mp hj
  refine ⟨j, ?_, hj, canStep_of_holding hholding⟩
  rintro rfl
  obtain ⟨s, rest', hstack', hs⟩ := hholding
  obtain ⟨rfl, -⟩ := List.cons.inj (Option.some.inj (hstack.symm.trans hstack'))
  exact hs ⟨t, rfl⟩

/-- As long as there is something to do, some thread can go on. -/
theorem Guarded.exists_canStep (h : Guarded l) {stack : List (Stage κ)} (hstack : stack ∈ l.threads)
    (hne : stack ≠ []) : ∃ i, CanStep body l i := by
  cases hholder : l.holder with
  | some i => exact ⟨i, canStep_of_holding ((h.holder i).mp hholder)⟩
  | none =>
      obtain ⟨scene, holder, threads⟩ := l
      obtain rfl : holder = none := hholder
      obtain ⟨before, after, rfl⟩ := List.append_of_mem hstack
      cases stack with
      | nil => exact absurd rfl hne
      | cons s rest =>
          cases s with
          | inside a =>
              cases (h.holder _).mpr (holding_length.mpr ⟨.inside a, rest, rfl, nofun⟩)
          | leaving =>
              cases (h.holder _).mpr (holding_length.mpr ⟨.leaving, rest, rfl, nofun⟩)
          | task t =>
              refine ⟨before.length, ?_⟩
              by_cases hlock : t.TakesLock
              · cases t with
                | call | shield => exact hlock.elim
                | act a =>
                    exact ⟨_, .enter _ _ _ a _ hlock,
                      fun j hj => getElem?_replaced before after _ _ hj⟩
              · exact ⟨_, .free _ _ _ _ t _ hlock,
                  fun j hj => getElem?_replaced before after _ _ hj⟩

/-! ## Notification under the lock -/

theorem reachable_guarded {start : Standing κ} (hbody : ∀ k, ∀ a ∈ body k, a.IsOperation)
    (hstart : start.IsPlain)
    (h : Relation.ReflTransGen (LockStep body) (.ofStanding start) l) :
    Guarded l ∧ ∃ tr, Follows body start tr l.standing := by
  induction h with
  | refl =>
      refine ⟨guarded_ofStanding start, [], ?_⟩
      rw [standing_ofStanding]
      exact .start
  | tail _ hstep ih =>
      obtain ⟨hguarded, tr, hfollows⟩ := ih
      exact ⟨hguarded.lockStep hstep, hfollows.lockStep (hfollows.isPlain hbody hstart) hstep⟩

/-- Threads run programs of operations on one cancellation, and so do the callbacks. As long as
nobody has asked for the cancellation, no callback is called. After the first request, the calls
made and still to be made are those of the registrations that were left then, and one for each
addition since; when all threads are done, they have been made. A thread that waits for the lock
waits for another thread, which can go on. -/
theorem callbacks_notified_once {programs : List (List (Action κ))} (deadline : Deadline)
    (hbody : ∀ k, ∀ a ∈ body k, a.IsOperation)
    (hprograms : ∀ p ∈ programs, ∀ a ∈ p, a.IsOperation) :
    (∀ tr now, Follows body (starting deadline programs) tr now →
      (now.1.state.fired = false → Quiet tr now) ∧
      (now.1.state.fired = true → ∃ before first threads reason since,
        tr = before ++ (first, .act (.cancel reason)) :: since ∧ Quiet before (first, threads) ∧
        Notifying first since now ∧
        ((∀ stack ∈ now.2, stack = []) → ∀ k, now.1.called.count k =
          first.state.callbacks.count k + (since.map Prod.snd).count (.act (.add k))))) ∧
    ∀ l, Relation.ReflTransGen (LockStep body) (.ofStanding (starting deadline programs)) l →
      (∃ tr, Follows body (starting deadline programs) tr l.standing) ∧
      (∀ i, l.Waits i → ∃ j, j ≠ i ∧ l.holder = some j ∧ CanStep body l j) ∧
      ∀ stack ∈ l.threads, stack ≠ [] → ∃ i, CanStep body l i := by
  refine ⟨fun tr now h => ?_, fun l h => ?_⟩
  · cases h.phase hbody hprograms with
    | quiet hquiet =>
        refine ⟨fun _ => hquiet, fun hfired => ?_⟩
        rw [hquiet.fired] at hfired
        cases hfired
    | notifying hbefore hnow =>
        refine ⟨fun hfired => ?_, fun _ => ?_⟩
        · rw [hnow.fired] at hfired
          cases hfired
        · exact ⟨_, _, _, _, _, rfl, hbefore, hnow, hnow.count_called⟩
  · obtain ⟨hguarded, hfollows⟩ :=
      reachable_guarded hbody (isPlain_starting deadline hprograms) h
    exact ⟨hfollows, fun i hwaits => hguarded.waits hwaits,
      fun stack hstack hne => hguarded.exists_canStep hstack hne⟩

/-- What callbacks do that are told apart by numbers: the one with the number 0 adds another. -/
def reentrant : Nat → List (Action Nat)
  | 0 => [.add 1]
  | _ => []

/-- The programs of two threads. -/
def duet : List (List (Action Nat)) :=
  [[.add 0, .cancel "stop"], [.add 1]]

/-- One thread adds a callback and asks for the cancellation, another adds one after that, and the
first callback adds one when it is called. -/
theorem callbacks_notified_once_duet :
    (∃ tr scene, Follows reentrant (starting none duet) tr (scene, [[], []]) ∧
      scene.called = [0, 1, 1] ∧
      ∃ before first threads reason since, tr = before ++ (first, .act (.cancel reason)) :: since ∧
        Quiet before (first, threads) ∧ Notifying first since (scene, [[], []]) ∧
        ∀ k, scene.called.count k = first.state.callbacks.count k +
          (since.map Prod.snd).count (.act (.add k))) ∧
    ∃ l, Relation.ReflTransGen (LockStep reentrant) (.ofStanding (starting none duet)) l ∧
      l.Waits 1 ∧ ∃ j, j ≠ 1 ∧ l.holder = some j ∧ CanStep reentrant l j := by
  have hbody : ∀ k, ∀ a ∈ reentrant k, a.IsOperation := by
    intro k a ha
    cases k with
    | zero =>
        obtain rfl := List.mem_singleton.mp ha
        trivial
    | succ k => cases ha
  have hprograms : ∀ p ∈ duet, ∀ a ∈ p, a.IsOperation := by
    simp [duet, Action.IsOperation]
  obtain ⟨hschedules, hlocks⟩ := callbacks_notified_once none hbody hprograms
  constructor
  · have hadded : Follows reentrant (starting none duet) _
        (_, [[.act (.cancel "stop")], [.act (.add 1)]]) := Follows.start.step [] _
    have hcancelled : Follows reentrant (starting none duet) _
        (_, [[.call 0], [.act (.add 1)]]) := hadded.step [] _
    have hlate : Follows reentrant (starting none duet) _ (_, [[.call 0], [.call 1]]) :=
      hcancelled.step [[.call 0]] _
    have hcalled : Follows reentrant (starting none duet) _
        (_, [[.act (.add 1)], [.call 1]]) := hlate.step [] _
    have hagain : Follows reentrant (starting none duet) _ (_, [[.call 1], [.call 1]]) :=
      hcalled.step [] _
    have hfirst : Follows reentrant (starting none duet) _ (_, [[], [.call 1]]) :=
      hagain.step [] _
    have hdone : Follows reentrant (starting none duet) _ (_, [[], []]) :=
      hfirst.step [[]] _
    obtain ⟨before, first, threads, reason, since, htr, hbefore, hnow, hcounts⟩ :=
      (hschedules _ _ hdone).2 rfl
    exact ⟨_, _, hdone, rfl, before, first, threads, reason, since, htr, hbefore, hnow,
      hcounts (by simp)⟩
  · have hentered : Relation.ReflTransGen (LockStep reentrant) (.ofStanding (starting none duet))
        ⟨{}, some 0,
          [[.inside (.add 0), .task (.act (.cancel "stop"))], [.task (.act (.add 1))]]⟩ :=
      .single (.enter {} [] _ (.add 0) _ trivial)
    have hwaits : Locked.Waits (κ := Nat) ⟨{}, some 0,
        [[.inside (.add 0), .task (.act (.cancel "stop"))], [.task (.act (.add 1))]]⟩ 1 :=
      ⟨nofun, _, _, rfl, trivial⟩
    exact ⟨_, hentered, hwaits, (hlocks _ hentered).2.1 1 hwaits⟩

end CommandRelay.Cancellation
