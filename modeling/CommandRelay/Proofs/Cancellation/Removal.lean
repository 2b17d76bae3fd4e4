import CommandRelay.Proofs.Cancellation.Notification
import Mathlib.Data.List.Induction

/-!
# Removal

A request has copies of the registrations called, so a callback may still be called after its last
registration has been taken away (`removed_still_called`). Such a call was due already when the
removal happened: as long as the callback is not added again, the calls that are made and those that
are still to be made are the ones that were still to be made then (`Withdrawn`). Before the first
request there are none, and after it they are what is left of the registrations that it met and of
the later additions (`calls_after_removal`).
-/

namespace CommandRelay.Cancellation

variable {κ : Type} [DecidableEq κ] {body : κ → List (Action κ)} {start now : Standing κ}
  {tr since : List (Scene κ × Task κ)} {scene : Scene κ} {t : Task κ}
  {before after : List (List (Task κ))} {rest : List (Task κ)} {k : κ}

/-! ## Parts of schedules -/

/-- The last step of a schedule. -/
theorem Follows.exists_last (h : Follows body start (tr ++ [(scene, t)]) now) :
    ∃ before rest after, Follows body start tr (scene, before ++ (t :: rest) :: after) ∧
      now = ((Cancellation.step body scene (t :: rest)).1,
        before ++ (Cancellation.step body scene (t :: rest)).2.1 :: after) := by
  generalize htr : tr ++ [(scene, t)] = whole at h
  cases h with
  | start => simp at htr
  | step before after h =>
      obtain ⟨rfl, hlast⟩ := List.append_inj' htr rfl
      obtain ⟨rfl, rfl⟩ := Prod.mk.inj (List.singleton_inj.mp hlast)
      exact ⟨before, _, after, h, rfl⟩

/-- A schedule is cut at any of its steps. -/
theorem Follows.exists_between (h : Follows body start (tr ++ since) now) :
    ∃ mid, Follows body start tr mid ∧ Follows body mid since now := by
  induction since using List.reverseRecOn generalizing now with
  | nil =>
      rw [List.append_nil] at h
      exact ⟨now, h, .start⟩
  | append_singleton since e ih =>
      rw [← List.append_assoc] at h
      obtain ⟨before, rest, after, hfront, rfl⟩ := h.exists_last
      obtain ⟨mid, htr, hsince⟩ := ih hfront
      exact ⟨mid, htr, hsince.step before after⟩

/-! ## Without registrations -/

/-- A callback without a registration that counts: the calls that have been made since and that are
to be made are as many as were to be made. -/
structure Withdrawn (k : κ) (due : Nat) (since : List (Scene κ × Task κ)) (now : Standing κ) :
    Prop where
  unregistered : now.1.state.fired = true ∨ k ∉ now.1.state.callbacks
  balance : (since.map Prod.snd).count (.call k) + callsPending now.2 k = due

/-- A task that does not add a callback brings in no call of it, unless it is registered. -/
theorem perform_of_unregistered (body : κ → List (Action κ)) (ht : t.IsPlain)
    (hadd : t ≠ .act (.add k)) (h : scene.state.fired = true ∨ k ∉ scene.state.callbacks) :
    ((t.perform body scene).1.state.fired = true ∨
        k ∉ (t.perform body scene).1.state.callbacks) ∧
      (t.perform body scene).2.count (.call k) = 0 := by
  cases t with
  | shield => exact ht.elim
  | call k' => exact ⟨h, count_map_act (body k') k⟩
  | act a =>
      cases a with
      | wait | raise => exact ht.elim
      | close => exact ⟨h, rfl⟩
      | remove k' => exact ⟨h.imp_right fun hk hmem => hk (List.mem_of_mem_erase hmem), rfl⟩
      | cancel reason =>
          cases hfired : scene.state.fired with
          | true => simp [Task.perform, Action.run, cancel, hfired]
          | false =>
              have hk : k ∉ scene.state.callbacks := h.resolve_left (by simp [hfired])
              simp [Task.perform, Action.run, cancel, hfired, count_map_call,
                List.count_eq_zero_of_not_mem hk]
      | add k' =>
          have hne : k' ≠ k := fun heq => hadd (by rw [heq])
          cases hfired : scene.state.fired with
          | true => simp [Task.perform, Action.run, add, hfired, hne]
          | false =>
              have hk : k ∉ scene.state.callbacks := h.resolve_left (by simp [hfired])
              simp [Task.perform, Action.run, add, hfired, hk, hne.symm]

/-- The balance is kept by every task that does not add the callback. -/
theorem Withdrawn.perform {due : Nat}
    (h : Withdrawn k due since (scene, before ++ (t :: rest) :: after)) (ht : t.IsPlain)
    (hadd : t ≠ .act (.add k)) :
    Withdrawn k due (since ++ [(scene, t)]) ((t.perform body scene).1,
      before ++ ((t.perform body scene).2 ++ rest) :: after) := by
  obtain ⟨hunregistered, hcount⟩ := perform_of_unregistered body ht hadd
    (show scene.state.fired = true ∨ k ∉ scene.state.callbacks from h.unregistered)
  refine ⟨hunregistered, ?_⟩
  have hbalance := h.balance
  have hreplaced := callsPending_replaced before after t (t.perform body scene).2 rest k
  have hcalls : ((since ++ [(scene, t)]).map Prod.snd).count (.call k) =
      (since.map Prod.snd).count (.call k) + if t = .call k then 1 else 0 := by
    simp [List.count_append, List.count_singleton]
  rw [hcalls]
  simp only at hbalance ⊢
  omega

/-- It is kept by a schedule in which the callback is not added. -/
theorem Withdrawn.follows {due : Nat} (h : Withdrawn k due [] start)
    (hbody : ∀ k, ∀ a ∈ body k, a.IsOperation) (hstart : start.IsPlain)
    (hfollows : Follows body start since now) (hadd : .act (.add k) ∉ since.map Prod.snd) :
    Withdrawn k due since now := by
  refine hfollows.induction_plain (motive := fun since now =>
    .act (.add k) ∉ since.map Prod.snd → Withdrawn k due since now) hbody hstart
    (fun _ => h) ?_ hadd
  intro tr scene before after t rest ht ih hnot
  rw [List.map_append, List.mem_append, not_or] at hnot
  exact (ih hnot.1).perform ht fun heq => hnot.2 (by simp [heq])

/-! ## After a removal -/

/-- A removal takes no call back, and brings in none. -/
theorem withdrawn_of_remove {due : Nat}
    (hdue : callsPending (before ++ (.act (.remove k) :: rest) :: after) k = due)
    (hlast : k ∉ (scene.state.remove k).callbacks) :
    Withdrawn k due [] ({ scene with state := scene.state.remove k },
      before ++ rest :: after) := by
  refine ⟨.inr hlast, ?_⟩
  have hreplaced := callsPending_replaced before after (.act (.remove k)) [] rest k
  rw [if_neg nofun, List.count_nil, hdue, List.nil_append] at hreplaced
  simpa using hreplaced

/-- Threads run programs of operations on one cancellation, and so do the callbacks. From a removal
that leaves no registration of a callback on, as long as the callback is not added again, the calls
of it that are made and that are still to be made are those that were still to be made when it
happened. If nobody had asked for the cancellation by then, there are none; otherwise they are what
the calls made before have left of the registrations that the first request met and of the additions
after it. -/
theorem calls_after_removal {programs : List (List (Action κ))} {deadline : Deadline}
    (hbody : ∀ k, ∀ a ∈ body k, a.IsOperation)
    (hprograms : ∀ p ∈ programs, ∀ a ∈ p, a.IsOperation)
    (h : Follows body (starting deadline programs)
      (tr ++ (scene, .act (.remove k)) :: since) now)
    (hlast : k ∉ (scene.state.remove k).callbacks)
    (hadd : .act (.add k) ∉ since.map Prod.snd) :
    ∃ threads, Follows body (starting deadline programs) tr (scene, threads) ∧
      (since.map Prod.snd).count (.call k) + callsPending now.2 k = callsPending threads k ∧
      (scene.state.fired = false → .call k ∉ since.map Prod.snd ∧ callsPending now.2 k = 0) ∧
      (scene.state.fired = true → ∃ earlier first others reason later,
        tr = earlier ++ (first, .act (.cancel reason)) :: later ∧
        Quiet earlier (first, others) ∧
        scene.called.count k + callsPending threads k =
          first.state.callbacks.count k + (later.map Prod.snd).count (.act (.add k))) := by
  have hplain := isPlain_starting deadline hprograms
  rw [List.append_cons] at h
  obtain ⟨mid, hremoved, hsince⟩ := h.exists_between
  obtain ⟨before, rest, after, htr, rfl⟩ := hremoved.exists_last
  have hwithdrawn : Withdrawn k (callsPending (before ++ (.act (.remove k) :: rest) :: after) k)
      since now :=
    (withdrawn_of_remove rfl hlast).follows hbody (hremoved.isPlain hbody hplain) hsince hadd
  refine ⟨_, htr, hwithdrawn.balance, ?_, ?_⟩
  · intro hfired
    have hbalance := hwithdrawn.balance
    cases htr.phase hbody hprograms with
    | quiet hquiet =>
        rw [hquiet.pending k, Nat.add_eq_zero_iff, List.count_eq_zero] at hbalance
        exact hbalance
    | notifying _ hnow =>
        rw [hnow.fired] at hfired
        cases hfired
  · intro hfired
    cases htr.phase hbody hprograms with
    | quiet hquiet =>
        rw [hquiet.fired] at hfired
        cases hfired
    | notifying hbefore hnow => exact ⟨_, _, _, _, _, rfl, hbefore, hnow.balance k⟩

/-- The first of two callbacks takes the second away. -/
def rival : Nat → List (Action Nat)
  | 0 => [.remove 1]
  | _ => []

/-- A thread that adds both of them and asks for the cancellation. -/
def rivalry : List (List (Action Nat)) :=
  [[.add 0, .add 1, .cancel "stop"]]

/-- What the two callbacks share when the second one is taken away by the first. -/
def rivalScene : Scene Nat :=
  { state := { reason := some "stop", fired := true, callbacks := [0, 1] }, called := [0] }

theorem isOperation_rival : ∀ k, ∀ a ∈ rival k, a.IsOperation := by
  intro k a ha
  cases k with
  | zero =>
      obtain rfl := List.mem_singleton.mp ha
      trivial
  | succ k => cases ha

theorem isOperation_rivalry : ∀ p ∈ rivalry, ∀ a ∈ p, a.IsOperation := by
  simp [rivalry, Action.IsOperation]

/-- The first callback takes the second one away, and then the second one is called. -/
theorem follows_rivalry : ∃ tr now, Follows rival (starting none rivalry)
    (tr ++ (rivalScene, .act (.remove 1)) ::
      [({ rivalScene with state := rivalScene.state.remove 1 }, .call 1)]) now := by
  have hadded : Follows rival (starting none rivalry) _
      (_, [[.act (.add 1), .act (.cancel "stop")]]) := Follows.start.step [] []
  have hboth : Follows rival (starting none rivalry) _ (_, [[.act (.cancel "stop")]]) :=
    hadded.step [] []
  have hcancelled : Follows rival (starting none rivalry) _ (_, [[.call 0, .call 1]]) :=
    hboth.step [] []
  have hcalled : Follows rival (starting none rivalry) _
      (rivalScene, [[.act (.remove 1), .call 1]]) := hcancelled.step [] []
  have hremoved : Follows rival (starting none rivalry) _
      ({ rivalScene with state := rivalScene.state.remove 1 }, [[.call 1]]) := hcalled.step [] []
  have hagain := hremoved.step [] []
  rw [List.append_assoc] at hagain
  exact ⟨_, _, hagain⟩

theorem calls_after_removal_rivalry :
    ∃ tr now threads, Follows rival (starting none rivalry) tr (rivalScene, threads) ∧
      1 ∉ (rivalScene.state.remove 1).callbacks ∧
      1 + callsPending (κ := Nat) now 1 = callsPending threads 1 := by
  obtain ⟨tr, now, h⟩ := follows_rivalry
  obtain ⟨threads, htr, hcalls, -, -⟩ := calls_after_removal isOperation_rival
    isOperation_rivalry h (by decide) (by decide)
  exact ⟨tr, now.2, threads, htr, by decide, hcalls⟩

/-- It is not so that a callback is no longer called once its last registration has been taken away
and it is not added again. -/
theorem removed_still_called :
    ¬ ∀ (body : Nat → List (Action Nat)) (programs : List (List (Action Nat)))
      (tr since : List (Scene Nat × Task Nat)) (scene : Scene Nat) (k : Nat)
      (now : Standing Nat), (∀ k, ∀ a ∈ body k, a.IsOperation) →
      (∀ p ∈ programs, ∀ a ∈ p, a.IsOperation) →
      Follows body (starting none programs) (tr ++ (scene, .act (.remove k)) :: since) now →
      scene.state.callbacks.count k = 1 → .act (.add k) ∉ since.map Prod.snd →
      .call k ∉ since.map Prod.snd := by
  intro h
  obtain ⟨tr, now, hfollows⟩ := follows_rivalry
  exact h rival rivalry tr _ rivalScene 1 now isOperation_rival isOperation_rivalry hfollows
    (by decide) (by decide) List.mem_cons_self

end CommandRelay.Cancellation
