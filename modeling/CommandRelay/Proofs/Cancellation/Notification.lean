import CommandRelay.Proofs.Cancellation.Schedules
import Mathlib.Data.List.Count

/-!
# Notification

Until a cancellation is asked for, no callback is called, and the registered ones are what adding
and removing has left (`Quiet`). The first request fixes the registrations that are notified. From
then on, the calls that have been made and those that are still to be made balance with these
registrations and the callbacks that are added later (`Notifying`). A schedule is in one of the two
phases (`Follows.phase`), so when all threads are done, each registration has been notified once
(`Notifying.count_called`).
-/

namespace CommandRelay.Cancellation

variable {κ : Type} [DecidableEq κ]

/-! ## Registrations -/

/-- What a task does to the registrations of a cancellation that has not happened. -/
def Task.register (registrations : List κ) : Task κ → List κ
  | .act (.add k) => registrations ++ [k]
  | .act (.remove k) => registrations.erase k
  | _ => registrations

/-- The registrations that tasks leave, taken in order. -/
def registered (ts : List (Task κ)) : List κ :=
  ts.foldl Task.register []

theorem registered_append_singleton (ts : List (Task κ)) (t : Task κ) :
    registered (ts ++ [t]) = t.register (registered ts) := by
  rw [registered, List.foldl_append]
  rfl

/-- The calls of a callback that are still to be made. -/
def callsPending (threads : List (List (Task κ))) (k : κ) : Nat :=
  threads.flatten.count (.call k)

/-- A task gives way to others at the top of its stack. -/
theorem callsPending_replaced (before after : List (List (Task κ))) (t : Task κ)
    (added rest : List (Task κ)) (k : κ) :
    callsPending (before ++ (added ++ rest) :: after) k + (if t = .call k then 1 else 0) =
      callsPending (before ++ (t :: rest) :: after) k + added.count (.call k) := by
  simp only [callsPending, List.flatten_append, List.flatten_cons, List.count_append,
    List.count_cons, beq_iff_eq]
  omega

theorem count_map_call (ks : List κ) (k : κ) : (ks.map Task.call).count (.call k) = ks.count k :=
  List.count_map_of_injective ks Task.call (fun _ _ h => Task.call.inj h) k

theorem count_map_act (as : List (Action κ)) (k : κ) : (as.map Task.act).count (.call k) = 0 := by
  rw [List.count_eq_zero]
  intro hmem
  obtain ⟨a, -, ha⟩ := List.mem_map.mp hmem
  cases ha

/-! ## Phases -/

/-- Nobody has asked for the cancellation: no callback has been called or is about to be, and the
registered ones are what the tasks so far have left. -/
structure Quiet (tr : List (Scene κ × Task κ)) (now : Standing κ) : Prop where
  fired : now.1.state.fired = false
  called : now.1.called = []
  callbacks : now.1.state.callbacks = registered (tr.map Prod.snd)
  pending : ∀ k, callsPending now.2 k = 0
  met : ∀ e ∈ tr, e.1.state.fired = false ∧ ∀ k, e.2 ≠ .call k

/-- The first request has met a scene, and tasks have been taken since: the calls that have been
made and that are to be made are those of the callbacks that were registered then and of the ones
that have been added since. -/
structure Notifying (first : Scene κ) (since : List (Scene κ × Task κ)) (now : Standing κ) :
    Prop where
  fired : now.1.state.fired = true
  met : ∀ e ∈ since, e.1.state.fired = true
  balance : ∀ k, now.1.called.count k + callsPending now.2 k =
    first.state.callbacks.count k + (since.map Prod.snd).count (.act (.add k))

/-- The phase of a schedule: nobody has asked for the cancellation, or there is a first request. -/
inductive Phase : List (Scene κ × Task κ) → Standing κ → Prop
  | quiet {tr now} (h : Quiet tr now) : Phase tr now
  | notifying {before first threads reason since now} (hbefore : Quiet before (first, threads))
      (h : Notifying first since now) :
      Phase (before ++ (first, .act (.cancel reason)) :: since) now

variable {body : κ → List (Action κ)} {tr since : List (Scene κ × Task κ)} {scene first : Scene κ}
  {before after : List (List (Task κ))} {t : Task κ} {rest : List (Task κ)}

theorem quiet_starting (deadline : Deadline) (programs : List (List (Action κ))) :
    Quiet [] (starting deadline programs) where
  fired := rfl
  called := rfl
  callbacks := rfl
  pending := fun k => by
    rw [callsPending, List.count_eq_zero]
    intro hmem
    obtain ⟨stack, hstack, hcall⟩ := List.mem_flatten.mp hmem
    obtain ⟨p, -, rfl⟩ := List.mem_map.mp hstack
    obtain ⟨a, -, ha⟩ := List.mem_map.mp hcall
    cases ha
  met := nofun

/-- What an operation other than a request does before there is one. -/
theorem perform_of_quiet (body : κ → List (Action κ)) {a : Action κ} (ha : a.IsOperation)
    (hcancel : ∀ reason, a ≠ .cancel reason) (hfired : scene.state.fired = false) :
    ∃ scene', (Task.act a).perform body scene = (scene', []) ∧ scene'.state.fired = false ∧
      scene'.called = scene.called ∧
      scene'.state.callbacks = (Task.act a).register scene.state.callbacks := by
  cases a with
  | wait | raise => exact ha.elim
  | cancel reason => exact absurd rfl (hcancel reason)
  | add k =>
      refine ⟨{ scene with state.callbacks := scene.state.callbacks ++ [k] }, ?_, hfired, rfl, rfl⟩
      simp [Task.perform, Action.run, add, hfired]
  | remove | close => exact ⟨_, rfl, hfired, rfl, rfl⟩

/-- An operation other than a request leaves the cancellation quiet. -/
theorem Quiet.act {a : Action κ} (h : Quiet tr (scene, before ++ (.act a :: rest) :: after))
    (ha : a.IsOperation) (hcancel : ∀ reason, a ≠ .cancel reason) :
    Quiet (tr ++ [(scene, .act a)]) (((Task.act a).perform body scene).1,
      before ++ (((Task.act a).perform body scene).2 ++ rest) :: after) := by
  obtain ⟨scene', hperform, hfired, hcalled, hcallbacks⟩ :=
    perform_of_quiet body ha hcancel h.fired
  rw [hperform]
  refine ⟨hfired, hcalled.trans h.called, ?_, fun k => ?_, ?_⟩
  · rw [List.map_append, List.map_singleton, registered_append_singleton, ← h.callbacks]
    exact hcallbacks
  · have hreplaced := callsPending_replaced before after (.act a) [] rest k
    have hpending := h.pending k
    rw [if_neg nofun, List.count_nil] at hreplaced
    exact hreplaced.trans hpending
  · intro e hmem
    rcases List.mem_append.mp hmem with hmem | hmem
    · exact h.met e hmem
    · obtain rfl := List.mem_singleton.mp hmem
      exact ⟨h.fired, nofun⟩

/-- No callback is called as long as the cancellation is quiet. -/
theorem Quiet.not_call {k : κ} (h : Quiet tr (scene, before ++ (.call k :: rest) :: after)) :
    False := by
  have hpending := h.pending k
  rw [callsPending, List.count_eq_zero] at hpending
  exact hpending (by simp)

/-- The first request has the registered callbacks called. -/
theorem Quiet.cancel {reason : Text}
    (h : Quiet tr (scene, before ++ (.act (.cancel reason) :: rest) :: after)) :
    Notifying scene [] (((Task.act (.cancel reason)).perform body scene).1,
      before ++ (((Task.act (.cancel reason)).perform body scene).2 ++ rest) :: after) := by
  have hfired : scene.state.fired = false := h.fired
  have hperform : (Task.act (.cancel reason)).perform body scene =
      ({ scene with state := { scene.state with reason := some reason, fired := true } },
        scene.state.callbacks.map .call) := by
    simp [Task.perform, Action.run, Cancellation.cancel, hfired]
  rw [hperform]
  refine ⟨rfl, nofun, fun k => ?_⟩
  have hcalled : scene.called = [] := h.called
  have hreplaced := callsPending_replaced before after (.act (.cancel reason))
    (scene.state.callbacks.map .call) rest k
  have hpending : callsPending (before ++ (.act (.cancel reason) :: rest) :: after) k = 0 :=
    h.pending k
  rw [if_neg nofun, count_map_call] at hreplaced
  simp only [hcalled, List.count_nil, List.map_nil]
  omega

/-- Once there has been a request, a task makes or brings in as many calls as it stands for. -/
theorem perform_of_fired (body : κ → List (Action κ)) (ht : t.IsPlain)
    (hfired : scene.state.fired = true) :
    (t.perform body scene).1.state.fired = true ∧ ∀ k,
      (t.perform body scene).1.called.count k + (t.perform body scene).2.count (.call k) =
        scene.called.count k + (if t = .call k then 1 else 0) +
          (if t = .act (.add k) then 1 else 0) := by
  cases t with
  | shield => exact ht.elim
  | call k' =>
      refine ⟨hfired, fun k => ?_⟩
      simp [Task.perform, count_map_act, List.count_singleton]
  | act a =>
      cases a with
      | wait | raise => exact ht.elim
      | cancel reason => simp [Task.perform, Action.run, Cancellation.cancel, hfired]
      | add k' => simp [Task.perform, Action.run, add, hfired, List.count_singleton]
      | remove | close => exact ⟨hfired, fun k => by simp [Task.perform, Action.run]⟩

/-- The balance is kept by every task. -/
theorem Notifying.perform (h : Notifying first since (scene, before ++ (t :: rest) :: after))
    (ht : t.IsPlain) :
    Notifying first (since ++ [(scene, t)]) ((t.perform body scene).1,
      before ++ ((t.perform body scene).2 ++ rest) :: after) := by
  obtain ⟨hfired, hcounts⟩ := perform_of_fired body ht (show scene.state.fired = true from h.fired)
  refine ⟨hfired, ?_, fun k => ?_⟩
  · intro e hmem
    rcases List.mem_append.mp hmem with hmem | hmem
    · exact h.met e hmem
    · obtain rfl := List.mem_singleton.mp hmem
      exact h.fired
  · have hbalance := h.balance k
    have hcount := hcounts k
    have hreplaced := callsPending_replaced before after t (t.perform body scene).2 rest k
    have hadded : ((since ++ [(scene, t)]).map Prod.snd).count (.act (.add k)) =
        (since.map Prod.snd).count (.act (.add k)) + if t = .act (.add k) then 1 else 0 := by
      simp [List.count_append, List.count_singleton]
    rw [hadded]
    simp only at hbalance ⊢
    omega

/-- Every schedule of operations is in one of the phases. -/
theorem Follows.phase {deadline : Deadline} {programs : List (List (Action κ))}
    {now : Standing κ} (h : Follows body (starting deadline programs) tr now)
    (hbody : ∀ k, ∀ a ∈ body k, a.IsOperation)
    (hprograms : ∀ p ∈ programs, ∀ a ∈ p, a.IsOperation) : Phase tr now := by
  refine h.induction_plain hbody (isPlain_starting deadline hprograms)
    (.quiet (quiet_starting deadline programs)) ?_
  intro tr scene before after t rest ht hphase
  cases hphase with
  | quiet hquiet =>
      cases t with
      | shield => exact ht.elim
      | call k => exact hquiet.not_call.elim
      | act a =>
          by_cases hcancel : ∃ reason, a = .cancel reason
          · obtain ⟨reason, rfl⟩ := hcancel
            exact .notifying hquiet hquiet.cancel
          · exact .quiet (hquiet.act ht fun reason heq => hcancel ⟨reason, heq⟩)
  | notifying hbefore hnow =>
      rw [List.append_assoc]
      exact .notifying hbefore (hnow.perform ht)

/-- When all threads are done, every registration has been notified once. -/
theorem Notifying.count_called {now : Standing κ} (h : Notifying first since now)
    (hdone : ∀ stack ∈ now.2, stack = []) (k : κ) :
    now.1.called.count k =
      first.state.callbacks.count k + (since.map Prod.snd).count (.act (.add k)) := by
  have hpending : callsPending now.2 k = 0 := by
    rw [callsPending, List.flatten_eq_nil_iff.mpr hdone, List.count_nil]
  rw [← h.balance k, hpending, Nat.add_zero]

end CommandRelay.Cancellation
