import CommandRelay.Cancellation.Program
import Mathlib.Logic.Relation

/-!
# Schedules of threads on a cancellation

Threads that run operations of one cancellation take turns at the grain of `Step`. A schedule is
remembered by the tasks that were taken, each with the scene that it met: `Follows`. Schedules lead
to what is reachable by steps and to nothing else (`exists_follows_iff`).

A deadline that comes due asks for the cancellation in a thread of its own. It is one more thread
whose program is a request to cancel.
-/

namespace CommandRelay.Cancellation

variable {κ : Type}

/-! ## Operations -/

/-- An operation that does not wait and raises nothing. -/
def Action.IsOperation : Action κ → Prop
  | .cancel _ | .add _ | .remove _ | .close => True
  | .wait _ | .raise _ => False

/-- A task that comes from a program of operations. -/
def Task.IsPlain : Task κ → Prop
  | .act a => a.IsOperation
  | .call _ => True
  | .shield => False

/-- Where threads stand: the scene that they share, and their stacks. -/
abbrev Standing (κ : Type) := Scene κ × List (List (Task κ))

/-- Threads that are about to run programs on a cancellation that has just been made. -/
def starting (deadline : Deadline) (programs : List (List (Action κ))) : Standing κ :=
  ({ deadline }, programs.map (·.map .act))

/-- A standing whose threads have only plain tasks to do. -/
def Standing.IsPlain (now : Standing κ) : Prop :=
  ∀ stack ∈ now.2, ∀ t ∈ stack, t.IsPlain

theorem isPlain_starting {programs : List (List (Action κ))} (deadline : Deadline)
    (hprograms : ∀ p ∈ programs, ∀ a ∈ p, a.IsOperation) :
    (starting deadline programs).IsPlain := by
  intro stack hstack t ht
  obtain ⟨p, hp, rfl⟩ := List.mem_map.mp hstack
  obtain ⟨a, ha, rfl⟩ := List.mem_map.mp ht
  exact hprograms p hp a ha

/-- One stack among others is plain, and so are the others. -/
theorem isPlain_iff {scene : Scene κ} {before after : List (List (Task κ))}
    {stack : List (Task κ)} :
    Standing.IsPlain (scene, before ++ stack :: after) ↔
      (∀ t ∈ stack, t.IsPlain) ∧ ∀ other ∈ before ++ after, ∀ t ∈ other, t.IsPlain := by
  simp only [Standing.IsPlain, List.mem_append, List.mem_cons]
  constructor
  · intro h
    exact ⟨h stack (.inr (.inl rfl)), fun other hmem => h other (hmem.imp_right .inr)⟩
  · rintro ⟨hstack, hothers⟩ other (hmem | rfl | hmem)
    · exact hothers other (.inl hmem)
    · exact hstack
    · exact hothers other (.inr hmem)

variable [DecidableEq κ] {body : κ → List (Action κ)} {scene : Scene κ} {t : Task κ}

/-- What a task does: the scene afterwards, and the tasks that come in its place. -/
def Task.perform (body : κ → List (Action κ)) (scene : Scene κ) :
    Task κ → Scene κ × List (Task κ)
  | .act a => ((a.run scene).1, (a.run scene).2.1)
  | .call k => ({ scene with called := scene.called ++ [k] }, (body k).map .act)
  | .shield => (scene, [])

/-- A step with a plain task does what the task does, and leaves the rest of the stack alone. -/
theorem step_of_isPlain (body : κ → List (Action κ)) (scene : Scene κ) (h : t.IsPlain)
    (rest : List (Task κ)) :
    (step body scene (t :: rest)).1 = (t.perform body scene).1 ∧
      (step body scene (t :: rest)).2.1 = (t.perform body scene).2 ++ rest := by
  cases t with
  | shield => exact h.elim
  | call k => exact ⟨rfl, rfl⟩
  | act a =>
      cases a with
      | wait | raise => exact h.elim
      | cancel | add | remove | close => exact ⟨rfl, rfl⟩

/-- A plain task brings in plain tasks. -/
theorem isPlain_of_mem_perform (hbody : ∀ k, ∀ a ∈ body k, a.IsOperation) (h : t.IsPlain) :
    ∀ t' ∈ (t.perform body scene).2, t'.IsPlain := by
  have hcalls (ks : List κ) : ∀ t' ∈ ks.map Task.call, t'.IsPlain := by
    rintro t' ht'
    obtain ⟨k, -, rfl⟩ := List.mem_map.mp ht'
    trivial
  cases t with
  | shield => exact h.elim
  | call k =>
      rintro t' ht'
      obtain ⟨a, ha, rfl⟩ := List.mem_map.mp ht'
      exact hbody k a ha
  | act a =>
      cases a with
      | wait | raise => exact h.elim
      | cancel | add => exact hcalls _
      | remove | close => exact nofun

/-! ## Schedules -/

/-- A schedule: the tasks that have been taken, each with the scene that it met, and where that
leads. -/
inductive Follows (body : κ → List (Action κ)) (start : Standing κ) :
    List (Scene κ × Task κ) → Standing κ → Prop
  | start : Follows body start [] start
  | step {tr scene t rest} (before after : List (List (Task κ)))
      (h : Follows body start tr (scene, before ++ (t :: rest) :: after)) :
      Follows body start (tr ++ [(scene, t)])
        ((step body scene (t :: rest)).1,
          before ++ (step body scene (t :: rest)).2.1 :: after)

variable {start now : Standing κ} {tr : List (Scene κ × Task κ)}

/-- Schedules lead to what is reachable by steps. -/
theorem exists_follows_iff :
    (∃ tr, Follows body start tr now) ↔ Relation.ReflTransGen (Step body) start now := by
  constructor
  · rintro ⟨tr, h⟩
    induction h with
    | start => exact .refl
    | step _ _ _ ih => exact ih.tail (.thread ..)
  · intro h
    induction h with
    | refl => exact ⟨[], .start⟩
    | tail _ hstep ih =>
        obtain ⟨tr, h⟩ := ih
        cases hstep with
        | thread => exact ⟨_, h.step _ _⟩

theorem Follows.isPlain (h : Follows body start tr now)
    (hbody : ∀ k, ∀ a ∈ body k, a.IsOperation) (hstart : start.IsPlain) : now.IsPlain := by
  induction h with
  | start => exact hstart
  | @step _ _ t rest _ _ _ ih =>
      obtain ⟨hstack, hothers⟩ := isPlain_iff.mp ih
      have ht : t.IsPlain := hstack t List.mem_cons_self
      refine isPlain_iff.mpr ⟨?_, hothers⟩
      rw [(step_of_isPlain body _ ht rest).2]
      intro t' ht'
      rcases List.mem_append.mp ht' with hnew | hrest
      · exact isPlain_of_mem_perform hbody ht t' hnew
      · exact hstack t' (List.mem_cons_of_mem t hrest)

/-- A schedule goes on with a plain task. -/
theorem Follows.perform {before after : List (List (Task κ))} {rest : List (Task κ)}
    (h : Follows body start tr (scene, before ++ (t :: rest) :: after)) (ht : t.IsPlain) :
    Follows body start (tr ++ [(scene, t)]) ((t.perform body scene).1,
      before ++ ((t.perform body scene).2 ++ rest) :: after) := by
  obtain ⟨hscene, hstack⟩ := step_of_isPlain body scene ht rest
  have hnext := h.step before after
  rwa [hscene, hstack] at hnext

/-- In a schedule of plain tasks, every step does what its task does. -/
theorem Follows.induction_plain {motive : List (Scene κ × Task κ) → Standing κ → Prop}
    (h : Follows body start tr now) (hbody : ∀ k, ∀ a ∈ body k, a.IsOperation)
    (hstart : start.IsPlain) (hnil : motive [] start)
    (hstep : ∀ {tr scene before after t rest}, t.IsPlain →
      motive tr (scene, before ++ (t :: rest) :: after) →
      motive (tr ++ [(scene, t)]) ((t.perform body scene).1,
        before ++ ((t.perform body scene).2 ++ rest) :: after)) :
    motive tr now := by
  induction h with
  | start => exact hnil
  | @step _ scene t rest _ _ h ih =>
      have ht : t.IsPlain := (isPlain_iff.mp (h.isPlain hbody hstart)).1 t List.mem_cons_self
      obtain ⟨hscene, hstack⟩ := step_of_isPlain body scene ht rest
      rw [hscene, hstack]
      exact hstep ht ih

end CommandRelay.Cancellation
