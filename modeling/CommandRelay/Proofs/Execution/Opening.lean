import CommandRelay.Execution.Redirects
import CommandRelay.Proofs.Relay.Stir

/-!
# Effects of redirect files

Opening the targets of a command has two kinds of effects: a target of the command is opened, if
redirection is allowed, and a file is closed again. `openTargets_opens` says so, and that the disk
stays as it is if nothing was opened, and `opened_of_openTargets` that all targets are open if no
failure comes of it. Closing files only closes.
-/

namespace CommandRelay

/-- A path that a command redirects one of its channels to. -/
def Command.IsTarget (c : Command) (path : Text) : Prop :=
  path ≠ [] ∧ (path = c.stdoutTarget ∨ path = c.stderrTarget)

/-- The effect of closing a file. -/
def Effect.IsClosed (e : Effect) : Prop :=
  ∃ path, e = .closed path

/-- The effect of opening a target of a command. -/
def Effect.OpensTarget (c : Command) (e : Effect) : Prop :=
  ∃ path, e = .opened path ∧ c.IsTarget path

namespace Redirects

/-! ## Closing -/

/-- A session that has closed files since. -/
structure Closes (s s' : Session) : Prop where
  effects : s.Grows Effect.IsClosed s'
  cancellation : s'.cancellation = s.cancellation

variable {s s' s'' : Session} {faults : FileFaults} {c : Command}
  {allowed : Bool}

theorem Closes.refl (s : Session) : Closes s s :=
  ⟨.refl s, rfl⟩

theorem Closes.trans (h : Closes s s') (h' : Closes s' s'') : Closes s s'' :=
  ⟨h.effects.trans h'.effects, h'.cancellation.trans h.cancellation⟩

theorem closeSink_closes (faults : FileFaults) (s : Session) (i : Nat) :
    Closes s (closeSink faults s i).1 := by
  unfold closeSink
  split
  · rename_i w hw
    have h : Closes s ({ s with outlets := (s.outlets.close i).1 }.emit (.closed w.path)) :=
      ⟨⟨[.closed w.path], rfl, fun _ he => ⟨w.path, List.mem_singleton.mp he⟩⟩, rfl⟩
    simp only
    split <;> exact h
  · exact .refl s

theorem closeSinks_closes (faults : FileFaults) (s : Session) (is : List Nat) :
    Closes s (closeSinks faults s is).1 := by
  induction is generalizing s with
  | nil => exact .refl s
  | cons i rest ih => exact (closeSink_closes faults s i).trans (ih _)

/-- Noting the errors of closing changes nothing but the lines. -/
theorem noted_keeps (errors : List Text) (s : Session) :
    let noted := errors.foldl (fun s e => s.note .error ("Échec de fermeture : " ++ e)) s
    noted.outlets = s.outlets ∧ noted.effects = s.effects ∧
      noted.cancellation = s.cancellation := by
  induction errors generalizing s with
  | nil => exact ⟨rfl, rfl, rfl⟩
  | cons e rest ih => exact ih (s.note .error ("Échec de fermeture : " ++ e))

theorem noted_closes (errors : List Text) (s : Session) :
    Closes s
      (errors.foldl (fun s e => s.note .error ("Échec de fermeture : " ++ e)) s) := by
  obtain ⟨-, heffects, hcancellation⟩ := noted_keeps errors s
  exact ⟨.of_eq heffects, hcancellation⟩

theorem close_closes (faults : FileFaults) (files : Redirects) (s : Session) :
    Closes s (files.close faults s).1 :=
  (closeSinks_closes faults s files.sinks).trans (noted_closes _ _)

/-- If there are no files, closing them does nothing. -/
theorem close_of_sinks_eq_nil {files : Redirects} (h : files.sinks = []) (s : Session) :
    files.close faults s = (s, []) := by
  simp [close, h, closeSinks]

/-! ## Opening -/

/-- A session that has had some further effects since, which open targets of a command and close
files again. -/
structure Opens (c : Command) (s s' : Session) (more : List Effect) : Prop where
  effects : s'.effects = s.effects ++ more
  only : ∀ e ∈ more, e.OpensTarget c ∨ e.IsClosed
  cancellation : s'.cancellation = s.cancellation
  disk : (∀ path, .opened path ∉ more) → s'.outlets.disk = s.outlets.disk

variable {more more' : List Effect}

theorem Opens.trans (h : Opens c s s' more) (h' : Opens c s' s'' more') :
    Opens c s s'' (more ++ more') where
  effects := by rw [h'.effects, h.effects, List.append_assoc]
  only := fun e he => by
    rcases List.mem_append.mp he with he | he
    · exact h.only e he
    · exact h'.only e he
  cancellation := h'.cancellation.trans h.cancellation
  disk := fun hno => by
    rw [h'.disk fun path hp => hno path (List.mem_append_right _ hp),
      h.disk fun path hp => hno path (List.mem_append_left _ hp)]

theorem opens_of_eq (he : s'.effects = s.effects) (hc : s'.cancellation = s.cancellation)
    (hd : s'.outlets.disk = s.outlets.disk) : Opens c s s' [] where
  effects := by rw [he, List.append_nil]
  only := fun e he => absurd he List.not_mem_nil
  cancellation := hc
  disk := fun _ => hd

/-- Files can only be closed once one has been opened. -/
theorem Opens.close {path : Text} (h : Opens c s s' more) (hp : .opened path ∈ more)
    (h' : Closes s' s'') : ∃ more', Opens c s s'' more' := by
  obtain ⟨closed, he, hc⟩ := h'.effects
  refine ⟨more ++ closed, ⟨by rw [he, h.effects, List.append_assoc], fun e hmem => ?_,
    h'.cancellation.trans h.cancellation, fun hno => ?_⟩⟩
  · rcases List.mem_append.mp hmem with hmem | hmem
    · exact h.only e hmem
    · exact .inr (hc e hmem)
  · exact absurd (List.mem_append_left _ hp) (hno path)

/-- To open a target either opens that and nothing else, or does nothing. -/
theorem openTarget_opens {path : Text} (hp : c.IsTarget path) (s : Session) :
    (∃ s' i, openTarget faults path s = (s', .ok i) ∧ Opens c s s' [.opened path]) ∨
      ∃ s' f, openTarget faults path s = (s', .error f) ∧ Opens c s s' [] := by
  unfold openTarget
  rcases Writer.openFile s.outlets.disk path with fault | ⟨disk, w⟩
  · right
    cases fault with
    | system e => exact ⟨_, _, rfl, opens_of_eq rfl rfl rfl⟩
    | unencodable | invalid | endless | unsupported => exact ⟨_, _, rfl, opens_of_eq rfl rfl rfl⟩
  · left
    refine ⟨_, _, rfl, rfl, fun e he => .inl ⟨path, List.mem_singleton.mp he, hp⟩, rfl,
      fun hno => ?_⟩
    exact absurd List.mem_cons_self (hno path)

/-- Every target of a command is open, and no file goes without an open target. -/
structure AllOpen (c : Command) (more : List Effect) (files : Redirects) : Prop where
  targets : ∀ path, c.IsTarget path → .opened path ∈ more
  files : files.sinks = [] ∨ ∃ path, .opened path ∈ more

/-- What has been opened before the target of the error channel is the target of the output
channel, if there is one. -/
def FirstOpen (c : Command) (more : List Effect) (first : Redirects) : Prop :=
  (c.stdoutTarget = [] ∧ first = {}) ∨ .opened c.stdoutTarget ∈ more

theorem FirstOpen.mem {first : Redirects} {path : Text} (h : FirstOpen c more first)
    (hp : path ≠ []) (heq : path = c.stdoutTarget) : .opened path ∈ more := by
  rcases h with ⟨hnone, -⟩ | hmem
  · exact absurd (heq.trans hnone) hp
  · rwa [heq]

/-- A target of the error channel that is another one is opened, or the first file is closed
again. -/
theorem openOther_opens (faults : FileFaults) {s₀ : Session} {first : Redirects}
    (h : Opens c s₀ s more) (hfirst : FirstOpen c more first) (herr : c.stderrTarget ≠ [])
    (hother : c.stderrTarget ≠ c.stdoutTarget) :
    ∃ more', Opens c s₀ (openSecond faults c first s).1 more' ∧
      ∀ files, (openSecond faults c first s).2 = .ok files → AllOpen c more' files := by
  rw [openSecond, if_neg herr, if_neg hother]
  rcases openTarget_opens ⟨herr, .inr rfl⟩ s with ⟨s₁, i, heq, ho⟩ | ⟨s₁, f, heq, ho⟩ <;> rw [heq]
  · have hlast : .opened c.stderrTarget ∈ more ++ [.opened c.stderrTarget] :=
      List.mem_append_right _ List.mem_cons_self
    refine ⟨_, h.trans ho, fun files _ => ⟨fun path hp => ?_, .inr ⟨_, hlast⟩⟩⟩
    rcases hp.2 with heq | heq
    · exact List.mem_append_left _ (hfirst.mem hp.1 heq)
    · rwa [heq]
  · have hback := h.trans ho
    cases f with
    | access fault => exact ⟨_, hback, fun files hfiles => nomatch hfiles⟩
    | _ =>
        rcases hfirst with ⟨-, rfl⟩ | hmem
        · exact ⟨_, hback, fun files hfiles => nomatch hfiles⟩
        · obtain ⟨more', hclosed⟩ :=
            hback.close (List.mem_append_left _ hmem) (close_closes faults first _)
          exact ⟨more', hclosed, fun files hfiles => nomatch hfiles⟩

/-- The target of the error channel is opened last: all targets are open after that, or the first
file is closed again. -/
theorem openSecond_opens (faults : FileFaults) {s₀ : Session} {first : Redirects}
    (h : Opens c s₀ s more) (hfirst : FirstOpen c more first) :
    ∃ more', Opens c s₀ (openSecond faults c first s).1 more' ∧
      ∀ files, (openSecond faults c first s).2 = .ok files → AllOpen c more' files := by
  by_cases herr : c.stderrTarget = []
  · rw [openSecond, if_pos herr]
    refine ⟨more, h, fun files hfiles => ⟨fun path hp => ?_, ?_⟩⟩
    · rcases hp.2 with heq | heq
      · exact hfirst.mem hp.1 heq
      · exact absurd (heq.trans herr) hp.1
    · obtain rfl := Except.ok.inj hfiles
      rcases hfirst with ⟨-, rfl⟩ | hmem
      · exact .inl rfl
      · exact .inr ⟨_, hmem⟩
  · by_cases hsame : c.stderrTarget = c.stdoutTarget
    · rw [openSecond, if_neg herr, if_pos hsame]
      have hmem := hfirst.mem herr hsame
      refine ⟨more, h, fun files hfiles => ⟨fun path hp => ?_, .inr ⟨_, hmem⟩⟩⟩
      rcases hp.2 with heq | heq
      · exact hfirst.mem hp.1 heq
      · rwa [heq]
    · exact openOther_opens faults h hfirst herr hsame

/-- Only targets are opened, only if redirection is allowed, and all of them are open if no
failure comes of it. -/
theorem openTargets_opens (allowed : Bool) (faults : FileFaults) (c : Command)
    (s : Session) :
    ∃ more, Opens c s (openTargets allowed faults c s).1 more ∧
      (∀ path, .opened path ∈ more → allowed = true) ∧
      ∀ files, (openTargets allowed faults c s).2 = .ok files →
        (allowed = true → ∀ path, c.IsTarget path → .opened path ∈ more) ∧
          (files.sinks = [] ∨ ∃ path, .opened path ∈ more) := by
  unfold openTargets
  split
  · rename_i hnone
    refine ⟨[], opens_of_eq rfl rfl rfl, fun _ hp => absurd hp List.not_mem_nil,
      fun files hfiles => ⟨fun _ path hp => ?_, .inl ?_⟩⟩
    · rcases hp.2 with heq | heq
      · exact absurd (heq.trans hnone.1) hp.1
      · exact absurd (heq.trans hnone.2) hp.1
    · obtain rfl := Except.ok.inj hfiles
      rfl
  · cases allowed with
    | false =>
        refine ⟨[], opens_of_eq rfl rfl rfl, fun _ hp => absurd hp List.not_mem_nil,
          fun files hfiles => ⟨fun hno => (Bool.false_ne_true hno).elim, .inl ?_⟩⟩
        obtain rfl := Except.ok.inj hfiles
        rfl
    | true =>
        simp only [Bool.not_true, Bool.false_eq_true, ↓reduceIte]
        split
        · rename_i hout
          have hnothing : Opens c s s [] := opens_of_eq rfl rfl rfl
          obtain ⟨more, ho, hok⟩ := openSecond_opens faults hnothing (.inl ⟨hout, rfl⟩)
          exact ⟨more, ho, fun _ _ => trivial, fun files hf =>
            ⟨fun _ => (hok files hf).targets, (hok files hf).files⟩⟩
        · rename_i hout
          have htarget : c.IsTarget c.stdoutTarget := ⟨hout, .inl rfl⟩
          rcases openTarget_opens htarget s with ⟨s₁, i, heq, ho⟩ | ⟨s₁, f, heq, ho⟩
          · rw [heq]
            obtain ⟨more, ho', hok⟩ := openSecond_opens faults ho (.inr List.mem_cons_self)
            exact ⟨more, ho', fun _ _ => trivial, fun files hf =>
              ⟨fun _ => (hok files hf).targets, (hok files hf).files⟩⟩
          · rw [heq]
            exact ⟨[], ho, fun _ _ => trivial, fun files hfiles => nomatch hfiles⟩

end Redirects

end CommandRelay
