import CommandRelay.Proofs.Execution.FreshFiles
import CommandRelay.Proofs.Execution.OwnedFiles

/-!
# Targets that cannot be opened

The targets of a command are opened one after the other, and the first of them that cannot be opened
breaks that off. `Command.OpeningFails` says which target that is, why it cannot be opened, and what
disk is left. Opening the targets fails exactly like this (`Redirects.openTargets_of_openingFails`,
`Redirects.openingFails_of_openTargets`): the file that was opened first is closed again, which does
not bring back what it held.
-/

namespace CommandRelay

/-- What is raised for a fault: an error of the system becomes a failure of its own, and any other
fault goes through as it is. -/
def AccessFault.raised (named : SystemError → Failure) : AccessFault → Failure
  | .system e => named e
  | fault => .access fault

theorem AccessFault.raised_eq_access {named : SystemError → Failure} {fault : AccessFault}
    (h : ∀ e, fault ≠ .system e) : fault.raised named = .access fault := by
  cases fault with
  | system e => exact absurd rfl (h e)
  | unencodable | invalid | endless | unsupported => rfl

/-- The failure for a target that the system refuses to open. -/
def Failure.unopened (path : Text) (e : SystemError) : Failure :=
  .redirect path e.reason

/-- Opening the targets of a command breaks off at a path, for a fault, and leaves a disk: the one
that there was, or the one with the first target open. -/
inductive Command.OpeningFails (c : Command) (d : Disk) : Text → AccessFault → Disk → Prop
  | first {fault} (hset : c.stdoutTarget ≠ [])
      (h : Writer.openFile d c.stdoutTarget = .error fault) :
      OpeningFails c d c.stdoutTarget fault d
  | only {fault} (hnone : c.stdoutTarget = []) (hset : c.stderrTarget ≠ [])
      (h : Writer.openFile d c.stderrTarget = .error fault) :
      OpeningFails c d c.stderrTarget fault d
  | second {d' writer fault} (hfirst : c.stdoutTarget ≠ []) (hset : c.stderrTarget ≠ [])
      (hother : c.stderrTarget ≠ c.stdoutTarget)
      (hopened : Writer.openFile d c.stdoutTarget = .ok (d', writer))
      (h : Writer.openFile d' c.stderrTarget = .error fault) :
      OpeningFails c d c.stderrTarget fault d'

namespace Redirects

variable {s s' : Session} {faults : FileFaults} {c : Command} {path : Text}
  {fault : AccessFault} {d' : Disk}

/-! ## One target -/

theorem openTarget_of_openFile_error (faults : FileFaults)
    (h : Writer.openFile s.outlets.disk path = .error fault) :
    ∃ s', openTarget faults path s = (s', .error (fault.raised (.unopened path))) ∧
      s'.outlets = s.outlets := by
  unfold openTarget
  rw [h]
  cases fault with
  | system | unencodable | invalid | endless | unsupported => exact ⟨_, rfl, rfl⟩

theorem openTarget_of_openFile_ok (faults : FileFaults) {writer : Writer}
    (h : Writer.openFile s.outlets.disk path = .ok (d', writer)) :
    ∃ s' i, openTarget faults path s = (s', .ok i) ∧ s'.outlets.disk = d' := by
  unfold openTarget
  rw [h]
  exact ⟨_, _, rfl, rfl⟩

/-- Whether a target that cannot be opened is refused by the system depends on its path alone. -/
theorem exists_system_iff_of_openFile {d : Disk} (h : Writer.openFile d path = .error fault) :
    (∃ e, fault = .system e) ↔ Path.fault? path = none := by
  constructor
  · rintro ⟨e, rfl⟩
    cases hfault : Path.fault? path with
    | none => rfl
    | some fault =>
        obtain rfl := Except.error.inj ((openFile_of_fault hfault d).symm.trans h)
        exact absurd hfault (fault?_ne_system path e)
  · intro hnone
    refine (openFile_eq_error h).resolve_right fun hfault => ?_
    cases hnone.symm.trans hfault

/-! ## Closing what was opened first -/

/-- To close a file for which nothing waits leaves the disk as it is. -/
theorem disk_closeSink {i : Nat} (faults : FileFaults) (h : s.FreshFile faults i) :
    (closeSink faults s i).1.outlets.disk = s.outlets.disk := by
  obtain ⟨w, hw, -, hwaiting, -⟩ := h
  have hclose : (s.outlets.close i).1.disk = s.outlets.disk := by
    unfold Outlets.close
    rw [hw]
    exact (Outlets.close_of_waiting_eq_nil _ hwaiting).1
  unfold closeSink
  rw [hw]
  simp only
  split <;> exact hclose

theorem disk_close {first : Redirects} (faults : FileFaults)
    (hone : first.stderr = none) (hfresh : ∀ i, first.stdout = some i → s.FreshFile faults i) :
    (first.close faults s).1.outlets.disk = s.outlets.disk := by
  cases hout : first.stdout with
  | none =>
      have hsinks : first.sinks = [] := by simp [sinks, hone, hout]
      rw [close_of_sinks_eq_nil hsinks]
  | some i =>
      have hsinks : first.sinks = [i] := by simp [sinks, hone, hout]
      simp only [close, hsinks, closeSinks, (noted_keeps _ _).1]
      exact disk_closeSink faults (hfresh i hout)

/-! ## All targets -/

/-- If the target of the error channel cannot be opened, the disk is left as it is, whether or not
a file has been opened before it. -/
theorem openSecond_of_openFile_error (faults : FileFaults) (first : Redirects)
    (hset : c.stderrTarget ≠ []) (hother : c.stderrTarget ≠ c.stdoutTarget)
    (hone : first.stderr = none) (hfresh : ∀ i, first.stdout = some i → s.FreshFile faults i)
    (h : Writer.openFile s.outlets.disk c.stderrTarget = .error fault) :
    ∃ s', openSecond faults c first s =
        (s', .error (fault.raised (.unopened c.stderrTarget))) ∧
      s'.outlets.disk = s.outlets.disk := by
  obtain ⟨s₁, hopen, ho⟩ := openTarget_of_openFile_error faults h
  rw [openSecond, if_neg hset, if_neg hother, hopen]
  cases fault with
  | system e =>
      refine ⟨_, rfl, ?_⟩
      have hfresh₁ : ∀ i, first.stdout = some i → s₁.FreshFile faults i :=
        fun i hi => (hfresh i hi).of_eq ho
      rw [disk_close faults hone hfresh₁, ho]
  | unencodable | invalid | endless | unsupported => exact ⟨_, rfl, by rw [ho]⟩

/-- If a target cannot be opened, that is raised. -/
theorem openTargets_of_openingFails (faults : FileFaults)
    (h : c.OpeningFails s.outlets.disk path fault d') :
    ∃ s', openTargets true faults c s = (s', .error (fault.raised (.unopened path))) ∧
      s'.outlets.disk = d' := by
  cases h with
  | first hset h =>
      obtain ⟨s', hopen, ho⟩ := openTarget_of_openFile_error faults h
      exact ⟨s', by simp [openTargets, hset, hopen], by rw [ho]⟩
  | only hnone hset h =>
      obtain ⟨s', hopen, hd⟩ := openSecond_of_openFile_error faults {} hset (by rwa [hnone])
        rfl nofun h
      exact ⟨s', by simp [openTargets, hnone, hset, hopen], hd⟩
  | second hfirst hset hother hopened h =>
      obtain ⟨s₁, i, hopen₁, hd₁⟩ := openTarget_of_openFile_ok faults hopened
      have hfresh : ∀ j, some i = some j → s₁.FreshFile faults j := by
        rintro _ ⟨⟩
        exact (openTarget_fresh hopen₁).1
      obtain ⟨s', hopen, hd⟩ := openSecond_of_openFile_error faults { stdout := some i } hset
        hother rfl hfresh (hd₁ ▸ h)
      exact ⟨s', by simp [openTargets, hfirst, hopen₁, hopen], hd.trans hd₁⟩

/-- The target of the error channel is only not opened because it cannot be opened. -/
theorem openFile_of_openSecond {first : Redirects} {f : Failure}
    (h : openSecond faults c first s = (s', .error f)) :
    c.stderrTarget ≠ [] ∧ c.stderrTarget ≠ c.stdoutTarget ∧
      ∃ fault, Writer.openFile s.outlets.disk c.stderrTarget = .error fault := by
  unfold openSecond at h
  split at h
  · cases (Prod.mk.inj h).2
  · rename_i hset
    split at h
    · cases (Prod.mk.inj h).2
    · rename_i hother
      refine ⟨hset, hother, ?_⟩
      cases hopen : Writer.openFile s.outlets.disk c.stderrTarget with
      | error fault => exact ⟨fault, rfl⟩
      | ok opened =>
          obtain ⟨s₁, i, hok, -⟩ := openTarget_of_openFile_ok faults hopen
          rw [hok] at h
          cases (Prod.mk.inj h).2

/-- Opening the targets of a command fails only because one of them cannot be opened. -/
theorem openingFails_of_openTargets {allowed : Bool} {f : Failure}
    (h : openTargets allowed faults c s = (s', .error f)) :
    allowed = true ∧ ∃ path fault, c.OpeningFails s.outlets.disk path fault s'.outlets.disk ∧
      f = fault.raised (.unopened path) := by
  have hwhy : allowed = true ∧ ∃ path fault d', c.OpeningFails s.outlets.disk path fault d' := by
    have hopen := h
    unfold openTargets at hopen
    split at hopen
    · cases (Prod.mk.inj hopen).2
    · cases allowed with
      | false => cases (Prod.mk.inj hopen).2
      | true =>
          refine ⟨rfl, ?_⟩
          simp only [Bool.not_true, Bool.false_eq_true, ↓reduceIte] at hopen
          split at hopen
          · rename_i hnone
            obtain ⟨hset, -, fault, hfault⟩ := openFile_of_openSecond hopen
            exact ⟨_, fault, _, .only hnone hset hfault⟩
          · rename_i hfirst
            cases hout : Writer.openFile s.outlets.disk c.stdoutTarget with
            | error fault => exact ⟨_, fault, _, .first hfirst hout⟩
            | ok opened =>
                obtain ⟨s₁, i, hok, hd⟩ := openTarget_of_openFile_ok faults hout
                rw [hok] at hopen
                obtain ⟨hset, hother, fault, hfault⟩ := openFile_of_openSecond hopen
                exact ⟨_, fault, _, .second hfirst hset hother hout (hd ▸ hfault)⟩
  obtain ⟨rfl, path, fault, d', hfails⟩ := hwhy
  obtain ⟨s₁, hopen, hd⟩ := openTargets_of_openingFails faults hfails
  obtain ⟨rfl, hf⟩ := Prod.mk.inj (hopen.symm.trans h)
  exact ⟨rfl, path, fault, hd ▸ hfails, (Except.error.inj hf).symm⟩

end Redirects

/-- Only a path that the system cannot be given makes opening fail by another fault than one of the
system. -/
theorem Command.OpeningFails.exists_system_iff {c : Command} {d d' : Disk} {path : Text}
    {fault : AccessFault} (h : c.OpeningFails d path fault d') :
    (∃ e, fault = .system e) ↔ Path.fault? path = none := by
  cases h with
  | first _ h | only _ _ h | second _ _ _ _ h => exact Redirects.exists_system_iff_of_openFile h

end CommandRelay
