import CommandRelay.Proofs.Execution.Moments
import CommandRelay.Proofs.Relay.Stir
import CommandRelay.Proofs.Sink.FileContent

/-!
# Redirect files at the start of a child

When a child is started, the files that its output is redirected to are open and empty, and nothing
has been written to them: `Session.FreshFile`. Opening a second target, showing notices and starting
the child change nothing about that, so a relay begins with fresh files (`begin_eq_relaying`).
-/

namespace CommandRelay

/-! ## Opening files -/

namespace Disk

variable {d d' : Disk} {path : Text}

/-- What a path leads to is there under its names, or is not. -/
structure Tells (d : Disk) (l : Located) : Prop where
  node : ∀ names n, l = .node names n → d.node? names = some n
  vacant : ∀ names, l = .vacant names → d.node? names = none

theorem tells_outside : d.Tells .outside :=
  ⟨fun _ _ heq => (nomatch heq), fun _ heq => nomatch heq⟩

theorem tells_device (device : Device) : d.Tells (.device device) :=
  ⟨fun _ _ heq => (nomatch heq), fun _ heq => nomatch heq⟩

theorem tells_node {names : List Text} {n : Node} (h : d.node? names = some n) :
    d.Tells (.node names n) :=
  ⟨fun _ _ heq => by cases heq; exact h, fun _ heq => nomatch heq⟩

theorem tells_vacant {names : List Text} (h : d.node? names = none) : d.Tells (.vacant names) :=
  ⟨fun _ _ heq => (nomatch heq), fun _ heq => by cases heq; exact h⟩

theorem tells_of_follow {parts names : List Text} {l : Located}
    (h : d.follow path names parts = .ok l) : d.Tells l := by
  induction parts generalizing names with
  | nil =>
      rw [follow] at h
      split at h <;> rename_i hnode <;> obtain rfl := Except.ok.inj h
      · exact tells_node hnode
      · exact tells_vacant hnode
  | cons part rest ih =>
      rw [follow] at h
      split at h
      · split at h
        · exact ih h
        · split at h
          · split at h
            · split at h
              · obtain rfl := Except.ok.inj h
                exact tells_outside
              · cases h
            · exact ih h
          · split at h
            · cases h
            · exact ih h
      · cases h
      · cases h

/-- What there is under names from the root on: a device, a directory that was there from the start,
or what is kept under them. -/
inductive OuterNode (d : Disk) (names : List Text) : Located → Prop
  | device {device} (h : deviceAt? names = some device) : OuterNode d names (.device device)
  | outside : OuterNode d names .outside
  | node {n} (hdevice : deviceAt? names = none) (h : d.node? (fromRoot names) = some n) :
      OuterNode d names (.node (fromRoot names) n)

theorem outerNode_of_some {names : List Text} {l : Located} (h : d.outerNode? names = some l) :
    d.OuterNode names l := by
  unfold outerNode? at h
  split at h
  · rename_i hdevice
    obtain rfl := Option.some.inj h
    exact .device hdevice
  · rename_i hdevice
    split at h
    · obtain rfl := Option.some.inj h
      exact .outside
    · obtain ⟨n, hnode, rfl⟩ := Option.map_eq_some_iff.mp h
      exact .node hdevice hnode

theorem vacant_of_outerNode? {names : List Text} (h : d.outerNode? names = none) :
    deviceAt? names = none ∧ d.node? (fromRoot names) = none := by
  unfold outerNode? at h
  split at h
  · cases h
  · split at h
    · cases h
    · exact ⟨‹_›, Option.map_eq_none_iff.mp h⟩

/-- What an absolute path leads to: what there is under its names, or a vacant place. -/
inductive OuterPlace (d : Disk) (names : List Text) : Located → Prop
  | there {l} (h : d.OuterNode names l) : OuterPlace d names l
  | vacant (hdevice : deviceAt? names = none) (h : d.node? (fromRoot names) = none) :
      OuterPlace d names (.vacant (fromRoot names))

theorem outerPlace_of_followOuter {parts names : List Text} {l : Located}
    (h : d.followOuter path names parts = .ok l) :
    d.OuterPlace (outerNames names parts) l := by
  induction parts generalizing names with
  | nil =>
      rw [followOuter] at h
      obtain rfl := Except.ok.inj h
      cases hnode : d.outerNode? names with
      | some l => exact .there (outerNode_of_some hnode)
      | none =>
          obtain ⟨hdevice, hvacant⟩ := vacant_of_outerNode? hnode
          exact .vacant hdevice hvacant
  | cons part rest ih =>
      rw [followOuter] at h
      rw [outerNames]
      split at h
      · split at h
        · cases h
        by_cases hstay : part = [] ∨ part = "."
        · rw [if_pos hstay] at h ⊢
          exact ih h
        rw [if_neg hstay] at h ⊢
        by_cases hup : part = ".."
        · rw [if_pos hup] at h ⊢
          exact ih h
        rw [if_neg hup] at h ⊢
        split at h
        · cases h
        · exact ih h
      · cases h

theorem OuterPlace.tells {names : List Text} {l : Located} (h : d.OuterPlace names l) :
    d.Tells l := by
  cases h with
  | there h =>
      cases h with
      | device => exact tells_device _
      | outside => exact tells_outside
      | node _ hnode => exact tells_node hnode
  | vacant _ hvacant => exact tells_vacant hvacant

theorem tells_of_locate {l : Located} (h : d.locate path = .ok l) : d.Tells l := by
  unfold locate at h
  split at h
  · cases h
  · split at h
    · cases h
    · split at h
      · exact (outerPlace_of_followOuter h).tells
      · exact tells_of_follow h

theorem tells_of_locateForOutput {l : Located} (h : d.locateForOutput path = .ok l) :
    d.Tells l := by
  unfold locateForOutput at h
  split at h
  · exact tells_of_locate h
  · split at h <;> cases h

/-- A file that is empty. -/
def IsEmptyAt (d : Disk) (names : List Text) : Prop :=
  ∃ executable, d.node? names = some (.file [] executable)

/-- To put an empty file somewhere leaves no file that is empty with anything in it. -/
theorem IsEmptyAt.put {names names' : List Text} {executable : Bool}
    (h : d.IsEmptyAt names') : (d.put names (.file [] executable)).IsEmptyAt names' := by
  obtain ⟨executable', hnode⟩ := h
  by_cases heq : names' = names
  · subst heq
    exact ⟨executable, node?_put_self (ne_nil_of_node?_eq_file hnode)⟩
  · exact ⟨executable', (node?_put_of_ne heq).trans hnode⟩

theorem openForOutput_empties {place : Place}
    (h : d.openForOutput false path = .ok (d', place)) :
    (∀ names, place = .file names → d'.IsEmptyAt names) ∧
      ∀ names, d.IsEmptyAt names → d'.IsEmptyAt names := by
  unfold openForOutput at h
  split at h
  · cases h
  · split at h <;> rename_i hloc
    · cases h
    · cases h
    · cases h
    · rename_i names content executable
      obtain ⟨rfl, rfl⟩ := Prod.mk.inj (Except.ok.inj h)
      have hnode := (tells_of_locateForOutput hloc).node _ _ rfl
      refine ⟨fun names' heq => ?_, fun _ he => he.put⟩
      obtain rfl := Place.file.inj heq
      exact ⟨executable, node?_put_self (ne_nil_of_node?_eq_file hnode)⟩
    · rename_i names
      obtain ⟨rfl, rfl⟩ := Prod.mk.inj (Except.ok.inj h)
      have hnode := (tells_of_locateForOutput hloc).vacant _ rfl
      refine ⟨fun names' heq => ?_, fun _ he => he.put⟩
      obtain rfl := Place.file.inj heq
      refine ⟨false, node?_put_self ?_⟩
      rintro rfl
      cases hnode
    · obtain ⟨rfl, rfl⟩ := Prod.mk.inj (Except.ok.inj h)
      refine ⟨fun _ heq => ?_, fun _ => id⟩
      cases heq

end Disk

/-! ## Opening targets -/

/-- A sink that is a file which has just been opened: it is empty, nothing waits for it, and the
system refuses what it is set up to refuse. -/
def Session.FreshFile (s : Session) (faults : FileFaults) (i : Nat) : Prop :=
  ∃ w, s.outlets.sinks[i]? = some (.file w) ∧ w.offset = 0 ∧ w.waiting = [] ∧ w.closed = false ∧
    (∀ names, w.place = .file names → s.outlets.disk.IsEmptyAt names) ∧
    w.refusals = faults.refusalsOf w.path

namespace Session

variable {s s' : Session} {faults : FileFaults} {i : Nat}

theorem FreshFile.of_eq (h : s.FreshFile faults i) (ho : s'.outlets = s.outlets) :
    s'.FreshFile faults i := by
  unfold FreshFile
  rw [ho]
  exact h

/-- To show a text changes nothing but a console. -/
theorem FreshFile.display (h : s.FreshFile faults i) (k : Nat) (text : Text) :
    (s.display k text).1.FreshFile faults i := by
  obtain ⟨w, hw, hfresh⟩ := h
  unfold Session.display Outlets.display
  simp only
  split
  · rename_i c hc
    refine ⟨w, ?_, hfresh⟩
    have hne : k ≠ i := by
      rintro rfl
      cases hc.symm.trans hw
    exact (List.getElem?_set_ne hne).trans hw
  · exact ⟨w, hw, hfresh⟩

/-- What the system is set up to refuse of a file is planned for it when it is opened. -/
theorem FreshFile.exists_of_plans {e : SystemError} (h : s.FreshFile faults i)
    (hplans : s.outlets.Plans i e) : ∃ refusal ∈ faults.refusals, refusal.2.2 = e := by
  obtain ⟨w, hw, -, -, -, -, hrefusals⟩ := h
  obtain ⟨refusals, n, hplanned, hmem⟩ := hplans
  rw [Outlets.planned, List.getElem?_map, hw] at hplanned
  obtain rfl := Option.some.inj hplanned
  rw [Sink.planned, hrefusals, FileFaults.refusalsOf] at hmem
  obtain ⟨refusal, hfound, heq⟩ := List.mem_map.mp hmem
  exact ⟨refusal, (List.mem_filter.mp hfound).1, by rw [heq]⟩

end Session

namespace Redirects

variable {s s' : Session} {c : Command} {faults : FileFaults}

/-- The files of a run, one for each channel at most. -/
def IsFile (files : Redirects) (i : Nat) : Prop :=
  files.stdout = some i ∨ files.stderr = some i

/-- A writer that has opened a file has written nothing. -/
theorem eq_of_openFile {d d' : Disk} {path : Text} {w : Writer}
    (h : Writer.openFile d path = .ok (d', w)) :
    ∃ place, d.openForOutput false path = .ok (d', place) ∧ w = { path, place } := by
  unfold Writer.openFile at h
  rcases hout : d.openForOutput false path with fault | ⟨d₁, place⟩
  · rw [hout] at h
    cases h
  · rw [hout] at h
    obtain ⟨rfl, rfl⟩ := Prod.mk.inj (Except.ok.inj h)
    exact ⟨place, rfl, rfl⟩

/-- The sink of an opened file is new. -/
theorem openTarget_number {path : Text} {i : Nat} (h : openTarget faults path s = (s', .ok i)) :
    i = s.outlets.sinks.length ∧ i < s'.outlets.sinks.length := by
  unfold openTarget at h
  split at h
  · obtain ⟨rfl, hi⟩ := Prod.mk.inj h
    obtain rfl := Except.ok.inj hi
    refine ⟨rfl, ?_⟩
    simp [Session.emit]
  · cases (Prod.mk.inj h).2
  · cases (Prod.mk.inj h).2

theorem openTarget_fresh {path : Text} {i : Nat} (h : openTarget faults path s = (s', .ok i)) :
    s'.FreshFile faults i ∧ ∀ j, s.FreshFile faults j → s'.FreshFile faults j := by
  unfold openTarget at h
  rcases hopen : Writer.openFile s.outlets.disk path with fault | ⟨disk, w⟩
  · rw [hopen] at h
    cases fault <;> cases (Prod.mk.inj h).2
  · rw [hopen] at h
    obtain ⟨rfl, hi⟩ := Prod.mk.inj h
    obtain rfl := Except.ok.inj hi
    obtain ⟨place, hout, rfl⟩ := eq_of_openFile hopen
    obtain ⟨hnew, hold⟩ := Disk.openForOutput_empties hout
    refine ⟨⟨_, List.getElem?_concat_length, rfl, rfl, rfl, hnew, rfl⟩, fun j hj => ?_⟩
    obtain ⟨w, hw, h0, hwait, hclosed, hempty, hrefusals⟩ := hj
    refine ⟨w, ?_, h0, hwait, hclosed, fun names hp => hold names (hempty names hp), hrefusals⟩
    exact (List.getElem?_append_left (List.getElem?_eq_some_iff.mp hw).1).trans hw

theorem openSecond_fresh {first files : Redirects} {n : Nat}
    (hfirst : ∀ i, first.IsFile i → s.FreshFile faults i ∧ n ≤ i) (hn : n ≤ s.outlets.sinks.length)
    (h : openSecond faults c first s = (s', .ok files)) (i : Nat) (hi : files.IsFile i) :
    s'.FreshFile faults i ∧ n ≤ i := by
  unfold openSecond at h
  split at h
  · obtain ⟨rfl, hf⟩ := Prod.mk.inj h
    obtain rfl := Except.ok.inj hf
    exact hfirst i hi
  · split at h
    · obtain ⟨rfl, hf⟩ := Prod.mk.inj h
      obtain rfl := Except.ok.inj hf
      exact hfirst i (hi.elim .inl .inl)
    · rcases ho : openTarget faults c.stderrTarget s with ⟨s₁, f | k⟩
      · rw [ho] at h
        cases f <;> cases (Prod.mk.inj h).2
      · rw [ho] at h
        obtain ⟨rfl, hf⟩ := Prod.mk.inj h
        obtain rfl := Except.ok.inj hf
        obtain ⟨hnew, hold⟩ := openTarget_fresh ho
        rcases hi with hi | hi
        · obtain ⟨hfresh, hle⟩ := hfirst i (.inl hi)
          exact ⟨hold i hfresh, hle⟩
        · rw [← Option.some.inj hi]
          exact ⟨hnew, (openTarget_number ho).1 ▸ hn⟩

/-- The files of a command are fresh once all of them are open, and their sinks are new. -/
theorem openTargets_fresh {allowed : Bool} {files : Redirects}
    (h : openTargets allowed faults c s = (s', .ok files)) (i : Nat) (hi : files.IsFile i) :
    s'.FreshFile faults i ∧ s.outlets.sinks.length ≤ i := by
  have hnone (k : Nat) : ¬ IsFile {} k := fun hk => hk.elim (fun h => nomatch h) fun h => nomatch h
  unfold openTargets at h
  split at h
  · obtain ⟨rfl, hf⟩ := Prod.mk.inj h
    obtain rfl := Except.ok.inj hf
    exact absurd hi (hnone i)
  · split at h
    · obtain ⟨rfl, hf⟩ := Prod.mk.inj h
      obtain rfl := Except.ok.inj hf
      exact absurd hi (hnone i)
    · split at h
      · exact openSecond_fresh (fun k hk => absurd hk (hnone k)) (Nat.le_refl _) h i hi
      · rcases ho : openTarget faults c.stdoutTarget s with ⟨s₁, f | k⟩
        · rw [ho] at h
          cases (Prod.mk.inj h).2
        · rw [ho] at h
          obtain ⟨hnumber, hlt⟩ := openTarget_number ho
          refine openSecond_fresh (fun j hj => ?_) (by omega) h i hi
          rcases hj with hj | hj
          · rw [← Option.some.inj hj]
            exact ⟨(openTarget_fresh ho).1, Nat.le_of_eq hnumber.symm⟩
          · cases hj

end Redirects

/-! ## The beginning of a run -/

namespace Run

variable (x : Executor) (options : RunOptions) (consoles : Consoles) (w : Surroundings)

theorem outlets_spawn {c : Command} {s s' : Session} {child : Child}
    (h : spawn x w c s = (s', .ok child)) : s'.outlets = s.outlets := by
  unfold spawn at h
  simp only at h
  split at h
  · obtain ⟨rfl, -⟩ := Prod.mk.inj h
    exact (Session.stirs_cancelIf _ w.whileSpawning).outlets
  · cases (Prod.mk.inj h).2
  · cases (Prod.mk.inj h).2

/-- A relay takes up its work with the files of its run open and empty, in sinks that were not
there when the command was authorized. -/
theorem begin_eq_relaying {check : Check} {c : Command} {s : Session} {files : Redirects}
    {r : Relay} (h : begin x options consoles w check c s = .relaying files r) :
    ∃ child asked s', r = relay x options consoles w c files child s' ∧
      check ((s.emit (.consulted c.name)).cancelIf w.whileAuthorizing) c.name = (asked, .ok ()) ∧
      ∀ i, files.IsFile i →
        s'.FreshFile w.fileFaults i ∧ asked.outlets.sinks.length ≤ i := by
  rcases hcheck : check ((s.emit (.consulted c.name)).cancelIf w.whileAuthorizing) c.name with
    ⟨s₁, f | ⟨⟩⟩
  · cases (begin_of_refused hcheck).symm.trans h
  · rcases hopen : Redirects.openTargets options.redirect w.fileFaults c s₁ with ⟨s₂, f | files₂⟩
    · cases (begin_of_unopened hcheck hopen).symm.trans h
    · have hbegins := beginsOpened x options consoles w c files₂ s₂
      rw [← begin_of_opened hcheck hopen, h] at hbegins
      cases hbegins with
      | @launched s₃ child _ _ hspawn =>
          refine ⟨child, s₁, s₃, rfl, rfl, fun i hi => ?_⟩
          obtain ⟨hfresh, hnew⟩ := Redirects.openTargets_fresh hopen i hi
          have hnoted : Session.FreshFile (record x .info .start c s₂) w.fileFaults i :=
            hfresh.of_eq rfl
          refine ⟨Session.FreshFile.of_eq ?_ (outlets_spawn x w hspawn), hnew⟩
          unfold started announce
          split
          · exact hnoted.display _ _
          · exact hnoted

end Run

end CommandRelay
