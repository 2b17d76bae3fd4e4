import CommandRelay.Proofs.Journal.History

/-!
# Files of journals keep apart

Journals that are opened for paths of different files write to different files: after any history,
a file holds what was in it and then the records of the lines that were noted through openings of
its own path, in the order of the calls and each one once (`Desk.files_apart`). A line has a record
if it reaches the threshold of its journal, its layout can be followed and its text be encoded.

## Implementation notes

A journal without a file is registered like the others, under a name of its own. A path that is
spelled like such a name could meet it there, so the main result is about other paths.
-/

namespace CommandRelay.Journal

namespace Desk

variable {base path : Text} {used : List Text} {d : Desk} {h : Handle} {names : List Text}
  {stamp : Text} {l : Line}

/-- The record that a step adds for a path, that of a line noted through an opening of it. -/
def record? (d : Desk) (path : Text) : Step → Option Bytes
  | .opening .. => none
  | .noting i stamp l =>
    match d.handle? i with
    | some h => if h.path = some path then d.registry.record? stamp h.name l else none
    | none => none

/-- The records that a history adds for a path, in the order of the calls. -/
def records (base path : Text) : Desk → List Step → List Bytes
  | _, [] => []
  | d, s :: steps => (d.record? path s).toList ++ records base path (d.step base s) steps

/-- No path is spelled like the name of a journal without a file. -/
def AreFiles (used : List Text) : Prop :=
  ∀ p ∈ used, ∀ n, p ≠ consoleName n

/-- Paths that lead to the same file are the same. -/
def AreApart (base : Text) (used : List Text) : Prop :=
  ∀ p ∈ used, ∀ q ∈ used, ∀ names,
    fileNames? base p = some names → fileNames? base q = some names → p = q

/-- What a step adds to a file: the record of a line, if its journal was opened for the file. -/
def added (base : Text) (d : Desk) (names : List Text) : Step → Bytes
  | .opening .. => []
  | .noting i stamp l =>
    match d.handle? i with
    | some h =>
      if h.path.bind (fileNames? base) = some names then
        (d.registry.record? stamp h.name l).getD [] else []
    | none => []

theorem Sound.contentAt_step {s : Step} (hsound : d.Sound base used)
    (hused : ∀ p, s.path? = some p → p ∈ used) (hfiles : AreFiles used) (names : List Text) :
    (d.step base s).contentAt names = d.contentAt names ++ d.added base names s := by
  cases s with
  | opening p source console =>
      have hopening : _ ∧ d.registry.disk.Gains Disk.nothing
          (d.step base (.opening p source console)).registry.disk := hsound.opening hused
      exact hopening.2.content names
  | noting i stamp l =>
      rw [added]
      cases hi : d.handle? i with
      | none =>
          rw [Desk.step, hi]
          exact (List.append_nil _).symm
      | some h =>
          have hnamed := hsound.named h (mem_handles_of_handle? hi)
          refine hsound.contentAt_noting hi (fun hpath n => ?_) (fun hpath hmem => ?_) names
          · rcases hnamed with ⟨-, hmem⟩ | ⟨hnone, -⟩
            · exact hfiles h.name hmem n
            · rw [hnone] at hpath
              cases hpath
          · rcases hnamed with ⟨hsome, -⟩ | ⟨-, n, hname⟩
            · rw [hsome] at hpath
              cases hpath
            · exact hfiles h.name hmem n hname

/-- What is added to the file of a path is the record that the step has for it. -/
theorem Sound.added_of_path {s : Step} (hsound : d.Sound base used)
    (hapart : AreApart base used) (hpath : path ∈ used)
    (hnames : fileNames? base path = some names) :
    d.added base names s = (d.record? path s).getD [] := by
  cases s with
  | opening => rfl
  | noting i stamp l =>
      rw [added, record?]
      cases hi : d.handle? i with
      | none => rfl
      | some h =>
          have hown : h.path.bind (fileNames? base) = some names ↔ h.path = some path := by
            rcases hsound.named h (mem_handles_of_handle? hi) with ⟨hname, hmem⟩ | ⟨hnone, -⟩
            · rw [hname, Option.bind_some, Option.some.injEq]
              constructor
              · exact fun hsame => hapart h.name hmem path hpath names hsame hnames
              · rintro rfl
                exact hnames
            · simp [hnone]
          simp only [hown]
          split <;> rfl

theorem Sound.added_of_elsewhere {s : Step} (hsound : d.Sound base used)
    (hnames : ∀ p ∈ used, fileNames? base p ≠ some names) : d.added base names s = [] := by
  cases s with
  | opening => rfl
  | noting i stamp l =>
      rw [added]
      cases hi : d.handle? i with
      | none => rfl
      | some h =>
          rcases hsound.named h (mem_handles_of_handle? hi) with ⟨hname, hmem⟩ | ⟨hnone, -⟩
          · exact if_neg (hname ▸ hnames h.name hmem)
          · simp [hnone]

/-- After a history a file holds what was in it and then the records for its path. -/
theorem Sound.contentAt_run_of_path {steps : List Step} (hsound : d.Sound base used)
    (hused : ∀ s ∈ steps, ∀ p, s.path? = some p → p ∈ used) (hfiles : AreFiles used)
    (hapart : AreApart base used) (hpath : path ∈ used)
    (hnames : fileNames? base path = some names) :
    (d.run base steps).contentAt names =
      d.contentAt names ++ (records base path d steps).flatten := by
  induction steps generalizing d with
  | nil => exact (List.append_nil _).symm
  | cons s steps ih =>
      rw [List.forall_mem_cons] at hused
      have hfirst : (d.step base s).contentAt names =
          d.contentAt names ++ (d.record? path s).getD [] := by
        rw [hsound.contentAt_step hused.1 hfiles,
          hsound.added_of_path hapart hpath hnames]
      have hrecord : (d.record? path s).toList.flatten = (d.record? path s).getD [] := by
        cases d.record? path s <;> simp
      have hrest := ih (hsound.step hused.1) hused.2
      calc
        (d.run base (s :: steps)).contentAt names =
            (d.step base s).contentAt names ++
              (records base path (d.step base s) steps).flatten := hrest
        _ = d.contentAt names ++ (records base path d (s :: steps)).flatten := by
            rw [hfirst, records, List.flatten_append, hrecord, List.append_assoc]

theorem Sound.contentAt_run_elsewhere {steps : List Step} (hsound : d.Sound base used)
    (hused : ∀ s ∈ steps, ∀ p, s.path? = some p → p ∈ used) (hfiles : AreFiles used)
    (hnames : ∀ p ∈ used, fileNames? base p ≠ some names) :
    (d.run base steps).contentAt names = d.contentAt names := by
  induction steps generalizing d with
  | nil => rfl
  | cons s steps ih =>
      rw [List.forall_mem_cons] at hused
      have hfirst : (d.step base s).contentAt names = d.contentAt names := by
        rw [hsound.contentAt_step hused.1 hfiles, hsound.added_of_elsewhere hnames, List.append_nil]
      exact (ih (hsound.step hused.1) hused.2).trans hfirst

/-- After any history of journals a file holds what was in it and then the records of the lines that
were noted through openings of its path, in the order of the calls and each one once. Files that no
path leads to are as before. -/
theorem files_apart (base : Text) (disk : Disk) (unnamed : Nat) (steps : List Step)
    (hfiles : AreFiles (paths steps)) (hapart : AreApart base (paths steps)) :
    let start : Desk := { registry := { disk, unnamed } }
    (∀ p ∈ paths steps, ∀ names, fileNames? base p = some names →
      (start.run base steps).contentAt names =
        disk.contentAt names ++ (records base p start steps).flatten) ∧
      ∀ names, (∀ p ∈ paths steps, fileNames? base p ≠ some names) →
        (start.run base steps).contentAt names = disk.contentAt names := by
  intro start
  have hsound : start.Sound base (paths steps) := sound_start base (paths steps) disk unnamed
  constructor
  · intro p hp names hnames
    exact hsound.contentAt_run_of_path mem_paths hfiles hapart hp hnames
  · intro names hnames
    exact hsound.contentAt_run_elsewhere mem_paths hfiles hnames

/-- Two openings of one path at different levels, one of a path that goes on from it after a dot and
one that fails, with lines through all of them. -/
def dottedSteps : List Step :=
  [.opening (some "app") (plainSource "INFO") false,
    .opening (some "app.db") (plainSource "DEBUG") false,
    .opening (some "app") (plainSource "WARNING") true,
    .opening (some "app.db.old") (plainSource "_STYLES") false,
    .noting 0 "now" ⟨.info, "a"⟩, .noting 1 "now" ⟨.debug, "b"⟩, .noting 2 "now" ⟨.error, "c"⟩,
    .noting 3 "now" ⟨.error, "d"⟩, .noting 0 "now" ⟨.warning, "e"⟩]

theorem files_apart_dotted :
    let disk : Disk := { nodes := [(["app"], .file [10] false)] }
    let final := run "/w" { registry := { disk } } dottedSteps
    AreFiles (paths dottedSteps) ∧ AreApart "/w" (paths dottedSteps) ∧
      final.contentAt ["app"] = [10, 99, 10, 101, 10] ∧ final.contentAt ["app.db"] = [98, 10] := by
  intro disk final
  have hfiles : AreFiles (paths dottedSteps) := by
    intro p hp n heq
    have hhead : ∀ p ∈ paths dottedSteps, p.head? ≠ some (.char 'e') := by decide
    exact hhead p hp (heq ▸ head?_consoleName n)
  have hapart : AreApart "/w" (paths dottedSteps) := by
    intro p hp q hq names hpn hqn
    have hdistinct : ∀ p ∈ paths dottedSteps, ∀ q ∈ paths dottedSteps,
        fileNames? "/w" p = fileNames? "/w" q → p = q := by decide +kernel
    exact hdistinct p hp q hq (hpn.trans hqn.symm)
  obtain ⟨hown, -⟩ := files_apart "/w" disk 140000000000000 dottedSteps hfiles hapart
  refine ⟨hfiles, hapart, ?_, ?_⟩
  · exact (hown "app" (by decide) ["app"] (by decide +kernel)).trans (by decide +kernel)
  · exact (hown "app.db" (by decide) ["app.db"] (by decide +kernel)).trans (by decide +kernel)

/-- Two lines that reach the threshold of their journal and are in no file: one cannot be encoded,
and the journal of the other one had been opened without a file. -/
theorem lines_unwritten :
    let opened := run "/w" { registry := {} } [.opening (some "app") (plainSource "INFO") false]
    let joined := run "/w" { registry := {} } [.opening none .absent false,
      .opening (some (consoleName 140000000000000)) (plainSource "INFO") false]
    (opened.registry.threshold "app" ≤ Level.info.rank ∧
      (opened.step "/w" (.noting 0 "now" ⟨.info, [.half 0]⟩)).contentAt ["app"] = []) ∧
    joined.registry.threshold (consoleName 140000000000000) ≤ Level.info.rank ∧
      (joined.step "/w" (.noting 1 "now" ⟨.info, "a"⟩)).contentAt
        [consoleName 140000000000000] = [] := by
  decide +kernel

end Desk

end CommandRelay.Journal
