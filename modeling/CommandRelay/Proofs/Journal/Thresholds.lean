import CommandRelay.Proofs.Journal.History

/-!
# Levels that journals are opened with

Those who open journals for one path share one journal. Its outputs have the level of the first
opening, it has that of the last one, and a line gets into the file if it reaches both. So an
opening has its own level honoured if the other ones of its path agree with it: `level_honoured`. A
level of zero is none, and the journal takes one from above.
-/

namespace CommandRelay.Journal

namespace Registry

variable {r : Registry} {name : Text}

/-- A journal with a level of its own takes none from above. -/
theorem passRank_of_ne_zero (h : (r.entryOf name).rank ≠ 0) :
    r.passRank name = (r.entryOf name).rank := by
  unfold entryOf at h ⊢
  cases hfound : r.find? name with
  | none =>
      rw [hfound] at h
      exact absurd rfl h
  | some e =>
      rw [hfound] at h
      rw [passRank, passRankWithin, hfound]
      exact if_pos (.inl h)

end Registry

namespace Desk

variable {base path : Text} {used : List Text} {d : Desk} {h : Handle} {names : List Text}
  {stamp : Text} {l : Line} {first last rank : Nat}

/-- The threshold of a journal is the higher one of the levels of its first and its last opening,
unless the last one is none. -/
theorem Sound.threshold_eq (hsound : d.Sound base used)
    (hfirst : (d.ranks path).head? = some first) (hlast : (d.ranks path).getLast? = some last)
    (hlevel : last ≠ 0) : d.registry.threshold path = max first last := by
  have hstands := hsound.stands path
  cases hranks : d.ranks path with
  | nil =>
      rw [hranks] at hfirst
      cases hfirst
  | cons rank more =>
      rw [hranks] at hstands hfirst hlast
      cases hstands with
      | opened o rest more houtputs hfits hrest hown hstop =>
          have hrank : (d.registry.entryOf path).rank = last :=
            Option.some.inj (hown.symm.trans hlast)
          obtain rfl := Option.some.inj hfirst
          rw [Registry.threshold, Registry.passRank_of_ne_zero (hrank ▸ hlevel), hrank, houtputs,
            Nat.max_comm]
          rfl

theorem Sound.name_eq (hsound : d.Sound base used) (hh : h ∈ d.handles)
    (hpath : h.path = some path) : h.name = path := by
  rcases hsound.named h hh with ⟨hname, -⟩ | ⟨hnone, -⟩
  · exact Option.some.inj (hname.symm.trans hpath)
  · rw [hnone] at hpath
    cases hpath

/-- What becomes of a line that is noted through an opening of a path, after any history. It gets
into the file, after all that was in it, if it reaches the threshold of the journal, which is the
higher one of the levels of the first and the last opening of the path, unless the last one is none.
If all openings of the path have one level, that is the level of this one, and it decides. What is
in the file then stays there. -/
theorem level_honoured {unnamed i : Nat} {disk : Disk} {history : List Step} {bytes : Bytes}
    (hd : d = run base { registry := { disk, unnamed } } history) (hi : d.handle? i = some h)
    (hpath : h.path = some path) (hnames : fileNames? base path = some names)
    (hfile : ∀ n, path ≠ consoleName n) (hbytes : d.registry.bytes? stamp path l = some bytes) :
    let after := d.step base (.noting i stamp l)
    ∃ first last rank,
      (d.ranks path).head? = some first ∧ (d.ranks path).getLast? = some last ∧
      h.source.rank? = some rank ∧ rank ∈ d.ranks path ∧
      (last ≠ 0 → d.registry.threshold path = max first last) ∧
      after.contentAt names = d.contentAt names ++
        (if d.registry.threshold path ≤ l.level.rank then bytes else []) ∧
      (rank ≠ 0 → (∀ other ∈ d.ranks path, other = rank) →
        after.contentAt names = d.contentAt names ++
          if rank ≤ l.level.rank then bytes else []) ∧
      ∀ later, after.contentAt names <+: (after.run base later).contentAt names := by
  intro after
  have hgrown (used : List Text) (hused : ∀ s ∈ history, ∀ p, s.path? = some p → p ∈ used) :
      Sound base used d := by
    rw [hd]
    exact (sound_start base used disk unnamed).run hused
  have hsound := hgrown (paths history) mem_paths
  have hh := mem_handles_of_handle? hi
  have hname := hsound.name_eq hh hpath
  obtain ⟨rank, hrank⟩ := hsound.ranked h hh
  have hmem : rank ∈ d.ranks path := hname ▸ mem_ranks hh hrank
  have hne := List.ne_nil_of_mem hmem
  have hfirst := List.head?_eq_some_head hne
  have hlast := List.getLast?_eq_some_getLast hne
  have hthreshold := hsound.threshold_eq hfirst hlast
  have hcontent : after.contentAt names = d.contentAt names ++
      (if d.registry.threshold path ≤ l.level.rank then bytes else []) := by
    have hnoting : after.contentAt names = d.contentAt names ++
        if h.path.bind (fileNames? base) = some names then
          (d.registry.record? stamp h.name l).getD [] else [] := by
      refine hsound.contentAt_noting hi (fun _ n => hname ▸ hfile n) (fun hnone => ?_) names
      rw [hnone] at hpath
      cases hpath
    rw [hnoting, hpath, hname, Option.bind_some, if_pos hnames, Registry.record?, hbytes]
    split <;> rfl
  refine ⟨_, _, rank, hfirst, hlast, hrank, hmem, hthreshold, hcontent, fun hnonzero hsame => ?_,
    fun later => ?_⟩
  · have hfirstRank := hsame _ (List.head_mem hne)
    have hlastRank := hsame _ (List.getLast_mem hne)
    rw [hcontent, hthreshold (hlastRank ▸ hnonzero), hfirstRank, hlastRank, Nat.max_self]
  · have hboth := hgrown (paths (history ++ later)) fun s hs =>
      mem_paths s (List.mem_append_left later hs)
    exact hboth.noting.contentAt_run (fun s hs => mem_paths s (List.mem_append_right history hs))
      names

/-- Two openings of one path at the same level, and one of another path in between. -/
def agreedSteps : List Step :=
  [.opening (some "app") (plainSource "INFO") false,
    .opening (some "app.db") (plainSource "ERROR") false,
    .opening (some "app") (plainSource "info") true]

theorem level_honoured_agreed :
    let d := run "/w" { registry := {} } agreedSteps
    (d.step "/w" (.noting 0 "now" ⟨.info, "a"⟩)).contentAt ["app"] = [97, 10] ∧
      (d.step "/w" (.noting 0 "now" ⟨.debug, "a"⟩)).contentAt ["app"] = [] := by
  intro d
  obtain ⟨h, hi⟩ := Option.isSome_iff_exists.mp (show (d.handle? 0).isSome by decide +kernel)
  have hpath : (d.handle? 0).map Handle.path = some (some (Text.ofString "app")) := by
    decide +kernel
  have hsource : (d.handle? 0).bind (·.source.rank?) = some 20 := by decide +kernel
  have hranks : ∀ other ∈ d.ranks "app", other = 20 := by decide +kernel
  have hcontent : d.contentAt ["app"] = [] := by decide +kernel
  have hnames : fileNames? "/w" "app" = some [Text.ofString "app"] := by decide +kernel
  have hfile (n : Nat) : Text.ofString "app" ≠ consoleName n := fun heq =>
    absurd (heq ▸ head?_consoleName n) (by decide)
  rw [hi, Option.map_some, Option.some.injEq] at hpath
  rw [hi, Option.bind_some] at hsource
  have hown (level : Level)
      (hbytes : d.registry.bytes? "now" "app" ⟨level, "a"⟩ = some [97, 10]) :
      (d.step "/w" (.noting 0 "now" ⟨level, "a"⟩)).contentAt ["app"] =
        if 20 ≤ level.rank then [97, 10] else [] := by
    obtain ⟨_, _, rank, _, _, hrank, _, _, _, hlevel, _⟩ :=
      level_honoured rfl hi hpath hnames hfile hbytes
    obtain rfl : rank = 20 := Option.some.inj (hrank.symm.trans hsource)
    exact (hlevel (by decide) hranks).trans (by rw [hcontent]; rfl)
  exact ⟨hown .info (by decide +kernel), hown .debug (by decide +kernel)⟩

/-- Three ways in which a level is not honoured: it is raised by a later opening of the path, it is
lowered by one, and it is none. -/
theorem level_overruled :
    let opened (levels : List Text) := run "/w" { registry := {} }
      (levels.map fun level => .opening (some "app") (plainSource level) false)
    let level? (d : Desk) (i : Nat) := (d.handle? i).bind (·.source.rank?)
    let after (d : Desk) (i : Nat) :=
      (d.step "/w" (.noting i "now" ⟨.info, "a"⟩)).contentAt ["app"]
    (level? (opened ["DEBUG", "ERROR"]) 0 = some Level.debug.rank ∧
      after (opened ["DEBUG", "ERROR"]) 0 = []) ∧
    (level? (opened ["DEBUG", "ERROR", "DEBUG"]) 1 = some Level.error.rank ∧
      after (opened ["DEBUG", "ERROR", "DEBUG"]) 1 = [97, 10]) ∧
    level? (opened ["NOTSET"]) 0 = some 0 ∧ after (opened ["NOTSET"]) 0 = [] := by
  decide +kernel

end Desk

end CommandRelay.Journal
