import CommandRelay.Proofs.Journal.Registration

/-!
# What noting a line does

A journal that has been opened passes no lines on. A line that is noted in it goes to its own
outputs, if it reaches the level of the journal, and changes nothing else (`Registry.note_keeps`).
What the file of the journal gains is one record, if the line reaches the threshold of the journal
and can be written, and nothing otherwise (`Registry.noted_filed`).
-/

namespace CommandRelay.Journal

namespace Registry

variable {r r' r'' : Registry} {e : Entry} {name other stamp : Text} {l : Line}
  {occasion : Layout.Occasion} {more more' : List Text → Bytes}

/-! ## Thresholds and records -/

/-- The rank from which on lines get into the file of a journal: that of the journal, or that of its
first output if it is higher. -/
def threshold (r : Registry) (name : Text) : Nat :=
  max (r.passRank name) (((r.entryOf name).outputs.head?.map Output.rank).getD 0)

/-- The bytes that a line is written with by the first output of a journal, if its layout can be
followed and the text be encoded. -/
def bytes? (r : Registry) (stamp name : Text) (l : Line) : Option Bytes :=
  (r.entryOf name).outputs.head?.bind fun o => o.bytes? { journal := name, stamp } l

/-- The record of a line in the file of a journal, if the line reaches the threshold and can be
written. -/
def record? (r : Registry) (stamp name : Text) (l : Line) : Option Bytes :=
  if r.threshold name ≤ l.level.rank then r.bytes? stamp name l else none

/-- What the files gain when a line is noted in a journal that passes no lines on. -/
def noted (r : Registry) (stamp name : Text) (l : Line) : List Text → Bytes :=
  if r.passRank name ≤ l.level.rank then
    gains { journal := name, stamp } l (r.entryOf name).outputs
  else Disk.nothing

theorem gains_consoles {outputs : List Output} (h : ∀ o ∈ outputs, o.destination = .console) :
    gains occasion l outputs = Disk.nothing := by
  funext names
  refine List.flatMap_eq_nil_iff.mpr fun o ho => ?_
  rw [Output.gain_console (h o ho)]
  rfl

/-- A line adds its record to the file of the journal and nothing to any other one. -/
theorem noted_filed {o : Output} {rest : List Output} {place : Place} {waiting : Bytes}
    (houtputs : (r.entryOf name).outputs = o :: rest) (hdest : o.destination = .file place waiting)
    (hrest : ∀ o ∈ rest, o.destination = .console) :
    r.noted stamp name l = fun names =>
      if place = .file names then (r.record? stamp name l).getD [] else [] := by
  funext names
  have hconsoles : gains { journal := name, stamp } l rest names = [] :=
    congrFun (gains_consoles hrest) names
  rw [noted, record?, bytes?, threshold, houtputs]
  simp only [List.head?_cons, Option.map_some, Option.getD_some, Option.bind_some, Nat.max_le]
  by_cases hpass : r.passRank name ≤ l.level.rank
  · rw [if_pos hpass, gains, List.flatMap_cons]
    change o.gain _ l names ++ gains _ l rest names = _
    rw [hconsoles, List.append_nil, Output.gain, hdest]
    by_cases hrank : o.rank ≤ l.level.rank <;> simp [hpass, hrank]
  · simp [hpass, Disk.nothing]

theorem noted_consoles (h : ∀ o ∈ (r.entryOf name).outputs, o.destination = .console) :
    r.noted stamp name l = Disk.nothing := by
  unfold noted
  split
  · exact gains_consoles h
  · rfl

/-! ## Journals that are kept -/

/-- A later registry with journals that differ at most in what waits for devices, where every file
has gained bytes at its end. -/
structure Keeps (r : Registry) (more : List Text → Bytes) (r' : Registry) : Prop where
  gains : r.disk.Gains more r'.disk
  ready : r'.Ready
  settled : ∀ name, (r'.entryOf name).settled = (r.entryOf name).settled

theorem Keeps.refl (h : r.Ready) : r.Keeps Disk.nothing r :=
  ⟨.refl _, h, fun _ => rfl⟩

theorem Keeps.trans_nothing (h : r.Keeps more r') (h' : r'.Keeps Disk.nothing r'') :
    r.Keeps more r'' :=
  ⟨h.gains.nothing_trans h'.gains, h'.ready, fun name => (h'.settled name).trans (h.settled name)⟩

theorem Keeps.passesOn_eq (h : r.Keeps more r') (name : Text) :
    (r'.entryOf name).passesOn = (r.entryOf name).passesOn :=
  (congrArg Entry.passesOn (h.settled name) :)

theorem exists_of_not_passesOn (h : (r.entryOf name).passesOn = false) :
    ∃ e, r.find? name = some e ∧ e.passesOn = false := by
  unfold entryOf at h
  cases hfound : r.find? name with
  | none =>
      rw [hfound] at h
      cases h
  | some e =>
      rw [hfound] at h
      exact ⟨e, rfl, h⟩

/-- A journal gets outputs back that differ at most in what waits for devices. -/
theorem Puts.keeps {outputs : List Output} (h : r.Puts more r') (hready : r.Ready)
    (hfound : r.find? name = some e)
    (hsettled : outputs.map Output.settled = e.outputs.map Output.settled)
    (houtputs : ∀ o ∈ outputs, o.Ready r'.disk) :
    r.Keeps more (r'.update { e with outputs }) := by
  have hname := name_of_find? hfound
  have hkept (other : Text) : r'.entryOf other = r.entryOf other :=
    entryOf_congr h.root h.entries other
  have hupdate (other : Text) : (r'.update { e with outputs }).entryOf other =
      if other = name then ({ e with outputs } : Entry).alone else r.entryOf other := by
    rw [entryOf_update, hkept]
    · simp only [hname]
    · rw [find?_congr h.root h.entries]
      simp only [hname, hfound, Option.isSome_some]
  refine ⟨?_, fun other o ho => ?_, fun other => ?_⟩
  · rw [disk_update]
    exact h.gains
  · rw [disk_update]
    rw [hupdate] at ho
    split at ho
    · exact houtputs o ho
    · exact (hready other o ho).of_isFile h.gains.file
  · rw [hupdate]
    split
    · rename_i heq
      rw [heq, entryOf_of_find? hfound]
      exact congrArg (fun outputs => ({ e.alone with outputs } : Entry)) hsettled
    · rfl

/-! ## Noting -/

theorem hand_keeps (hready : r.Ready) (hstop : (r.entryOf name).passesOn = false) (n : Nat) :
    r.Keeps (gains occasion l (r.entryOf name).outputs) (hand occasion l (n + 1) r name) := by
  obtain ⟨e, hfound, he⟩ := exists_of_not_passesOn hstop
  have hentry := entryOf_of_find? hfound
  have houtputs : (r.entryOf name).outputs = e.outputs := by
    rw [hentry]
    rfl
  rw [houtputs]
  have hemitted : r.Puts (gains occasion l e.outputs) (emitAll occasion l r e.outputs).1 ∧ _ :=
    emitAll_ready (houtputs ▸ hready name)
  obtain ⟨hputs, hsettled, hafter⟩ := hemitted
  rw [hand, hfound]
  simp only
  rw [if_neg fun hon => Bool.false_ne_true (he.symm.trans hon.1)]
  exact hputs.keeps hready hfound hsettled hafter

/-- A line that is noted in a journal that passes no lines on goes to the outputs of the journal, as
far as it passes, and nothing else happens. -/
theorem note_keeps (hready : r.Ready) (hstop : (r.entryOf name).passesOn = false) :
    r.Keeps (r.noted stamp name l) (r.note stamp name l).1 := by
  have hhanded : r.Keeps (r.noted stamp name l)
      (if r.passRank name ≤ l.level.rank then
        hand { journal := name, stamp } l (r.entries.length + 2) r name else r) := by
    unfold noted
    split
    · exact hand_keeps hready hstop _
    · exact .refl hready
  unfold note
  simp only
  generalize (if r.passRank name ≤ l.level.rank then
    hand { journal := name, stamp } l (r.entries.length + 2) r name else r) = handed at hhanded
  obtain ⟨e, hfound, -⟩ := exists_of_not_passesOn ((hhanded.passesOn_eq name).trans hstop)
  rw [hfound]
  simp only
  split
  · exact hhanded
  · rename_i first rest houtputs
    have hready' : ∀ o ∈ first :: rest, o.Ready handed.disk := by
      intro o ho
      refine hhanded.ready name o ?_
      rw [entryOf_of_find? hfound]
      exact houtputs ▸ ho
    have hflush := flush_ready (hready' first List.mem_cons_self)
    refine hhanded.trans_nothing (hflush.puts.keeps hhanded.ready hfound ?_ ?_)
    · rw [houtputs, List.map_cons, List.map_cons, hflush.settled]
    · intro o ho
      rcases List.mem_cons.mp ho with rfl | ho
      · exact hflush.ready
      · exact (hready' o (List.mem_cons_of_mem _ ho)).of_isFile hflush.puts.gains.file

end Registry

end CommandRelay.Journal
