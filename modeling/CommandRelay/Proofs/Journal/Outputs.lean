import CommandRelay.Journal.Registry
import CommandRelay.Proofs.Execution.FreshFiles

/-!
# What noting a line does to the files

A line is put at the end of the files that it is to go to, and nothing else happens to the disk
(`Registry.emitAll_ready`). Opening a file for more lines and making directories leave the bytes of
every file as they are.

## Implementation notes

`Disk.Gains` says what each file gains at its end. All that journals do to a disk is stated with it,
so the statements compose by `Disk.Gains.trans`.
-/

namespace CommandRelay

/-! ## Disks that only grow -/

namespace Disk

variable {d d' d'' : Disk} {names : List Text} {path : Text} {more more' : List Text → Bytes}

/-- A file is under a list of names. -/
def IsFile (d : Disk) (names : List Text) : Prop :=
  ∃ content executable, d.node? names = some (.file content executable)

/-- A later disk on which every file has gained bytes at its end, and none is gone. -/
structure Gains (d : Disk) (more : List Text → Bytes) (d' : Disk) : Prop where
  content : ∀ names, d'.contentAt names = d.contentAt names ++ more names
  file : ∀ names, d.IsFile names → d'.IsFile names

/-- No file gains anything. -/
def nothing : List Text → Bytes := fun _ => []

theorem Gains.refl (d : Disk) : d.Gains nothing d :=
  ⟨fun _ => (List.append_nil _).symm, fun _ => id⟩

theorem Gains.trans (h : d.Gains more d') (h' : d'.Gains more' d'') :
    d.Gains (fun names => more names ++ more' names) d'' where
  content names := by rw [h'.content, h.content, List.append_assoc]
  file names hfile := h'.file names (h.file names hfile)

theorem Gains.trans_nothing (h : d.Gains nothing d') (h' : d'.Gains more d'') : d.Gains more d'' :=
  h.trans h'

theorem Gains.nothing_trans (h : d.Gains more d') (h' : d'.Gains nothing d'') :
    d.Gains more d'' where
  content names := by rw [(h.trans h').content, nothing, List.append_nil]
  file := (h.trans h').file

theorem contentAt_congr (h : d'.node? names = d.node? names) :
    d'.contentAt names = d.contentAt names := by
  unfold contentAt
  rw [h]

theorem IsFile.put {names' : List Text} {content : Bytes} {executable : Bool}
    (h : d.IsFile names) : (d.put names' (.file content executable)).IsFile names := by
  obtain ⟨content', executable', hnode⟩ := h
  by_cases heq : names = names'
  · subst heq
    exact ⟨_, _, node?_put_self (ne_nil_of_node?_eq_file hnode)⟩
  · exact ⟨_, _, (node?_put_of_ne heq).trans hnode⟩

theorem gains_put_directory (h : d.node? names = none) :
    d.Gains nothing (d.put names .directory) := by
  have hne : names ≠ [] := by
    rintro rfl
    cases h
  have hself : (d.put names .directory).node? names = some .directory := node?_put_self hne
  constructor
  · intro names'
    rw [nothing, List.append_nil]
    by_cases heq : names' = names
    · subst heq
      rw [contentAt, hself, contentAt, h]
    · exact contentAt_congr (node?_put_of_ne heq)
  · rintro names' ⟨content, executable, hnode⟩
    have heq : names' ≠ names := by
      rintro rfl
      rw [h] at hnode
      cases hnode
    exact ⟨content, executable, (node?_put_of_ne heq).trans hnode⟩

theorem gains_put_same {content : Bytes} {executable : Bool} (hne : names ≠ [])
    (h : d.contentAt names = content) :
    d.Gains nothing (d.put names (.file content executable)) := by
  constructor
  · intro names'
    rw [nothing, List.append_nil]
    by_cases heq : names' = names
    · subst heq
      rw [contentAt, node?_put_self hne, h]
    · exact contentAt_congr (node?_put_of_ne heq)
  · exact fun _ => .put

/-- To open a file for more output adds nothing to it. -/
theorem gains_openForOutput {place : Place} (h : d.openForOutput true path = .ok (d', place)) :
    d.Gains nothing d' ∧ ∀ names, place = .file names → d'.IsFile names := by
  unfold openForOutput at h
  split at h
  · cases h
  · split at h <;> rename_i hloc
    · cases h
    · cases h
    · cases h
    · rename_i names content executable
      obtain ⟨rfl, rfl⟩ := Prod.mk.inj (Except.ok.inj h)
      have hnode := (tells_of_locateForOutput hloc).node _ _ rfl
      have hne := ne_nil_of_node?_eq_file hnode
      refine ⟨gains_put_same hne (by rw [contentAt, hnode]; rfl), fun names' heq => ?_⟩
      obtain rfl := Place.file.inj heq
      exact ⟨_, _, node?_put_self hne⟩
    · rename_i names
      obtain ⟨rfl, rfl⟩ := Prod.mk.inj (Except.ok.inj h)
      have hnode := (tells_of_locateForOutput hloc).vacant _ rfl
      have hne : names ≠ [] := by
        rintro rfl
        cases hnode
      refine ⟨gains_put_same hne (by rw [contentAt, hnode]), fun names' heq => ?_⟩
      obtain rfl := Place.file.inj heq
      exact ⟨_, _, node?_put_self hne⟩
    · obtain ⟨rfl, rfl⟩ := Prod.mk.inj (Except.ok.inj h)
      exact ⟨.refl _, nofun⟩

theorem gains_makeDirectory (h : d.makeDirectory path = .ok d') : d.Gains nothing d' := by
  unfold makeDirectory at h
  split at h
  · cases h
  · split at h <;> rename_i hloc
    · cases h
    · cases h
    · obtain rfl := Except.ok.inj h
      exact gains_put_directory ((tells_of_locate hloc).vacant _ rfl)
    · cases h

theorem gains_ensureDirectory (d : Disk) (path : Text) :
    d.Gains nothing (d.ensureDirectory path).1 := by
  unfold ensureDirectory
  split
  · exact gains_makeDirectory ‹_›
  · exact .refl d
  · exact .refl d

theorem gains_ensureWithin (n : Nat) (d : Disk) (path : Text) :
    d.Gains nothing (ensureWithin n d path).1 := by
  induction n generalizing d path with
  | zero => exact .refl d
  | succ n ih =>
      rw [ensureWithin]
      split
      split
      rename_i head tail _
      -- what is made last, on whatever disk the rest has left
      have hlast (d' : Disk) : d'.Gains nothing
          (if tail = "." then (d', .ok ()) else d'.ensureDirectory path).1 := by
        split
        · exact .refl d'
        · exact gains_ensureDirectory d' path
      have hmore := ih d head
      simp only
      split
      · split <;> rename_i hwithin <;> rw [hwithin] at hmore
        · exact hmore.trans_nothing (hlast _)
        · split
          · exact hmore.trans_nothing (hlast _)
          · exact hmore
      · exact gains_ensureDirectory d path

theorem gains_ensureDirectories (d : Disk) (path : Text) :
    d.Gains nothing (d.ensureDirectories path).1 :=
  gains_ensureWithin _ d path

/-! ## Where paths lead -/

/-- The names that a path leads to, from the working directory or from the root on, unless it leads
to a device. -/
def namesOf? (path : Text) : Option (List Text) :=
  match path.splitOn Path.slash with
  | [] :: parts =>
    if (deviceAt? (outerNames [] parts)).isSome then none
    else some (fromRoot (outerNames [] parts))
  | parts => some (outerNames [] parts)

theorem names_of_follow {parts : List Text} {l : Located}
    (h : d.follow path names parts = .ok l) :
    l = .outside ∨ (∃ n, l = .node (outerNames names parts) n) ∨
      l = .vacant (outerNames names parts) := by
  induction parts generalizing names with
  | nil =>
      rw [follow] at h
      split at h <;> obtain rfl := Except.ok.inj h
      · exact .inr (.inl ⟨_, rfl⟩)
      · exact .inr (.inr rfl)
  | cons part rest ih =>
      rw [follow] at h
      rw [outerNames]
      split at h
      · by_cases hstay : part = [] ∨ part = "."
        · rw [if_pos hstay] at h ⊢
          exact ih h
        rw [if_neg hstay] at h ⊢
        by_cases hup : part = ".."
        · rw [if_pos hup] at h ⊢
          split at h
          · split at h
            · exact .inl (Except.ok.inj h).symm
            · cases h
          · exact ih h
        rw [if_neg hup] at h ⊢
        split at h
        · cases h
        · exact ih h
      · cases h
      · cases h

theorem namesOf?_outer {parts : List Text} (h : path.splitOn Path.slash = [] :: parts) :
    namesOf? path = if (deviceAt? (outerNames [] parts)).isSome then none
      else some (fromRoot (outerNames [] parts)) := by
  rw [namesOf?, h]

theorem namesOf?_inner (h : ∀ parts, path.splitOn Path.slash ≠ [] :: parts) :
    namesOf? path = some (outerNames [] (path.splitOn Path.slash)) := by
  unfold namesOf?
  split
  · exact absurd ‹_› (h _)
  · rfl

/-- What a path leads to is under its names, and it leads to a device only if it has none. -/
theorem namesOf?_of_locate {l : Located} (h : d.locate path = .ok l) :
    (∀ names', (∃ n, l = .node names' n) ∨ l = .vacant names' → namesOf? path = some names') ∧
      ((∃ device, l = .device device) → namesOf? path = none) := by
  unfold locate at h
  split at h
  · cases h
  · split at h
    · cases h
    · split at h
      · rename_i parts hparts
        rw [namesOf?_outer hparts]
        cases outerPlace_of_followOuter h with
        | there hnode =>
            cases hnode with
            | device hdevice => simp [hdevice]
            | outside => simp
            | node hdevice => simp [hdevice]
        | vacant hdevice => simp [hdevice]
      · rename_i hparts
        rw [namesOf?_inner hparts]
        rcases names_of_follow h with rfl | ⟨n, rfl⟩ | rfl <;> simp

theorem locateForOutput_eq_ok {l : Located} (h : d.locateForOutput path = .ok l) :
    d.locate path = .ok l := by
  unfold locateForOutput at h
  split at h
  · exact h
  · split at h <;> cases h

/-- The file that is opened by a path is the one under its names. -/
theorem openForOutput_place {keep : Bool} {place : Place}
    (h : d.openForOutput keep path = .ok (d', place)) :
    place = .file names ↔ namesOf? path = some names := by
  unfold openForOutput at h
  split at h
  · cases h
  · split at h <;> rename_i hloc
    · cases h
    · cases h
    · cases h
    all_goals
      obtain ⟨-, rfl⟩ := Prod.mk.inj (Except.ok.inj h)
      obtain ⟨hnames, hnone⟩ := namesOf?_of_locate (locateForOutput_eq_ok hloc)
    · rw [hnames _ (.inl ⟨_, rfl⟩), Place.file.injEq, Option.some.injEq]
    · rw [hnames _ (.inr rfl), Place.file.injEq, Option.some.injEq]
    · simp [hnone ⟨_, rfl⟩]

end Disk

/-! ## Outputs -/

namespace Journal

namespace Output

variable {o : Output} {d d' : Disk} {occasion : Layout.Occasion} {l : Line}

/-- An output but for what waits. -/
def settled (o : Output) : Output :=
  match o.destination with
  | .file place _ => { o with destination := .file place [] }
  | .console => o

/-- If an output puts lines in a file, the file is there and nothing waits for it. -/
def Ready (d : Disk) (o : Output) : Prop :=
  ∀ names waiting, o.destination = .file (.file names) waiting → waiting = [] ∧ d.IsFile names

/-- The bytes that a line is written with, if its layout can be followed and the text be encoded. -/
def bytes? (o : Output) (occasion : Layout.Occasion) (l : Line) : Option Bytes :=
  (Layout.render o.layout occasion l).bind fun text => (Utf8.encode (text ++ "\n")).toOption

/-- What a file gains when a line goes to an output. -/
def gain (o : Output) (occasion : Layout.Occasion) (l : Line) (names : List Text) : Bytes :=
  match o.destination with
  | .file place _ =>
    if place = .file names ∧ o.rank ≤ l.level.rank then (o.bytes? occasion l).getD [] else []
  | .console => []

theorem settled_console (h : o.destination = .console) : o.settled = o := by
  unfold settled
  rw [h]

theorem settled_file {place : Place} {waiting waiting' : Bytes}
    (h : o.destination = .file place waiting) :
    ({ o with destination := .file place waiting' } : Output).settled = o.settled := by
  simp only [settled, h]

@[simp] theorem rank_settled (o : Output) : o.settled.rank = o.rank := by
  cases ho : o.destination <;> simp [settled, ho]

theorem gain_console (h : o.destination = .console) : o.gain occasion l = Disk.nothing := by
  funext names
  rw [gain, h]
  rfl

theorem gain_of_lt (h : l.level.rank < o.rank) : o.gain occasion l = Disk.nothing := by
  funext names
  unfold gain
  split
  · exact if_neg fun hpass => Nat.not_le.mpr h hpass.2
  · rfl

theorem gain_of_none (h : o.bytes? occasion l = none) : o.gain occasion l = Disk.nothing := by
  funext names
  unfold gain
  split
  · rw [h]
    exact ite_self _
  · rfl

theorem gain_file {place : Place} {waiting bytes : Bytes}
    (h : o.destination = .file place waiting) (hpass : o.rank ≤ l.level.rank)
    (hbytes : o.bytes? occasion l = some bytes) :
    o.gain occasion l = fun names => if place = .file names then bytes else [] := by
  funext names
  simp only [gain, h, hpass, hbytes, and_true, Option.getD_some]

theorem Ready.of_isFile (h : o.Ready d) (hfile : ∀ names, d.IsFile names → d'.IsFile names) :
    o.Ready d' :=
  fun names waiting hdest => ⟨(h names waiting hdest).1, hfile names (h names waiting hdest).2⟩

theorem ready_console (h : o.destination = .console) : o.Ready d := by
  intro names waiting hdest
  rw [h] at hdest
  cases hdest

theorem ready_device {device : Device} {waiting : Bytes}
    (h : o.destination = .file (.device device) waiting) : o.Ready d := by
  intro names waiting' hdest
  rw [h] at hdest
  cases hdest

end Output

/-! ## Writing lines -/

namespace Registry

variable {r r' r'' : Registry} {o o' : Output} {occasion : Layout.Occasion} {l : Line}
  {more more' : List Text → Bytes}

/-- A later registry with the same journals, where every file has gained bytes at its end. -/
structure Puts (r : Registry) (more : List Text → Bytes) (r' : Registry) : Prop where
  gains : r.disk.Gains more r'.disk
  root : r'.root = r.root
  entries : r'.entries = r.entries

theorem Puts.refl (r : Registry) : r.Puts Disk.nothing r :=
  ⟨.refl _, rfl, rfl⟩

theorem Puts.trans (h : r.Puts more r') (h' : r'.Puts more' r'') :
    r.Puts (fun names => more names ++ more' names) r'' :=
  ⟨h.gains.trans h'.gains, h'.root.trans h.root, h'.entries.trans h.entries⟩

/-- What an output does to a registry and to itself when it takes a line or is flushed. -/
structure Serves (r : Registry) (o : Output) (more : List Text → Bytes)
    (after : Registry × Output) : Prop where
  puts : r.Puts more after.1
  settled : after.2.settled = o.settled
  ready : after.2.Ready after.1.disk

theorem flush_console (h : o.destination = .console) : r.flush o = (r, o, .ok ()) := by
  rw [flush, h]

theorem flush_of_drain {place : Place} {waiting : Bytes} {disk : Disk}
    (h : o.destination = .file place waiting) (hdrain : drain r.disk place waiting = .ok disk) :
    r.flush o = ({ r with disk }, { o with destination := .file place [] }, .ok ()) := by
  rw [flush, h]
  simp only [hdrain]

theorem flush_of_refused {place : Place} {waiting : Bytes} {e : SystemError}
    (h : o.destination = .file place waiting) (hdrain : drain r.disk place waiting = .error e) :
    r.flush o = (r, o, .error e) := by
  rw [flush, h]
  simp only [hdrain]

theorem drain_device {d disk : Disk} {device : Device} {waiting : Bytes}
    (h : drain d (.device device) waiting = .ok disk) : disk = d := by
  cases device with
  | null | zero => exact (Except.ok.inj h).symm
  | full =>
      simp only [drain, Disk.write] at h
      split at h
      · exact (Except.ok.inj h).symm
      · cases h

/-- What waits for a file is put at its end. -/
theorem drain_file {d : Disk} {names : List Text} (hfile : d.IsFile names) (waiting : Bytes) :
    ∃ disk, drain d (.file names) waiting = .ok disk ∧
      d.Gains (fun names' => if names = names' then waiting else []) disk := by
  obtain ⟨content, executable, hnode⟩ := hfile
  obtain ⟨disk, hwrite, hafter⟩ := Disk.write_file hnode waiting
  have hother {names' : List Text} (hne : names ≠ names') :
      disk.node? names' = d.node? names' :=
    Disk.node?_write_of_ne (fun heq => hne (Place.file.inj heq)) hwrite
  refine ⟨disk, by rwa [drain, Disk.contentAt, hnode], fun names' => ?_, ?_⟩
  · by_cases heq : names = names'
    · subst heq
      rw [if_pos rfl, Disk.contentAt, hafter, Disk.contentAt, hnode]
    · rw [if_neg heq, List.append_nil]
      exact Disk.contentAt_congr (hother heq)
  · rintro names' ⟨content', executable', hnode'⟩
    by_cases heq : names = names'
    · subst heq
      exact ⟨_, _, hafter⟩
    · exact ⟨_, _, (hother heq).trans hnode'⟩

/-- What waits for a file is put at its end when the output is flushed. -/
theorem flush_serves {place : Place} {waiting : Bytes} (h : o.destination = .file place waiting)
    (hfile : ∀ names, place = .file names → r.disk.IsFile names) :
    r.Serves o (fun names => if place = .file names then waiting else [])
      ((r.flush o).1, (r.flush o).2.1) := by
  cases place with
  | device device =>
      have hnone : (fun names => if Place.device device = .file names then waiting else []) =
          Disk.nothing := by
        funext names
        exact if_neg nofun
      rw [hnone]
      cases hdrain : drain r.disk (.device device) waiting with
      | error e =>
          rw [flush_of_refused h hdrain]
          exact ⟨.refl r, rfl, Output.ready_device h⟩
      | ok disk =>
          rw [flush_of_drain h hdrain, drain_device hdrain]
          exact ⟨.refl r, Output.settled_file h, Output.ready_device rfl⟩
  | file names =>
      obtain ⟨disk, hdrain, hgains⟩ := drain_file (hfile names rfl) waiting
      rw [flush_of_drain h hdrain]
      simp only [Place.file.injEq]
      refine ⟨⟨hgains, rfl, rfl⟩, Output.settled_file h, fun names' waiting' hdest => ?_⟩
      obtain ⟨hplace, hwaiting⟩ := Destination.file.inj hdest
      obtain rfl := Place.file.inj hplace
      exact ⟨hwaiting.symm, hgains.file _ (hfile _ rfl)⟩

/-- Nothing is written when an output without anything that waits for a file is flushed. -/
theorem flush_ready (h : o.Ready r.disk) :
    r.Serves o Disk.nothing ((r.flush o).1, (r.flush o).2.1) := by
  cases hdest : o.destination with
  | console =>
      rw [flush_console hdest]
      exact ⟨.refl r, rfl, h⟩
  | file place waiting =>
      have hserves := flush_serves hdest fun names hplace => by
        subst hplace
        exact (h names waiting hdest).2
      have hnone : (fun names => if place = .file names then waiting else []) = Disk.nothing := by
        funext names
        split
        · rename_i hplace
          subst hplace
          exact (h names waiting hdest).1
        · rfl
      rwa [hnone] at hserves

/-- A line goes to the end of the file of an output if it passes the output and can be written. -/
theorem emit_ready (h : o.Ready r.disk) :
    r.Serves o (o.gain occasion l) (r.emit occasion l o) := by
  have hidle (lost : Bool) (console : Text) (hnone : o.gain occasion l = Disk.nothing) :
      r.Serves o (o.gain occasion l) ({ r with lost, console }, o) := by
    rw [hnone]
    exact ⟨⟨.refl _, rfl, rfl⟩, rfl, h⟩
  unfold emit
  split
  · exact hidle r.lost r.console (Output.gain_of_lt ‹_›)
  rename_i hpass
  split
  · rename_i hrender
    exact hidle true r.console (Output.gain_of_none (by rw [Output.bytes?, hrender]; rfl))
  rename_i text hrender
  split
  · exact hidle r.lost _ (Output.gain_console ‹_›)
  rename_i place waiting hdest
  split
  · rename_i hencode
    refine hidle true r.console (Output.gain_of_none ?_)
    rw [Output.bytes?, hrender, Option.bind_some, hencode]
    rfl
  rename_i bytes hencode
  have hbytes : o.bytes? occasion l = some bytes := by
    rw [Output.bytes?, hrender, Option.bind_some, hencode]
    rfl
  -- what is flushed is what waited already, which is nothing for a file, and then the line
  let filled : Output := { o with destination := .file place (waiting ++ bytes) }
  have hserves : r.Serves filled _ ((r.flush filled).1, (r.flush filled).2.1) :=
    flush_serves rfl fun names hplace => (h names waiting (hplace ▸ hdest)).2
  have hgain : (fun names => if place = .file names then waiting ++ bytes else []) =
      o.gain occasion l := by
    rw [Output.gain_file hdest (Nat.le_of_not_lt hpass) hbytes]
    funext names
    split
    · rename_i hplace
      rw [(h names waiting (hplace ▸ hdest)).1, List.nil_append]
    · rfl
  rw [hgain] at hserves
  obtain ⟨hputs, hsettled, hready⟩ := hserves
  have hsettled := hsettled.trans (Output.settled_file hdest)
  split <;> rename_i hflush <;> rw [hflush] at hputs hsettled hready
  · exact ⟨hputs, hsettled, hready⟩
  · exact ⟨⟨hputs.gains, hputs.root, hputs.entries⟩, hsettled, hready⟩

/-- What the files gain when a line goes to several outputs. -/
def gains (occasion : Layout.Occasion) (l : Line) (outputs : List Output) (names : List Text) :
    Bytes :=
  outputs.flatMap fun o => o.gain occasion l names

theorem emitAll_ready {outputs : List Output} (h : ∀ o ∈ outputs, o.Ready r.disk) :
    r.Puts (gains occasion l outputs) (emitAll occasion l r outputs).1 ∧
      (emitAll occasion l r outputs).2.map Output.settled = outputs.map Output.settled ∧
      ∀ o ∈ (emitAll occasion l r outputs).2, o.Ready (emitAll occasion l r outputs).1.disk := by
  induction outputs generalizing r with
  | nil => exact ⟨.refl r, rfl, nofun⟩
  | cons o outputs ih =>
      have hfirst : r.Serves o (o.gain occasion l) (r.emit occasion l o) :=
        emit_ready (h o List.mem_cons_self)
      have hrest (o' : Output) (ho' : o' ∈ outputs) : o'.Ready (r.emit occasion l o).1.disk :=
        (h o' (List.mem_cons_of_mem _ ho')).of_isFile hfirst.puts.gains.file
      obtain ⟨hputs, hsettled, hready⟩ := ih hrest
      refine ⟨hfirst.puts.trans hputs, ?_, ?_⟩
      · rw [emitAll]
        simp only [List.map_cons, hfirst.settled, hsettled]
      · intro o' ho'
        rw [emitAll] at ho' ⊢
        rcases List.mem_cons.mp ho' with rfl | ho'
        · exact hfirst.ready.of_isFile hputs.gains.file
        · exact hready o' ho'

end Registry

end Journal

end CommandRelay
