import CommandRelay.Proofs.Configuration.Acceptance
import CommandRelay.Configuration.Load

/-!
# What can become of a settings file

Whatever a file system answers, and whatever a file holds, loading gives settings that the check
accepts for the value in the file, or a failure that is put down to the file and names its path
(`settings_of_file`). The one exception is a document whose values stand too deep in each other.

## Implementation notes

`FileSystem.Holds` says which value a file holds without the reader, and `LoadFault.Arises` lists
what can be wrong with a file. Both come out of one inversion of `readFile`.
-/

namespace CommandRelay

/-! ## Refusals -/

/-- A refusal that a system can give: an error with a number, or a path that never gets to it. -/
inductive AccessFault.IsRefusal : AccessFault → Prop
  | coded (number : Int) (text : Text) (path : Option Text) :
      IsRefusal (.system (.coded number text path))
  | unencodable (error : EncodeError) : IsRefusal (.unencodable error)
  | invalid (message : Text) : IsRefusal (.invalid message)

theorem ErrorKind.isA_self (k : ErrorKind) : k.isA k = true := by
  rw [isA, lineage]
  split <;> simp

theorem ErrorKind.isA_of_parent {k p base : ErrorKind} (hk : k.parent? = some p)
    (hp : p.isA base = true) : k.isA base = true := by
  rw [isA, lineage]
  split
  · rename_i hnone
    rw [hnone] at hk
    cases hk
  · rename_i q hq
    obtain rfl := Option.some.inj (hq.symm.trans hk)
    simp only [List.contains_cons, Bool.or_eq_true]
    exact .inr hp

theorem ErrorKind.isA_ite {p : Prop} [Decidable p] {a b base : ErrorKind}
    (ha : a.isA base = true) (hb : b.isA base = true) :
    (if p then a else b).isA base = true := by
  split
  · exact ha
  · exact hb

/-- Whatever its number is, an error of the system is one. -/
theorem SystemError.isA_kindOfNumber (number : Int) :
    (kindOfNumber number).isA .system = true := by
  have hself := ErrorKind.isA_self .system
  have hconnection : ErrorKind.connection.isA .system = true := ErrorKind.isA_of_parent rfl hself
  unfold kindOfNumber
  repeat' apply ErrorKind.isA_ite
  all_goals first
    | exact ErrorKind.isA_of_parent rfl hself
    | exact ErrorKind.isA_of_parent rfl hconnection
    | exact hself

theorem AccessFault.IsRefusal.isA {fault : AccessFault} (h : fault.IsRefusal) :
    fault.kind.isA .system = true ∨ fault.kind.isA .value = true := by
  have hself := ErrorKind.isA_self .value
  have hunicode : ErrorKind.unicode.isA .value = true := ErrorKind.isA_of_parent rfl hself
  cases h with
  | coded number => exact .inl (SystemError.isA_kindOfNumber number)
  | unencodable => exact .inr (ErrorKind.isA_of_parent rfl hunicode)
  | invalid => exact .inr hself

theorem Path.isRefusal_of_fault? {path : Text} {fault : AccessFault}
    (h : Path.fault? path = some fault) : fault.IsRefusal := by
  unfold fault? at h
  split at h
  · obtain rfl := Option.some.inj h
    exact .unencodable _
  · split at h
    · obtain rfl := Option.some.inj h
      exact .invalid _
    · cases h

namespace Disk

variable {d : Disk} {path : Text} {e : SystemError}

theorem isRefusal_of_followOuter {names parts : List Text}
    (h : d.followOuter path names parts = .error e) : (AccessFault.system e).IsRefusal := by
  induction parts generalizing names with
  | nil =>
      rw [followOuter] at h
      cases h
  | cons part rest ih =>
      rw [followOuter] at h
      split at h
      · split at h
        · obtain rfl := Except.error.inj h
          exact .coded ..
        · split at h
          · exact ih h
          · split at h
            · exact ih h
            · split at h
              · obtain rfl := Except.error.inj h
                exact .coded ..
              · exact ih h
      · obtain rfl := Except.error.inj h
        exact .coded ..

theorem isRefusal_of_follow {names parts : List Text} (h : d.follow path names parts = .error e) :
    (AccessFault.system e).IsRefusal := by
  induction parts generalizing names with
  | nil =>
      rw [follow] at h
      split at h <;> cases h
  | cons part rest ih =>
      rw [follow] at h
      split at h
      · split at h
        · exact ih h
        · split at h
          · split at h
            · split at h
              · cases h
              · obtain rfl := Except.error.inj h
                exact .coded ..
            · exact ih h
          · split at h
            · obtain rfl := Except.error.inj h
              exact .coded ..
            · exact ih h
      · obtain rfl := Except.error.inj h
        exact .coded ..
      · obtain rfl := Except.error.inj h
        exact .coded ..

theorem isRefusal_of_locate (h : d.locate path = .error e) : (AccessFault.system e).IsRefusal := by
  unfold locate at h
  split at h
  · obtain rfl := Except.error.inj h
    exact .coded ..
  · split at h
    · obtain rfl := Except.error.inj h
      exact .coded ..
    · split at h
      · exact isRefusal_of_followOuter h
      · exact isRefusal_of_follow h

end Disk

namespace Configuration

/-- A file system that fails in no other way than systems do. -/
structure FileSystem.IsPlain (fs : FileSystem) : Prop where
  status : ∀ path fault, fs.status path = .error fault → fault.IsRefusal
  read : ∀ path fault, fs.read path = .error fault → fault.IsRefusal

theorem FileSystem.isPlain_ofDisk (d : Disk) : (FileSystem.ofDisk d).IsPlain where
  status path fault h := by
    simp only [ofDisk, Disk.status] at h
    split at h
    · obtain rfl := Except.error.inj h
      exact Path.isRefusal_of_fault? ‹_›
    · split at h
      · obtain rfl := Except.error.inj h
        exact Disk.isRefusal_of_locate ‹_›
      · obtain rfl := Except.error.inj h
        exact .coded ..
      · cases h
  read path fault h := by
    simp only [ofDisk, Disk.read] at h
    split at h
    · obtain rfl := Except.error.inj h
      exact Path.isRefusal_of_fault? ‹_›
    · split at h
      · obtain rfl := Except.error.inj h
        exact Disk.isRefusal_of_locate ‹_›
      · cases h
      all_goals first
        | obtain rfl := Except.error.inj h
          exact .coded ..
        | cases h

/-! ## Reading -/

variable {fs : FileSystem} {path : Text} {v : Value} {fault : LoadFault}

/-- A file that holds a value: it is there and can be read, and what it holds is a document of the
format that its ending names. -/
inductive FileSystem.Holds (fs : FileSystem) (path : Text) : Value → Prop
  | toml {bytes : Bytes} {v : Value} (hstatus : fs.status (Path.plain path) = .ok ())
      (hending : Path.lowerEnding (Path.plain path) = ".toml")
      (hread : fs.read (Path.plain path) = .ok bytes) (hvalue : Toml.readBytes bytes = .ok v) :
      Holds fs path v
  | json {bytes : Bytes} {t : Text} {v : Value} (hstatus : fs.status (Path.plain path) = .ok ())
      (hending : Path.lowerEnding (Path.plain path) = ".json")
      (hread : fs.read (Path.plain path) = .ok bytes) (htext : Utf8.decode bytes = .ok t)
      (hvalue : Json.readText (unifyLineEnds t) = .ok v) : Holds fs path v

/-- What can be wrong with a file that is to be read. -/
inductive LoadFault.Arises : LoadFault → Prop
  | missing (path : Text) : Arises (.missing path)
  | access {fault : AccessFault} (h : fault.IsRefusal) : Arises (.access fault)
  | ending (suffix : Text) : Arises (.ending suffix)
  | json (error : Json.ReadError) : Arises (.json error)
  | toml (error : Toml.ReadError) : Arises (.toml error)
  | undecodable (error : DecodeError) : Arises (.undecodable error)
  | defective (schema : String) (defects : List Defect) : Arises (.defective schema defects)

/-- Whether values stand too deep in each other. -/
def LoadFault.isTooDeep : LoadFault → Bool
  | .json (.tooDeep _) | .toml .tooDeep => true
  | _ => false

theorem LoadFault.kind_of_isTooDeep (h : fault.isTooDeep = true) : fault.kind = .recursion := by
  unfold isTooDeep at h
  split at h
  · rfl
  · rfl
  · cases h

theorem lookFor_eq_ok_iff : lookFor fs path = .ok () ↔ fs.status path = .ok () := by
  unfold lookFor
  split
  · rename_i h
    exact iff_of_true rfl h
  · rename_i h
    split <;> exact iff_of_false nofun (h ▸ nofun)
  · rename_i h
    exact iff_of_false nofun (h ▸ nofun)

theorem arises_of_lookFor (hfs : fs.IsPlain) (h : lookFor fs path = .error fault) :
    fault.Arises := by
  unfold lookFor at h
  split at h
  · cases h
  · split at h <;> obtain rfl := Except.error.inj h
    · exact .missing path
    · exact .access (hfs.status path _ ‹_›)
  · obtain rfl := Except.error.inj h
    exact .missing path

theorem bind_eq_error_iff {ε α β : Type} {a : Except ε α} {f : α → Except ε β} {e : ε} :
    (a >>= f) = .error e ↔ a = .error e ∨ ∃ x, a = .ok x ∧ f x = .error e := by
  cases a with
  | error e' =>
      constructor
      · intro h
        exact .inl (congrArg Except.error (Except.error.inj h))
      · rintro (h | ⟨x, hx, -⟩)
        · exact congrArg Except.error (Except.error.inj h)
        · cases hx
  | ok x =>
      constructor
      · intro h
        exact .inr ⟨x, rfl, h⟩
      · rintro (h | ⟨_, hx, h⟩)
        · cases h
        · exact Except.ok.inj hx ▸ h

theorem mapError_eq_ok_iff {ε ε' α : Type} {g : ε → ε'} {a : Except ε α} {x : α} :
    a.mapError g = .ok x ↔ a = .ok x := by
  cases a with
  | ok y =>
      change Except.ok y = Except.ok x ↔ _
      simp
  | error e =>
      change Except.error (g e) = Except.ok x ↔ _
      simp

theorem mapError_eq_error_iff {ε ε' α : Type} {g : ε → ε'} {a : Except ε α} {e : ε'} :
    a.mapError g = .error e ↔ ∃ e', a = .error e' ∧ g e' = e := by
  cases a with
  | ok y =>
      change Except.ok y = Except.error e ↔ _
      simp
  | error e' =>
      change Except.error (g e') = Except.error e ↔ _
      simp

theorem readJson_eq_ok_iff {bytes : Bytes} :
    readJson bytes = .ok v ↔
      ∃ t, Utf8.decode bytes = .ok t ∧ Json.readText (unifyLineEnds t) = .ok v := by
  unfold readJson
  cases Utf8.decode bytes with
  | error e => exact iff_of_false nofun nofun
  | ok t => simp [mapError_eq_ok_iff]

theorem arises_of_readJson {bytes : Bytes} (h : readJson bytes = .error fault) :
    fault.Arises := by
  unfold readJson at h
  split at h
  · obtain rfl := Except.error.inj h
    exact .undecodable _
  · obtain ⟨e, -, rfl⟩ := mapError_eq_error_iff.mp h
    exact .json e

theorem readFile_eq_ok_iff : readFile fs path = .ok v ↔ fs.Holds path v := by
  constructor
  · intro h
    obtain ⟨⟨⟩, hstatus, h⟩ := bind_eq_ok_iff.mp h
    have hstatus := lookFor_eq_ok_iff.mp hstatus
    dsimp only at h
    split at h
    · rename_i hending
      obtain ⟨bytes, hread, h⟩ := bind_eq_ok_iff.mp h
      exact .toml hstatus hending (mapError_eq_ok_iff.mp hread) (mapError_eq_ok_iff.mp h)
    · split at h
      · rename_i hending
        obtain ⟨bytes, hread, h⟩ := bind_eq_ok_iff.mp h
        obtain ⟨t, htext, h⟩ := readJson_eq_ok_iff.mp h
        exact .json hstatus hending (mapError_eq_ok_iff.mp hread) htext h
      · cases h
  · intro h
    cases h with
    | toml hstatus hending hread hvalue =>
        refine bind_eq_ok_iff.mpr ⟨(), lookFor_eq_ok_iff.mpr hstatus, ?_⟩
        rw [if_pos hending, hread]
        exact mapError_eq_ok_iff.mpr hvalue
    | json hstatus hending hread htext hvalue =>
        refine bind_eq_ok_iff.mpr ⟨(), lookFor_eq_ok_iff.mpr hstatus, ?_⟩
        have hne : Path.lowerEnding (Path.plain path) ≠ ".toml" := hending ▸ by decide
        rw [if_neg hne, if_pos hending, hread]
        exact readJson_eq_ok_iff.mpr ⟨_, htext, hvalue⟩

theorem arises_of_readFile (hfs : fs.IsPlain) (h : readFile fs path = .error fault) :
    fault.Arises := by
  have haccess {r : Except AccessFault Bytes} (hr : fs.read (Path.plain path) = r)
      (h : r.mapError LoadFault.access = .error fault) : fault.Arises := by
    obtain ⟨e, rfl, rfl⟩ := mapError_eq_error_iff.mp h
    exact .access (hfs.read _ e hr)
  rcases bind_eq_error_iff.mp h with h | ⟨⟨⟩, -, h⟩
  · exact arises_of_lookFor hfs h
  · dsimp only at h
    split at h
    · rcases bind_eq_error_iff.mp h with h | ⟨bytes, -, h⟩
      · exact haccess rfl h
      · obtain ⟨e, -, rfl⟩ := mapError_eq_error_iff.mp h
        exact .toml e
    · split at h
      · rcases bind_eq_error_iff.mp h with h | ⟨bytes, -, h⟩
        · exact haccess rfl h
        · exact arises_of_readJson h
      · obtain rfl := Except.error.inj h
        exact .ending _

/-! ## Loading -/

theorem settingsOf_eq_ok_iff {processors : Option Int} {s : Settings} :
    settingsOf processors fs (some path) = .ok s ↔
      ∃ v, fs.Holds path v ∧ Settings.check processors v = .ok s := by
  simp only [settingsOf, loadSettings, mapError_eq_ok_iff, bind_eq_ok_iff, readFile_eq_ok_iff]

theorem arises_of_settingsOf {processors : Option Int} {f : SettingsFault} (hfs : fs.IsPlain)
    (h : settingsOf processors fs (some path) = .error f) : f.path = path ∧ f.fault.Arises := by
  obtain ⟨fault, hload, rfl⟩ := mapError_eq_error_iff.mp h
  refine ⟨rfl, ?_⟩
  rcases bind_eq_error_iff.mp hload with h | ⟨v, -, h⟩
  · exact arises_of_readFile hfs h
  · obtain ⟨ds, -, rfl⟩ := mapError_eq_error_iff.mp h
    exact .defective Settings.schema ds

theorem isOfFile_of_isA {f : SettingsFault}
    (h : f.fault.kind.isA .system = true ∨ f.fault.kind.isA .value = true) : f.isOfFile = true := by
  unfold SettingsFault.isOfFile
  simpa only [Bool.or_eq_true] using h

theorem not_isOfFile_of_recursion {f : SettingsFault} (h : f.fault.kind = .recursion) :
    f.isOfFile = false := by
  unfold SettingsFault.isOfFile
  rw [h]
  simp [ErrorKind.isA, ErrorKind.lineage, ErrorKind.parent?]

/-- What is wrong with a file is put down to it, whatever it is, but for values that stand too deep
in each other. -/
theorem isOfFile_of_arises {f : SettingsFault} (h : f.fault.Arises) :
    f.isOfFile = !f.fault.isTooDeep := by
  obtain ⟨path, fault⟩ := f
  have hvalue := ErrorKind.isA_self .value
  have hdecode : ErrorKind.unicodeDecode.isA .value = true :=
    ErrorKind.isA_of_parent rfl (ErrorKind.isA_of_parent rfl hvalue)
  have hjson : ErrorKind.jsonDecode.isA .value = true := ErrorKind.isA_of_parent rfl hvalue
  have htoml : ErrorKind.tomlDecode.isA .value = true := ErrorKind.isA_of_parent rfl hvalue
  cases h with
  | missing =>
      exact isOfFile_of_isA (.inl (ErrorKind.isA_of_parent rfl (ErrorKind.isA_self .system)))
  | access h => exact isOfFile_of_isA h.isA
  | ending => exact isOfFile_of_isA (.inr hvalue)
  | json e =>
      cases e with
      | malformed => exact isOfFile_of_isA (.inr hjson)
      | integerTooLong => exact isOfFile_of_isA (.inr hvalue)
      | tooDeep => exact not_isOfFile_of_recursion rfl
      | undecodable => exact isOfFile_of_isA (.inr hdecode)
  | toml e =>
      cases e with
      | malformed => exact isOfFile_of_isA (.inr htoml)
      | integerTooLong => exact isOfFile_of_isA (.inr hvalue)
      | tooDeep => exact not_isOfFile_of_recursion rfl
      | undecodable => exact isOfFile_of_isA (.inr hdecode)
  | undecodable => exact isOfFile_of_isA (.inr hdecode)
  | defective => exact isOfFile_of_isA (.inr (ErrorKind.isA_of_parent rfl hvalue))

/-- Loading gives the settings that the check accepts for the value in the file, and nothing but
them; whatever else happens is a failure of the configuration file that names its path, unless
values stand too deep in each other. -/
theorem settings_of_file (processors : Option Int) {fs : FileSystem} (hfs : fs.IsPlain)
    (path : Text) :
    (∀ s, settingsOf processors fs (some path) = .ok s ↔
      ∃ v, fs.Holds path v ∧ Settings.check processors v = .ok s) ∧
    ∀ f, settingsOf processors fs (some path) = .error f →
      if f.fault.isTooDeep then f.kind = .recursion
      else f.kind = .configurationFile ∧
        f.message = "Configuration invalide (" ++ path ++ ") : " ++ f.fault.message := by
  refine ⟨fun s => settingsOf_eq_ok_iff, ?_⟩
  intro f h
  obtain ⟨rfl, harises⟩ := arises_of_settingsOf hfs h
  have hfile := isOfFile_of_arises harises
  cases hdeep : f.fault.isTooDeep with
  | true =>
      have hkind : f.kind = f.fault.kind := by simp [SettingsFault.kind, hfile, hdeep]
      rw [if_pos rfl, hkind]
      exact LoadFault.kind_of_isTooDeep hdeep
  | false =>
      rw [if_neg nofun]
      simp [SettingsFault.kind, SettingsFault.message, hfile, hdeep]

/-- A file that is there and must not be read. -/
def unreadable : FileSystem where
  status _ := .ok ()
  read path := .error (.system (.denied path))

/-- A directory with the name of a settings file. -/
def misnamed : Disk := ⟨[(["c.json"], .directory)]⟩

theorem settings_of_file_unreadable :
    (unreadable.IsPlain ∧ ∃ f, settingsOf (some 8) unreadable (some "./c.TOML") = .error f ∧
      f.kind = .configurationFile ∧
      f.message = "Configuration invalide (./c.TOML) : [Errno 13] Permission denied: 'c.TOML'") ∧
    (FileSystem.ofDisk misnamed).IsPlain ∧
      ∃ f, settingsOf (some 8) misnamed (some "c.json") = .error f ∧ f.kind = .configurationFile ∧
        f.message = "Configuration invalide (c.json) : [Errno 21] Is a directory: 'c.json'" := by
  have hplain : unreadable.IsPlain := ⟨nofun, fun path fault h => Except.error.inj h ▸ .coded ..⟩
  have hdisk := FileSystem.isPlain_ofDisk misnamed
  obtain ⟨-, hunreadable⟩ := settings_of_file (some 8) hplain "./c.TOML"
  obtain ⟨-, hmisnamed⟩ := settings_of_file (some 8) hdisk "c.json"
  exact ⟨⟨hplain, _, rfl, hunreadable _ rfl⟩, hdisk, _, rfl, hmisnamed _ rfl⟩

end Configuration

end CommandRelay
