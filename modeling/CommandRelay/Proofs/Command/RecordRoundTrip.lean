import CommandRelay.Command.Record
import CommandRelay.Proofs.Document.JsonRoundTrip

/-!
# Commands travel unchanged

A command of which no text holds half of a pair has a record, and whichever way the record travels,
as an object, as text or as bytes, it is decoded as that command (`decode_record`).
-/

namespace CommandRelay

/-- Texts pass for a list of texts. -/
theorem Record.checkTexts_map_string (ts : List Text) :
    checkTexts (.list (ts.map .string)) = .ok ts := by
  have hitems (first : Nat) : Checked.items checkText first (ts.map .string) = .ok ts := by
    induction ts generalizing first with
    | nil => rfl
    | cons t ts ih =>
        rw [List.map_cons, Checked.items, ih]
        rfl
  exact hitems 0

namespace Command

/-- No half stands alone in a text of a command. -/
def IsWhole (c : Command) : Prop :=
  ∀ t ∈ c.argv ++ [c.stdoutTarget, c.stderrTarget], t.isWhole = true

variable {c : Command}

theorem IsWhole.ofFields (h : c.IsWhole) : Record.ofFields c.recordFields = .ok c := by
  have hname : Record.checkName (.string c.name) = .ok ⟨c.name, c.name_ne⟩ := by
    have hwhole : c.name.isWhole = true := h c.name (by simp [argv])
    simp [Record.checkName, Record.checkText, hwhole, c.name_ne]
  have hfirst : Record.required c.recordFields "name" Record.checkName =
      .ok ⟨c.name, c.name_ne⟩ := congrArg (Checked.under _) hname
  have hsecond : Record.required c.recordFields "args" Record.checkTexts = .ok c.args :=
    congrArg (Checked.under _) (Record.checkTexts_map_string c.args)
  rw [Record.ofFields, hfirst, hsecond]
  rfl

theorem IsWhole.portable (h : c.IsWhole) :
    Json.Portable Json.nestingLimit (.object c.recordFields) := by
  have hkeys : (c.recordFields.map Prod.fst).Nodup := by
    simp only [recordFields, List.map_cons, List.map_nil]
    decide
  have hargs (room : Nat) : Json.Portable (room + 1) (.list (c.args.map .string)) := by
    refine .list fun v hv => ?_
    obtain ⟨t, ht, rfl⟩ := List.mem_map.mp hv
    exact .string (h t (by simp [argv, ht]))
  change Json.Portable (988 + 1 + 1) _
  refine .object hkeys ?_ ?_
  · simp only [recordFields, List.forall_mem_cons]
    decide
  · simp only [recordFields, List.forall_mem_cons]
    refine ⟨.string (h _ ?_), hargs 988, .string (h _ ?_), .string (h _ ?_), nofun⟩ <;>
      simp [argv]

/-- A command of which no text holds half of a pair has a record, and it is decoded as that command
whether it comes as an object, as text or as bytes. -/
theorem decode_record (h : c.IsWhole) :
    c.toRecord = .ok (.object c.recordFields) ∧
      decode (.value (.object c.recordFields)) = .ok c ∧
      ∃ text bytes, c.toRecordText = .ok text ∧ decode (.text text) = .ok c ∧
        Utf8.encode text = .ok bytes ∧ c.toRecordBytes = .ok bytes ∧
        decode (.bytes bytes) = .ok c := by
  have hvalue : ofValue (.object c.recordFields) = .ok c := by
    rw [ofValue, h.ofFields]
    rfl
  have hrecord : c.toRecord = .ok (.object c.recordFields) := by
    rw [toRecord, h.ofFields]
    rfl
  have htext : c.toRecordText = .ok (Json.write (.object c.recordFields)) := by
    rw [toRecordText, hrecord]
    rfl
  obtain ⟨bytes, hencode, hbytes⟩ := Json.readBytes_write h.portable
  refine ⟨hrecord, hvalue, _, bytes, htext, ?_, hencode, ?_, ?_⟩
  · rw [decode, Json.readText_write h.portable]
    exact hvalue
  · rw [toRecordBytes, htext]
    exact congrArg (Except.mapError RecordFault.unencodable) hencode
  · rw [decode, hbytes]
    exact hvalue

/-- A command with a quote and a backslash, an empty argument, a zero character and one beyond the
sixteen bits. -/
def peculiar : Command where
  name := "é\"\\"
  args := ["", "\x00𝄞"]
  name_ne := by decide

theorem decode_record_peculiar :
    peculiar.IsWhole ∧
      ∃ text bytes, peculiar.toRecordText = .ok text ∧ peculiar.toRecordBytes = .ok bytes ∧
        text = Text.ofString ("\x7b\"name\": \"é\\\"\\\\\", \"args\": [\"\", \"\\u0000𝄞\"], " ++
          "\"stdoutFile\": \"\", \"stderrFile\": \"\"\x7d") ∧
        decode (.text text) = .ok peculiar ∧ decode (.bytes bytes) = .ok peculiar := by
  have hwhole : peculiar.IsWhole := by
    unfold IsWhole
    decide
  obtain ⟨hrecord, -, text, bytes, htext, hdecode, -, hbytes, hdecode'⟩ := decode_record hwhole
  have hshown : text = Json.write (.object peculiar.recordFields) := by
    rw [toRecordText, hrecord] at htext
    exact (Except.ok.inj htext).symm
  refine ⟨hwhole, text, bytes, htext, hbytes, hshown.trans ?_, hdecode, hdecode'⟩
  decide +kernel

end Command

end CommandRelay
