import CommandRelay.Command.Record
import CommandRelay.Proofs.Document.JsonEncodings

/-!
# Records in every encoding

A text that is decoded as a command is decoded as the same command from its bytes, whatever the
encoding and whether a byte order mark stands in front or not (`decode_encoded`).
-/

namespace CommandRelay.Command

/-- A text that is decoded holds an object. -/
theorem exists_object_of_decode {t : Text} {c : Command} (h : decode (.text t) = .ok c) :
    ∃ fs, Json.readText t = .ok (.object fs) ∧ ofValue (.object fs) = .ok c := by
  obtain ⟨v, hread, hvalue⟩ := Json.exists_of_bind_eq_ok h
  cases hjson : Json.readText t with
  | error e =>
      rw [hjson] at hread
      cases hread
  | ok w =>
      rw [hjson] at hread
      obtain rfl := Except.ok.inj hread
      cases w with
      | object fs => exact ⟨fs, rfl, hvalue⟩
      | _ => cases hvalue

theorem decode_bytes_of_readBytes {bytes : Bytes} {v : Value} (h : Json.readBytes bytes = .ok v) :
    decode (.bytes bytes) = ofValue v := by
  rw [decode, h]
  rfl

/-- A text without lone halves that is decoded as a command is decoded as this command from its
bytes as well, in every encoding and with or without a byte order mark. -/
theorem decode_encoded {t : Text} {c : Command} (hwhole : t.isWhole = true)
    (h : decode (.text t) = .ok c) (e : Json.Encoding) :
    (∃ bytes, e.encode t = .ok bytes ∧ decode (.bytes bytes) = .ok c) ∧
      ∃ bytes, e.encode (Json.byteOrderMark :: t) = .ok bytes ∧
        decode (.bytes bytes) = .ok c := by
  obtain ⟨fs, hread, hvalue⟩ := exists_object_of_decode h
  obtain ⟨⟨plain, hplain, hplain'⟩, marked, hmarked, hmarked'⟩ :=
    Json.readBytes_encode e hwhole hread
  exact ⟨⟨plain, hplain, (decode_bytes_of_readBytes hplain').trans hvalue⟩, marked, hmarked,
    (decode_bytes_of_readBytes hmarked').trans hvalue⟩

/-- A record with a blank in front, a name beyond the sixteen bits and an escaped lone half. -/
def spacedRecord : Text :=
  Text.ofString ("\n\x7b\"name\": \"𝄞\", \"args\": [\"\\ud800\"], " ++
    "\"stdoutFile\": \"\", \"stderrFile\": \"\"\x7d")

/-- The command of this record. -/
def spacedCommand : Command where
  name := "𝄞"
  args := [[.half ⟨0, by decide⟩]]
  name_ne := by decide

theorem decode_encoded_spaced :
    spacedRecord.isWhole = true ∧ decode (.text spacedRecord) = .ok spacedCommand ∧
      ∀ e : Json.Encoding,
        (∃ bytes, e.encode spacedRecord = .ok bytes ∧
          decode (.bytes bytes) = .ok spacedCommand) ∧
        ∃ bytes, e.encode (Json.byteOrderMark :: spacedRecord) = .ok bytes ∧
          decode (.bytes bytes) = .ok spacedCommand := by
  have hwhole : spacedRecord.isWhole = true := by decide +kernel
  have hdecode : decode (.text spacedRecord) = .ok spacedCommand := by
    have hfound : (decode (.text spacedRecord)).toOption = some spacedCommand := by
      decide +kernel
    cases hread : decode (.text spacedRecord) with
    | error e =>
        rw [hread] at hfound
        cases hfound
    | ok c =>
        rw [hread] at hfound
        exact congrArg Except.ok (Option.some.inj hfound)
  exact ⟨hwhole, hdecode, fun e => decode_encoded hwhole hdecode e⟩

end CommandRelay.Command
