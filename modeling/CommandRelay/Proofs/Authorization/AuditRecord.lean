import CommandRelay.Authorization.Audit
import CommandRelay.Proofs.Document.JsonNesting

/-!
# Records of the audit trail

An event is noted as one message if the writer has room for the depth of its record, and not at all
otherwise. Whatever the fields of an event hold, no control character stands in its message, so it
is one line of its own between whatever stands above and below it, and a reader takes the record of
the event back from it, field by field in their order (`line_readable`).

## Implementation notes

Writers and readers have each their own room, since it depends on the calls around them. The message
is therefore written with any room and read with any room, and by the reader of documents where the
record does not exceed the room that this one has.
-/

namespace CommandRelay

namespace Text

theorem splitOn_ne_nil (mark : Point) (t : Text) : t.splitOn mark ≠ [] := by
  cases t with
  | nil => simp [splitOn]
  | cons p t =>
      rw [splitOn]
      split
      · split <;> simp
      · simp

/-- A mark at the front ends an empty part. -/
theorem splitOn_mark (mark : Point) (t : Text) :
    splitOn mark (mark :: t) = [] :: t.splitOn mark := by
  rw [splitOn]
  split
  · rename_i part parts h
    rw [if_pos rfl, h]
  · rename_i h
    exact absurd h (splitOn_ne_nil mark t)

/-- Another point belongs to the part at the front. -/
theorem splitOn_cons {mark p : Point} (hp : p ≠ mark) {t part : Text} {parts : List Text}
    (h : t.splitOn mark = part :: parts) : splitOn mark (p :: t) = (p :: part) :: parts := by
  rw [splitOn, h]
  simp [hp]

/-- The parts in front of a mark are found as if nothing followed it. -/
theorem splitOn_append (mark : Point) (t rest : Text) :
    splitOn mark (t ++ mark :: rest) = t.splitOn mark ++ rest.splitOn mark := by
  induction t with
  | nil => exact splitOn_mark mark rest
  | cons p t ih =>
      by_cases hp : p = mark
      · subst hp
        calc
          splitOn p (p :: (t ++ p :: rest)) = [] :: splitOn p (t ++ p :: rest) :=
            splitOn_mark p _
          _ = ([] :: splitOn p t) ++ splitOn p rest := by rw [ih, List.cons_append]
          _ = splitOn p (p :: t) ++ splitOn p rest := by rw [splitOn_mark]
      · obtain ⟨part, parts, hparts⟩ := List.exists_cons_of_ne_nil (splitOn_ne_nil mark t)
        rw [hparts] at ih
        calc
          splitOn mark (p :: (t ++ mark :: rest)) = (p :: part) :: (parts ++ splitOn mark rest) :=
            splitOn_cons hp ih
          _ = splitOn mark (p :: t) ++ splitOn mark rest := by
            rw [splitOn_cons hp hparts, List.cons_append]

theorem splitOn_of_notMem {mark : Point} {t : Text} (h : mark ∉ t) : t.splitOn mark = [t] := by
  induction t with
  | nil => rfl
  | cons p t ih =>
      obtain ⟨hp, ht⟩ : mark ≠ p ∧ mark ∉ t := by simpa using h
      exact splitOn_cons (Ne.symm hp) (ih ht)

end Text

namespace AuditEvent

/-- What the fields of an event hold is written exactly, at any depth. -/
structure IsExact (e : AuditEvent) : Prop where
  timestamp : Json.IsExact e.timestamp
  resource : Json.IsExact e.resource
  severity : Json.IsExact e.severity
  details : Json.IsExact e.details

/-- The names of the fields of a record, in order. -/
def fieldNames : List Text :=
  ["security_event", "timestamp", "resource", "severity", "details"]

theorem IsExact.record {e : AuditEvent} (h : e.IsExact) : Json.IsExact (.object e.record) := by
  have hnames : e.record.map Prod.fst = fieldNames := rfl
  refine .object ?_ ?_ ?_
  · rw [hnames]
    decide
  · intro f hf
    have hwhole : ∀ name ∈ fieldNames, name.isWhole = true := by decide
    exact hwhole f.1 (hnames ▸ List.mem_map_of_mem hf)
  · intro f hf
    simp only [AuditEvent.record, List.mem_cons, List.not_mem_nil, or_false] at hf
    rcases hf with rfl | rfl | rfl | rfl | rfl
    · refine .string ?_
      cases e.decision <;> decide
    · exact h.timestamp
    · exact h.resource
    · exact h.severity
    · exact h.details

/-- The depth of the record decides whether a writer can note an event. -/
theorem lineWithin_of_le {e : AuditEvent} {room : Nat}
    (h : (Value.object e.record).depth ≤ room) : e.lineWithin room = .ok e.line := by
  rw [lineWithin, Json.writeWithin_eq, Json.allowing, if_pos h]
  rfl

theorem lineWithin_of_lt {e : AuditEvent} {room : Nat}
    (h : room < (Value.object e.record).depth) : e.lineWithin room = .error .tooDeep := by
  rw [lineWithin, Json.writeWithin_eq, Json.allowing, if_neg (Nat.not_le.mpr h)]
  rfl

/-- An event is noted as one message if the writer has room for the depth of its record, and else it
is refused. The message holds no control character. So it is one line wherever it stands, and the
record of the event is read from it: its five fields in their order, with their values, by every
reader that has room for the depth of the record. -/
theorem line_readable (e : AuditEvent) (h : e.IsExact) (room : Nat) :
    let record : Value := .object
      [("security_event", .string e.decision.eventName), ("timestamp", e.timestamp),
        ("resource", e.resource), ("severity", e.severity), ("details", e.details)]
    ((∃ line, e.lineWithin room = .ok line) ↔ record.depth ≤ room) ∧
    (e.lineWithin room = .error .tooDeep ↔ room < record.depth) ∧
    ∀ line, e.lineWithin room = .ok line →
      (∀ p ∈ line.text, 0x20 ≤ p.code) ∧
      (∀ above below : Text,
        Text.splitOn '\n' (above ++ .char '\n' :: (line.text ++ .char '\n' :: below)) =
          Text.splitOn '\n' above ++ line.text :: Text.splitOn '\n' below) ∧
      (∀ place, record.depth ≤ place → Json.documentWithin place line.text = .ok record) ∧
      (record.depth ≤ Json.nestingLimit → Json.readText line.text = .ok record) := by
  intro record
  rcases Nat.lt_or_ge room record.depth with hdeep | hdepth
  · have herror : e.lineWithin room = .error .tooDeep := lineWithin_of_lt hdeep
    simp [herror, hdeep]
  have hline : e.lineWithin room = .ok e.line := lineWithin_of_le hdepth
  have hrecord : Json.IsExact record := h.record
  have hstands : ∀ p ∈ e.line.text, 0x20 ≤ p.code := fun p hp =>
    ((hrecord.portable (Nat.le_refl _)).stands p hp).2
  refine ⟨by simp [hline, hdepth], by simp [hline, hdepth], ?_⟩
  intro line heq
  obtain rfl : e.line = line := Except.ok.inj (hline.symm.trans heq)
  refine ⟨hstands, ?_, ?_, ?_⟩
  · intro above below
    have hfeed : Point.char '\n' ∉ e.line.text := fun hmem =>
      absurd (hstands _ hmem) (by decide)
    rw [Text.splitOn_append, Text.splitOn_append, Text.splitOn_of_notMem hfeed,
      List.singleton_append]
  · intro place hplace
    exact Json.documentWithin_write (hrecord.portable hplace)
  · intro hplace
    exact Json.readText_write (hrecord.portable hplace)

/-- A name that ends its line and begins a record of its own, and details in which nests stand in
each other. -/
def disguised : AuditEvent where
  decision := .denied
  resource := .string "rm\n\x7b\"security_event\": \"command.allowed\"\x7d"
  details := .object [("allowed", .list [.list [.int (-12), .null], .object []]),
    ("\x1b", .bool false)]
  severity := .string "warning"
  timestamp := .string "2024-01-01T00:00:00+00:00"

theorem isExact_disguised : disguised.IsExact where
  timestamp := .string (by decide)
  resource := .string (by decide)
  severity := .string (by decide)
  details := by
    have hpair : Json.IsExact (.list [.int (-12), .null]) := by
      refine .list ?_
      rw [List.forall_mem_cons, List.forall_mem_singleton]
      exact ⟨.int (by decide), .null⟩
    have hlist : Json.IsExact (.list [.list [.int (-12), .null], .object []]) := by
      refine .list ?_
      rw [List.forall_mem_cons, List.forall_mem_singleton]
      exact ⟨hpair, .object (by decide) (by simp) (by simp)⟩
    refine .object (by decide) ?_ ?_ <;> rw [List.forall_mem_cons, List.forall_mem_singleton]
    · decide
    · exact ⟨hlist, .bool false⟩

/-- A record in disguise is part of one line, and of the record that is read from it. -/
theorem line_readable_disguised :
    disguised.lineWithin Json.writingLimit = .ok disguised.line ∧
    (∀ above below : Text,
      Text.splitOn '\n' (above ++ .char '\n' :: (disguised.line.text ++ .char '\n' :: below)) =
        Text.splitOn '\n' above ++ disguised.line.text :: Text.splitOn '\n' below) ∧
      Json.readText disguised.line.text = .ok (.object disguised.record) := by
  have hline : disguised.lineWithin Json.writingLimit = .ok disguised.line :=
    lineWithin_of_le (by decide)
  obtain ⟨-, -, hmessage⟩ := line_readable disguised isExact_disguised Json.writingLimit
  obtain ⟨-, hone, -, hread⟩ := hmessage disguised.line hline
  exact ⟨hline, hone, hread (by decide)⟩

/-- A name that is let through, with 990 lists in each other as its details. -/
def overnested : AuditEvent where
  decision := .allowed
  resource := .string "ls"
  details := .object [("a", .nestedList 989)]
  timestamp := .string "2024-01-01T00:00:00+00:00"

theorem isExact_overnested : overnested.IsExact where
  timestamp := .string (by decide)
  resource := .string (by decide)
  severity := .string (by decide)
  details := by
    refine .object (by decide) ?_ ?_ <;> rw [List.forall_mem_singleton]
    · decide
    · exact Json.isExact_nestedList 989

/-- No message is noted of an event that is nested deeper than the writer of the journals goes. -/
theorem line_refused_overnested :
    overnested.IsExact ∧ overnested.lineWithin Json.writingLimit = .error .tooDeep := by
  have hdepth : (Value.object overnested.record).depth = 992 := by
    simp only [AuditEvent.record, overnested, Value.depth, Value.depthOfFields,
      Value.depth_nestedList]
    rfl
  refine ⟨isExact_overnested, lineWithin_of_lt ?_⟩
  rw [hdepth]
  decide

end AuditEvent

/-- What an authorizer has noted is never nested too deep for a writer with room for three. -/
theorem Authorizer.lineWithin_event (a : Authorizer) (timestamp name : Text) {room : Nat}
    (h : 3 ≤ room) :
    (a.event timestamp name).lineWithin room = .ok (a.event timestamp name).line := by
  have hnames : Value.depthOfItems (a.allowed.map .string) = 0 := by
    induction a.allowed with
    | nil => rfl
    | cons n names ih => rw [List.map_cons, Value.depthOfItems, ih]; rfl
  have hdepth : (Value.object (a.event timestamp name).record).depth ≤ 3 := by
    unfold event
    split <;> simp [AuditEvent.record, Value.depth, Value.depthOfFields, hnames]
  exact AuditEvent.lineWithin_of_le (Nat.le_trans hdepth h)

end CommandRelay
