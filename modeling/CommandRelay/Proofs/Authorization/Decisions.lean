import CommandRelay.Proofs.Document.JsonScalars
import CommandRelay.Proofs.Execution.Staging
import CommandRelay.Worker.Serve
import Mathlib.Data.List.Lex
import Mathlib.Data.List.Sort

/-!
# Decisions and their record

A worker is asked about one executable after the other. Each question is answered by its authorizer
and noted in its journal as one event, and the two tell the same story (`Authorizer.Agrees`): who
passes, why, and which names would have passed. A whitelist counts as the set of its members, since
the listing of a whitelist is the only one that holds them in increasing order
(`IsListing.unique`). `answers_audited` says so of every row of questions.

## Implementation notes

The journal changes with each line that it takes, so a question is put to the worker that the ones
before it have left (`Worker.after`). A journal that refuses the line of a question answers it with
its own error, whatever the authorizer says.
-/

namespace CommandRelay

theorem Point.code_injective : Function.Injective Point.code := by
  intro p q h
  apply Option.some.inj
  rw [← Point.ofCode?_code p, ← Point.ofCode?_code q, h]

/-! ## The listing of a whitelist -/

namespace Text

/-- The strict order of texts by code points. -/
def Before (t u : Text) : Prop :=
  t.map Point.code < u.map Point.code

theorem precedes_iff (t u : Text) : t.precedes u = true ↔ t.Before u := by
  induction t generalizing u with
  | nil => cases u <;> simp [precedes, Before]
  | cons p t ih =>
      cases u with
      | nil => simp [precedes, Before]
      | cons q u =>
          simp only [precedes, Before, List.map_cons, List.cons_lt_cons_iff, Bool.or_eq_true,
            Bool.and_eq_true, decide_eq_true_eq, Point.code_injective.eq_iff]
          rw [ih]
          rfl

instance : Std.Irrefl Before where
  irrefl t := lt_irrefl (t.map Point.code)

instance : Std.Antisymm Before where
  antisymm _ _ h h' := absurd (lt_trans h h') (lt_irrefl _)

theorem Before.trans {t u v : Text} (h : t.Before u) (h' : u.Before v) : t.Before v :=
  lt_trans h h'

theorem before_of_not_before {t u : Text} (h : ¬ t.Before u) (hne : t ≠ u) : u.Before t := by
  refine lt_of_le_of_ne (not_lt.mp h) ?_
  intro heq
  exact hne (List.map_injective_iff.mpr Point.code_injective heq).symm

end Text

/-- A row of names that holds the members of a whitelist in increasing order, each once. -/
structure IsListing (names whitelist : List Text) : Prop where
  increasing : names.Pairwise Text.Before
  mem_iff : ∀ name, name ∈ names ↔ name ∈ whitelist

/-- Whitelists of the same members have one listing. -/
theorem IsListing.unique {names names' whitelist whitelist' : List Text}
    (h : IsListing names whitelist) (h' : IsListing names' whitelist')
    (hmem : ∀ name, name ∈ whitelist' ↔ name ∈ whitelist) : names' = names := by
  apply h'.increasing.eq_of_mem_iff h.increasing
  intro name
  rw [h'.mem_iff, h.mem_iff]
  exact hmem name

namespace Authorizer

theorem mem_insertName {x name : Text} {names : List Text} :
    x ∈ insertName name names ↔ x = name ∨ x ∈ names := by
  induction names with
  | nil => simp [insertName]
  | cons n rest ih =>
      rw [insertName]
      split
      · simp
      · split
        · rename_i heq
          simp [heq]
        · simp only [List.mem_cons, ih]
          exact or_left_comm

theorem pairwise_insertName (name : Text) {names : List Text} (h : names.Pairwise Text.Before) :
    (insertName name names).Pairwise Text.Before := by
  induction names with
  | nil => exact List.pairwise_singleton _ _
  | cons n rest ih =>
      obtain ⟨hn, hrest⟩ := List.pairwise_cons.mp h
      rw [insertName]
      split
      · rename_i hprecedes
        have hbefore : name.Before n := (Text.precedes_iff name n).mp hprecedes
        refine List.pairwise_cons.mpr ⟨?_, h⟩
        rw [List.forall_mem_cons]
        exact ⟨hbefore, fun x hx => hbefore.trans (hn x hx)⟩
      · rename_i hprecedes
        have hbefore : ¬ name.Before n := fun hb => hprecedes ((Text.precedes_iff name n).mpr hb)
        split
        · exact h
        · rename_i hne
          refine List.pairwise_cons.mpr ⟨?_, ih hrest⟩
          intro x hx
          rcases mem_insertName.mp hx with rfl | hx
          · exact Text.before_of_not_before hbefore hne
          · exact hn x hx

theorem isListing_allowed (a : Authorizer) : IsListing a.allowed a.whitelist := by
  unfold allowed
  induction a.whitelist with
  | nil => exact ⟨List.Pairwise.nil, fun _ => Iff.rfl⟩
  | cons n rest ih =>
      constructor
      · exact pairwise_insertName n ih.increasing
      · intro name
        rw [List.foldr_cons, mem_insertName, ih.mem_iff, List.mem_cons]

/-! ## What an answer and its event say -/

/-- What the answer to a question and the event of it say, as one. -/
structure Agrees (a : Authorizer) (name : Text) (answer : Except Failure Unit)
    (event : AuditEvent) : Prop where
  passes : answer = .ok () ↔ a.privileged = true ∨ name ∈ a.whitelist
  resource : event.resource = .string name
  privileged : event.decision.eventName = "command.privileged" ↔ a.privileged = true
  denied : event.decision.eventName = "command.denied" ↔ ∃ f, answer = .error f
  allowed : event.decision.eventName = "command.allowed" ↔
    answer = .ok () ∧ a.privileged = false
  listing : ∀ f, answer = .error f → ∃ names, IsListing names a.whitelist ∧
    f = .refused name names ∧ event.details = .object [("allowed", .list (names.map .string))]

section Decision

variable (a : Authorizer) (timestamp name : Text)

theorem decision_eq_privileged_iff : a.decision name = .privileged ↔ a.privileged = true := by
  unfold decision
  cases a.privileged with
  | true => simp
  | false =>
      simp only [Bool.false_eq_true, if_false]
      split <;> simp

theorem decision_eq_denied_iff : a.decision name = .denied ↔ ∃ f, a.check name = .error f := by
  unfold check
  cases a.decision name <;> simp

theorem decision_eq_allowed_iff :
    a.decision name = .allowed ↔ a.check name = .ok () ∧ a.privileged = false := by
  have hpriv := a.decision_eq_privileged_iff name
  rw [← Bool.not_eq_true, ← hpriv]
  unfold check
  cases a.decision name <;> simp

theorem event_resource : (a.event timestamp name).resource = .string name := by
  unfold event
  split <;> rfl

theorem event_decision : (a.event timestamp name).decision = a.decision name := by
  unfold event
  split <;> (rename_i h; exact h.symm)

theorem event_named_iff (d : Decision) :
    (a.event timestamp name).decision.eventName = d.eventName ↔ a.decision name = d := by
  rw [event_decision]
  cases a.decision name <;> cases d <;> decide

theorem event_details_of_denied (h : a.decision name = .denied) :
    (a.event timestamp name).details = .object [("allowed", .list (a.allowed.map .string))] := by
  unfold event
  rw [h]

theorem agrees : a.Agrees name (a.check name) (a.event timestamp name) where
  passes := Run.check_eq_ok_iff a name
  resource := a.event_resource timestamp name
  privileged :=
    (a.event_named_iff timestamp name .privileged).trans (a.decision_eq_privileged_iff name)
  denied := (a.event_named_iff timestamp name .denied).trans (a.decision_eq_denied_iff name)
  allowed := (a.event_named_iff timestamp name .allowed).trans (a.decision_eq_allowed_iff name)
  listing f hf := by
    have hdenied : a.decision name = .denied := (a.decision_eq_denied_iff name).mpr ⟨f, hf⟩
    refine ⟨a.allowed, a.isListing_allowed, ?_, a.event_details_of_denied timestamp name hdenied⟩
    rw [Run.check_eq_error hf]
    rfl

end Decision

/-- Authorizers of the same members. -/
structure Matches (a b : Authorizer) : Prop where
  privileged : b.privileged = a.privileged
  mem_iff : ∀ name, name ∈ b.whitelist ↔ name ∈ a.whitelist

namespace Matches

variable {a b : Authorizer}

theorem allowed_eq (h : Matches a b) : b.allowed = a.allowed :=
  a.isListing_allowed.unique b.isListing_allowed h.mem_iff

theorem decision_eq (h : Matches a b) (name : Text) : b.decision name = a.decision name := by
  have hmem := h.mem_iff name
  simp only [decision, h.privileged, List.contains_iff_mem, hmem]

theorem check_eq (h : Matches a b) (name : Text) : b.check name = a.check name := by
  unfold check refusal
  rw [h.decision_eq, h.allowed_eq]

theorem event_eq (h : Matches a b) (timestamp name : Text) :
    b.event timestamp name = a.event timestamp name := by
  unfold event
  rw [h.decision_eq, h.allowed_eq]

end Matches

/-- The time of an event stands nowhere but in its own field. -/
theorem event_timestamp (a : Authorizer) (timestamp timestamp' name : Text) :
    { a.event timestamp' name with timestamp := .string timestamp } = a.event timestamp name := by
  unfold event
  split <;> rfl

end Authorizer

/-! ## Rows of questions -/

/-- A question about an executable, with the time of its event and that of the line of it. -/
structure Inquiry where
  timestamp : Text
  stamp : Text
  name : Text

namespace Worker

/-- The event of a question. -/
def eventOf (w : Worker) (q : Inquiry) : AuditEvent :=
  w.settings.authorizer.event q.timestamp q.name

/-- The worker after a question: its journal has been handed the line of the event. -/
def noting (w : Worker) (q : Inquiry) : Worker :=
  { w with registry := (w.registry.note q.stamp w.journal (w.eventOf q).line).1 }

/-- The worker after a row of questions. -/
def after (w : Worker) (inquiries : List Inquiry) : Worker :=
  inquiries.foldl noting w

/-- The journal does not refuse the line of a question. -/
def Takes (w : Worker) (q : Inquiry) : Prop :=
  w.refusal? q.stamp (w.eventOf q).line = none

/-- Asks one question after the other: the session afterwards and the answers. -/
def checkAll (w : Worker) (s : Session) : List Inquiry → Session × List (Except Failure Unit)
  | [] => (s, [])
  | q :: rest =>
    let (s, answer) := w.check q.timestamp q.stamp s q.name
    let (s, answers) := (w.noting q).checkAll s rest
    (s, answer :: answers)

@[simp] theorem settings_after (w : Worker) (inquiries : List Inquiry) :
    (w.after inquiries).settings = w.settings := by
  induction inquiries generalizing w with
  | nil => rfl
  | cons q rest ih => exact ih (w.noting q)

theorem lines_check (w : Worker) (s : Session) (q : Inquiry) :
    (w.check q.timestamp q.stamp s q.name).1.lines = s.lines ++ [(w.eventOf q).line] := by
  rfl

theorem lines_checkAll (w : Worker) (s : Session) (inquiries : List Inquiry) :
    (w.checkAll s inquiries).1.lines =
      s.lines ++ inquiries.map fun q => (w.eventOf q).line := by
  induction inquiries generalizing w s with
  | nil => simp [checkAll]
  | cons q rest ih =>
      calc
        (w.checkAll s (q :: rest)).1.lines
            = (w.check q.timestamp q.stamp s q.name).1.lines ++
                rest.map fun q => ((w.noting q).eventOf q).line := ih (w.noting q) _
        _ = s.lines ++ ((w.eventOf q).line :: rest.map fun q => (w.eventOf q).line) := by
          rw [lines_check, List.append_assoc, List.singleton_append]
          rfl

theorem length_answers (w : Worker) (s : Session) (inquiries : List Inquiry) :
    (w.checkAll s inquiries).2.length = inquiries.length := by
  induction inquiries generalizing w s with
  | nil => rfl
  | cons q rest ih => exact congrArg (· + 1) (ih (w.noting q) _)

/-- The answer to a question is that of the worker which the questions before it have left. -/
theorem answers_eq (w : Worker) (s : Session) (front : List Inquiry) (q : Inquiry)
    (back : List Inquiry) :
    ∃ s', (w.checkAll s (front ++ q :: back)).2[front.length]? =
      some ((w.after front).check q.timestamp q.stamp s' q.name).2 := by
  induction front generalizing w s with
  | nil => exact ⟨s, rfl⟩
  | cons p front ih => exact ih (w.noting p) _

theorem check_of_takes {w : Worker} {q : Inquiry} (h : w.Takes q) (s : Session) :
    (w.check q.timestamp q.stamp s q.name).2 = w.settings.authorizer.check q.name := by
  have hnone : w.refusal? q.stamp (w.settings.authorizer.event q.timestamp q.name).line = none := h
  simp only [check, hnone]

theorem check_of_refusal {w : Worker} {q : Inquiry} {e : SystemError}
    (h : w.refusal? q.stamp (w.eventOf q).line = some e) (s : Session) :
    (w.check q.timestamp q.stamp s q.name).2 = .error (.access (.system e)) := by
  have hsome : w.refusal? q.stamp (w.settings.authorizer.event q.timestamp q.name).line =
    some e := h
  simp only [check, hsome]

/-- Each question of a row adds the line of one event and gets one answer. If the journal takes the
line, the answer and the event agree with each other and with the whitelist; a refusal of the
journal takes the place of the answer. Authorizers of the same members answer alike, and their
events differ in their times at most. -/
theorem answers_audited (w : Worker) (s : Session) (inquiries : List Inquiry) :
    let a := w.settings.authorizer
    (w.checkAll s inquiries).1.lines =
      s.lines ++ inquiries.map (fun q => (a.event q.timestamp q.name).line) ∧
    (w.checkAll s inquiries).2.length = inquiries.length ∧
    (∀ front q back, inquiries = front ++ q :: back →
      ∃ answer, (w.checkAll s inquiries).2[front.length]? = some answer ∧
        ((w.after front).Takes q →
          answer = a.check q.name ∧ a.Agrees q.name answer (a.event q.timestamp q.name)) ∧
        ∀ e, (w.after front).refusal? q.stamp (a.event q.timestamp q.name).line = some e →
          answer = .error (.access (.system e))) ∧
    ∀ b, a.Matches b → ∀ name, b.check name = a.check name ∧
      ∀ timestamp timestamp', { b.event timestamp' name with timestamp := .string timestamp } =
        a.event timestamp name := by
  intro a
  refine ⟨w.lines_checkAll s inquiries, w.length_answers s inquiries, ?_, ?_⟩
  · rintro front q back rfl
    obtain ⟨s', hanswer⟩ := w.answers_eq s front q back
    have hsettings : (w.after front).settings.authorizer = a := by rw [settings_after]
    refine ⟨_, hanswer, ?_, ?_⟩
    · intro htakes
      have hcheck := check_of_takes htakes s'
      rw [hsettings] at hcheck
      rw [hcheck]
      exact ⟨rfl, a.agrees q.timestamp q.name⟩
    · intro e he
      apply check_of_refusal
      rw [eventOf, hsettings]
      exact he
  · intro b hmatches name
    refine ⟨hmatches.check_eq name, ?_⟩
    intro timestamp timestamp'
    rw [hmatches.event_eq]
    exact a.event_timestamp timestamp timestamp' name

/-- A worker that shows its lines on the console and lets two executables run. -/
def console : Worker where
  settings := { jobs := 1, whitelist := ["ls", "cat", "ls"] }
  registry :=
    { entries := [{ name := "exeq", rank := 20, outputs := [⟨.console, 20, "%(message)s"⟩] }] }
  journal := "exeq"

/-- A name that is denied after another one was let through. -/
theorem answers_audited_console :
    let allowed : Inquiry := ⟨"t", "s", "ls"⟩
    let denied : Inquiry := ⟨"u", "s", "rm"⟩
    ∃ answer, (console.checkAll {} [allowed, denied]).2[1]? = some answer ∧
      answer = .error (.refused "rm" ["cat", "ls"]) ∧
      console.settings.authorizer.Agrees "rm" answer
        (console.settings.authorizer.event "u" "rm") := by
  intro allowed denied
  obtain ⟨-, -, hanswers, -⟩ := answers_audited console {} [allowed, denied]
  obtain ⟨answer, hget, htakes, -⟩ := hanswers [allowed] denied [] rfl
  have htaken : (console.after [allowed]).Takes denied := rfl
  obtain ⟨hcheck, hagrees⟩ := htakes htaken
  exact ⟨answer, hget, hcheck, hagrees⟩

end Worker

end CommandRelay
