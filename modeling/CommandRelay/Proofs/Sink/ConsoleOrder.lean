import CommandRelay.Proofs.Sink.Delivery
import CommandRelay.Proofs.Text.Utf8RoundTrip

/-!
# Text and bytes on one console

A program may print on a console whose sink writes bytes past the layer of text. When the layer
hands text on is its own affair, as long as it keeps to the order (`Layered.Runs.push`). What has
gone to the byte stream and then what still waits is all that was printed and written, in the order
of the program (`Layered.Runs.bytes_eq`): a call to the sink first empties the layer, so no byte
overtakes a text (`Layered.takes_iff`).
-/

namespace CommandRelay

/-- A layer of text that holds a text back, and the bytes that have gone to the stream below it. A
text that can be encoded is a string (`Text.isWhole_iff`). -/
structure Layered where
  pending : String := ""
  reached : Bytes := []

/-- What a program does on a console: it prints a text, or it calls the sink. -/
inductive ConsoleAct where
  | print (text : String)
  | call (c : Sink.Call)
  deriving DecidableEq, Repr

/-- The bytes that are meant to come out. -/
def ConsoleAct.bytes : ConsoleAct → Bytes
  | .print text => Bytes.ofString text
  | .call c => c.data?.getD []

theorem Bytes.ofString_append (s t : String) : ofString (s ++ t) = ofString s ++ ofString t := by
  rw [ofString, String.toList_append, List.flatMap_append]
  rfl

theorem Bytes.ofString_eq_nil_iff {s : String} : ofString s = [] ↔ s = "" := by
  rw [ofString, List.flatMap_eq_nil_iff]
  constructor
  · intro h
    refine String.toList_eq_nil_iff.mp (List.eq_nil_iff_forall_not_mem.mpr fun c hc => ?_)
    exact String.utf8EncodeChar_ne_nil (h c hc)
  · rintro rfl c hc
    cases hc

namespace Layered

/-- The stream of the console. -/
def stream (l : Layered) : ConsoleStream :=
  .layered (Bytes.ofString l.pending) l.reached

/-- What has gone to the stream of bytes, and then what waits. -/
def bytes (l : Layered) : Bytes :=
  l.reached ++ Bytes.ofString l.pending

/-- A program acts on a console. The layer of text may hand on the front of what it holds at any
time. -/
inductive Runs (start : Layered) : List ConsoleAct → Layered → Prop
  | nil : Runs start [] start
  | push {acts reached} (front back : String) (h : Runs start acts ⟨front ++ back, reached⟩) :
      Runs start acts ⟨back, reached ++ Bytes.ofString front⟩
  | print {acts pending reached} (h : Runs start acts ⟨pending, reached⟩) (text : String) :
      Runs start (acts ++ [.print text]) ⟨pending ++ text, reached⟩
  | call {acts l l'} (h : Runs start acts l) {c : Sink.Call}
      (hc : (Sink.console l.stream).Takes c (.console l'.stream)) :
      Runs start (acts ++ [.call c]) l'

variable {start l l' : Layered} {acts : List ConsoleAct}

/-- A call empties the layer of text before anything else goes to the stream of bytes. -/
theorem takes_iff {c : Sink.Call} :
    (Sink.console l.stream).Takes c (.console l'.stream) ↔
      l' = ⟨"", l.bytes ++ c.data?.getD []⟩ := by
  have heq (next : Bytes) : ConsoleStream.layered [] next = l'.stream ↔ l' = ⟨"", next⟩ := by
    obtain ⟨pending, reached⟩ := l'
    rw [stream, ConsoleStream.layered.injEq, Layered.mk.injEq, ← Bytes.ofString_eq_nil_iff]
    exact and_congr eq_comm eq_comm
  cases c with
  | write data =>
      rw [← heq]
      constructor
      · rintro ⟨d, h⟩
        exact Sink.console.inj (congrArg Prod.fst h)
      · intro h
        exact ⟨{}, by rw [← h]; rfl⟩
  | flush =>
      rw [← heq, Sink.Call.data?, Option.getD_none, List.append_nil]
      constructor
      · rintro ⟨d, h⟩
        exact Sink.console.inj (congrArg Prod.fst h)
      · intro h
        exact ⟨{}, by rw [← h]; rfl⟩

/-- What has gone to the stream of bytes and what waits is all that was printed and written. -/
theorem Runs.bytes_eq (h : start.Runs acts l) :
    l.bytes = start.bytes ++ acts.flatMap ConsoleAct.bytes := by
  induction h with
  | nil => rw [List.flatMap_nil, List.append_nil]
  | push front back h ih =>
      rw [← ih, bytes, bytes, Bytes.ofString_append, List.append_assoc]
  | print h text ih =>
      rw [List.flatMap_append, ← List.append_assoc, ← ih, List.flatMap_singleton, bytes, bytes,
        Bytes.ofString_append, List.append_assoc]
      rfl
  | call h hc ih =>
      rw [takes_iff.mp hc, List.flatMap_append, ← List.append_assoc, ← ih, List.flatMap_singleton,
        bytes, Bytes.ofString_eq_nil_iff.mpr rfl, List.append_nil]
      rfl

/-- The layer of text that hands on all it holds. -/
theorem Runs.push_all {pending : String} {reached : Bytes}
    (h : start.Runs acts ⟨pending, reached⟩) :
    start.Runs acts ⟨"", reached ++ Bytes.ofString pending⟩ := by
  refine .push pending "" ?_
  rwa [String.append_empty]

/-- A console prints as a layer of text may that hands everything on when it holds too much. -/
theorem Runs.exists_print (h : start.Runs acts l) (text : String) :
    ∃ l', l.stream.print (Text.ofString text) = .ok l'.stream ∧
      start.Runs (acts ++ [.print text]) l' := by
  obtain ⟨pending, reached⟩ := l
  simp only [stream, ConsoleStream.print, Utf8.encode_ofString, Except.map,
    ConsoleStream.throughLayer]
  by_cases hfull : ConsoleStream.layerCapacity <
      (Bytes.ofString pending).length + (Bytes.ofString text).length
  · have hprint : start.Runs (acts ++ [.print text])
        ⟨text, reached ++ Bytes.ofString pending⟩ := by
      have hprint := h.push_all.print text
      rwa [String.empty_append] at hprint
    simp only [if_pos hfull]
    split
    · exact ⟨⟨"", reached ++ Bytes.ofString pending ++ Bytes.ofString text⟩, rfl, hprint.push_all⟩
    · exact ⟨⟨text, reached ++ Bytes.ofString pending⟩, rfl, hprint⟩
  · simp only [if_neg hfull, ← Bytes.ofString_append]
    split
    · exact ⟨⟨"", reached ++ Bytes.ofString (pending ++ text)⟩, rfl, (h.print text).push_all⟩
    · exact ⟨⟨pending ++ text, reached⟩, rfl, h.print text⟩

/-- Whatever a program prints and writes on a console, and whenever the layer of text hands on what
it holds: the bytes that have gone to the stream, with the encoding of the text that still waits,
are all texts and all data in the order of the program. The sink takes every call, after a flush no
text waits, and printing on a console is one of the things a layer of text may do. -/
theorem console_in_order (h : start.Runs acts l) :
    l.reached ++ Bytes.ofString l.pending =
        start.reached ++ Bytes.ofString start.pending ++ acts.flatMap ConsoleAct.bytes ∧
      (∀ data d, ∃ l', (Sink.console l.stream).write d data =
          (d, .console l'.stream, .ok data.length) ∧
        start.Runs (acts ++ [.call (.write data)]) l') ∧
      (∀ d, ∃ l', (Sink.console l.stream).flush d = (d, .console l'.stream, .ok ()) ∧
        start.Runs (acts ++ [.call .flush]) l' ∧ l'.pending = "") ∧
      ∀ text : String, ∃ l', l.stream.print (Text.ofString text) = .ok l'.stream ∧
        start.Runs (acts ++ [.print text]) l' := by
  refine ⟨h.bytes_eq, fun data d => ?_, fun d => ?_, h.exists_print⟩
  · exact ⟨⟨"", l.bytes ++ data⟩, rfl, h.call (takes_iff.mpr rfl)⟩
  · refine ⟨⟨"", l.bytes⟩, rfl, h.call (takes_iff.mpr ?_), rfl⟩
    exact congrArg (Layered.mk "") (List.append_nil _).symm

/-- A text of which the layer hands on a part by itself, and data that is written behind it. -/
theorem console_in_order_parted :
    ∃ l, Layered.Runs {} [.print "avant ", .call (.write (Bytes.ofString "bloc\n")),
        .print "après", .call .flush] l ∧
      l.pending = "" ∧ l.reached = Bytes.ofString "avant bloc\naprès" := by
  have hprint : Layered.Runs {} [.print "avant "] ⟨"ava" ++ "nt ", []⟩ := by
    have h := Runs.print (.nil : Layered.Runs {} [] ⟨"", []⟩) "avant "
    rwa [show "" ++ "avant " = "ava" ++ "nt " by decide +kernel] at h
  obtain ⟨-, hwrites, -, -⟩ := console_in_order (hprint.push "ava" "nt ")
  obtain ⟨l₁, -, hwrite⟩ := hwrites (Bytes.ofString "bloc\n") {}
  obtain ⟨-, -, hflushes, -⟩ := console_in_order (hwrite.print "après")
  obtain ⟨l, -, hflush, hpending⟩ := hflushes {}
  refine ⟨l, hflush, hpending, ?_⟩
  have hbytes := hflush.bytes_eq
  rw [bytes, hpending, Bytes.ofString_eq_nil_iff.mpr rfl, List.append_nil] at hbytes
  rw [hbytes]
  decide +kernel

end Layered

end CommandRelay
