import CommandRelay.Proofs.Sink.Delivery
import CommandRelay.Proofs.Stream.Reading
import CommandRelay.Proofs.Text.LossyDecoding
import Mathlib.Data.List.Induction

/-!
# Text on a console

A console over a stream of text decodes each chunk by itself and keeps nothing of it. Chunks end
behind a line feed or a carriage return, where no sequence of UTF-8 goes on, so what the console
shows in the end is the decoding of the whole stream (`console_text_decoded`), wherever the reads
were cut and whatever is malformed in the stream.
-/

namespace CommandRelay

theorem Text.ofString_ofList_append (front back : List Char) :
    Text.ofString (String.ofList (front ++ back)) =
      Text.ofString (String.ofList front) ++ Text.ofString (String.ofList back) := by
  simp [Text.ofString]

namespace Stream

/-- A chunk that is terminated ends in a byte below 0x80. -/
theorem IsTerminated.isSettled {chunk : Bytes} (h : IsTerminated chunk) :
    Utf8.IsSettled chunk := by
  have hend {b : UInt8} (hb : b < 0x80) (h : EndsAt b chunk) : Utf8.IsSettled chunk := by
    intro b' hb'
    rw [getLast?_of_endsAt h] at hb'
    obtain rfl := Option.some.inj hb'
    exact hb
  rcases h with h | ⟨-, h⟩
  · exact hend (by decide) h
  · exact hend (by decide) h

/-- Chunks that are decoded one by one give the text of the stream. -/
theorem IsCut.flatMap_decodeLossy {chunks : List Bytes} (h : IsCut chunks) :
    (chunks.flatMap fun chunk => Text.ofString (Utf8.decodeLossy chunk)) =
      Text.ofString (Utf8.decodeLossy chunks.flatten) := by
  induction h with
  | nil => rw [List.flatMap_nil, List.flatten_nil, Utf8.decodeLossy, Utf8.decodeLossyChars_nil]; rfl
  | last => rw [List.flatMap_singleton, List.flatten_singleton]
  | @cons chunk rest hchunk _ ih =>
      rw [List.flatMap_cons, ih, List.flatten_cons, Utf8.decodeLossy, Utf8.decodeLossy,
        Utf8.decodeLossy, Utf8.decodeLossyChars_append hchunk.isSettled,
        Text.ofString_ofList_append]

end Stream

namespace Sink

/-- A console over a stream of text takes whatever it is given. -/
theorem exists_takesAll_text (shown : Text) (calls : List Call) :
    ∃ shown', (Sink.console (.text shown)).TakesAll calls (.console (.text shown')) := by
  induction calls using List.reverseRecOn with
  | nil => exact ⟨shown, .nil⟩
  | append_singleton calls call ih =>
      obtain ⟨shown', h⟩ := ih
      cases call with
      | write data => exact ⟨_, .snoc h ⟨{}, rfl⟩⟩
      | flush => exact ⟨_, .snoc h ⟨{}, rfl⟩⟩

/-- What a console over a stream of text shows is the decoding of each chunk that it was given. -/
theorem takesAll_text_iff {shown : Text} {calls : List Call} {s' : Sink} :
    (Sink.console (.text shown)).TakesAll calls s' ↔
      s' = .console (.text (shown ++ (calls.filterMap Call.data?).flatMap fun chunk =>
        Text.ofString (Utf8.decodeLossy chunk))) := by
  have hshown {s' : Sink} (h : (Sink.console (.text shown)).TakesAll calls s') :
      s' = .console (.text (shown ++ (calls.filterMap Call.data?).flatMap fun chunk =>
        Text.ofString (Utf8.decodeLossy chunk))) := by
    cases h.gains with
    | text heq => rw [heq]
  constructor
  · exact hshown
  · rintro rfl
    obtain ⟨shown', h⟩ := exists_takesAll_text shown calls
    rwa [← hshown h]

end Sink

namespace Stream

/-- Let a reader publish a stream until its end, in whatever reads the stream comes, and let each
chunk be written to a console over a stream of text, in order and with flushes at any time. The
console takes all of it and shows what the whole stream decodes to, with one U+FFFD for each
malformed span. If the stream is the encoding of a string, that string is shown, and nothing in it
has been replaced. -/
theorem console_text_decoded {bytes : Bytes} {reads : List Bytes}
    (hreads : ∀ data ∈ reads, data ≠ []) (hcut : reads.flatten = bytes) (ch : Channel)
    (closing : Option SystemError) (shown : Text) :
    ∃ chunks : List Bytes,
      (Source.publish { reads, closing }).chunks = chunks ∧
      (∀ events, Feed.Runs ch closing { pipe := reads, ended := some .quiet } events ↔
        events = chunks.map (.chunk ch) ++ [.ended ch]) ∧
      ∀ calls : List Sink.Call, calls.filterMap Sink.Call.data? = chunks →
        (∀ s', (Sink.console (.text shown)).TakesAll calls s' ↔
          s' = .console (.text (shown ++ Text.ofString (Utf8.decodeLossy bytes)))) ∧
        ∀ text : String, bytes = Bytes.ofString text →
          ∀ s', (Sink.console (.text shown)).TakesAll calls s' ↔
            s' = .console (.text (shown ++ Text.ofString text)) := by
  have hflat : (Reader.publishes {} reads).flatten = bytes :=
    ((Reader.flatten_publishes {} hreads).trans (List.nil_append _)).trans hcut
  have hruns : Feed.Runs ch closing { pipe := reads, ended := some .quiet }
      ((Reader.publishes {} reads).map (.chunk ch) ++ [.ended ch]) :=
    Feed.runs_publishes {} hreads
  refine ⟨Reader.publishes {} reads, chunks_readAll {} closing reads, fun events => ?_,
    fun calls hcalls => ?_⟩
  · constructor
    · intro h
      exact h.unique hruns
    · rintro rfl
      exact hruns
  · have hshown (s' : Sink) : (Sink.console (.text shown)).TakesAll calls s' ↔
        s' = .console (.text (shown ++ Text.ofString (Utf8.decodeLossy bytes))) := by
      rw [Sink.takesAll_text_iff, hcalls, (isCut_publishes {} hreads).flatMap_decodeLossy, hflat]
    refine ⟨hshown, fun text htext s' => ?_⟩
    rw [hshown, htext, Utf8.decodeLossy_ofString]

/-- A character that is cut in two by the reads is shown as it is, and a stray byte is replaced. -/
theorem console_text_decoded_parted :
    (Sink.console (.text [])).TakesAll
        [.write [0xC3, 0xA9, 0x0D], .flush, .write [0x0A], .flush, .write [0xFF], .flush]
        (.console (.text (Text.ofString "é\r\n\uFFFD"))) ∧
      (Sink.console (.text [])).TakesAll [.write [0xC3, 0xA9, 0x0D]]
        (.console (.text (Text.ofString "é\r"))) := by
  constructor
  · have hreads : ∀ data ∈ [[0xC3], [0xA9, 0x0D], [0x0A, 0xFF]], data ≠ ([] : Bytes) := by decide
    have hcut : [[0xC3], [0xA9, 0x0D], [0x0A, 0xFF]].flatten =
        ([0xC3, 0xA9, 0x0D, 0x0A, 0xFF] : Bytes) := rfl
    obtain ⟨chunks, hchunks, -, hshown⟩ := console_text_decoded hreads hcut .stdout none []
    have hpublished : (Source.publish { reads := [[0xC3], [0xA9, 0x0D], [0x0A, 0xFF]] }).chunks =
        [[0xC3, 0xA9, 0x0D], [0x0A], [0xFF]] := by decide +kernel
    have htext : Utf8.decodeLossy [0xC3, 0xA9, 0x0D, 0x0A, 0xFF] = "é\r\n\uFFFD" := by
      decide +kernel
    rw [← hchunks, hpublished] at hshown
    rw [← htext]
    exact ((hshown _ rfl).1 _).mpr rfl
  · have hreads : ∀ data ∈ [[0xC3], [0xA9, 0x0D]], data ≠ ([] : Bytes) := by decide
    have hcut : [[0xC3], [0xA9, 0x0D]].flatten = ([0xC3, 0xA9, 0x0D] : Bytes) := rfl
    obtain ⟨chunks, hchunks, -, hshown⟩ := console_text_decoded hreads hcut .stdout none []
    have hpublished : (Source.publish { reads := [[0xC3], [0xA9, 0x0D]] }).chunks =
        [[0xC3, 0xA9, 0x0D]] := by decide +kernel
    rw [← hchunks, hpublished] at hshown
    exact ((hshown _ rfl).2 "é\r" (by decide +kernel) _).mpr rfl

end Stream

end CommandRelay
