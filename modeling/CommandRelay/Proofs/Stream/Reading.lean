import CommandRelay.Execution.Relay
import CommandRelay.Proofs.Stream.Chunking

/-!
# The work of a reader

The reader of a channel publishes an event that it has, or reads. `Feed.advance` is what it does
next on its own, and `moveReader_eq_advance` says that its turn in a relay is just that, as soon as
the queue has room. `reader_publishes` puts together what comes of it: the reader comes to its end
and publishes the chunks of its reads and one end marker behind them, and the chunks are cut where
lines end, as far as that can be seen in the reads.
-/

namespace CommandRelay

namespace Feed

variable (ch : Channel) (closing : Option SystemError)

/-- What a reader does next: it publishes an event that it has, or reads. Nothing once it is done,
or while it waits for the child. -/
def advance (f : Feed) : Option (List Event × Feed) :=
  match f.outbox with
  | e :: outbox => some ([e], { f with outbox })
  | [] => if f.finished then none else (f.read ch closing).map ([], ·)

/-- The work of a reader up to the moment when it has nothing to do, with the events that it
publishes. -/
inductive Runs : Feed → List Event → Prop
  | halt {f} (h : f.advance ch closing = none) : Runs f []
  | step {f f' events more} (h : f.advance ch closing = some (events, f')) (rest : Runs f' more) :
      Runs f (events ++ more)

variable {ch closing} {f f' : Feed} {events more : List Event}

/-- There is one way for a reader to do its work. -/
theorem Runs.unique (h : Runs ch closing f events) (h' : Runs ch closing f more) :
    events = more := by
  induction h generalizing more with
  | halt hnone =>
      cases h' with
      | halt => rfl
      | step hsome => rw [hnone] at hsome; cases hsome
  | step hsome _ ih =>
      cases h' with
      | halt hnone => rw [hnone] at hsome; cases hsome
      | step hsome' rest =>
          obtain ⟨rfl, rfl⟩ := Prod.mk.inj (Option.some.inj (hsome.symm.trans hsome'))
          rw [ih rest]

/-- A reader publishes what it has before anything else. -/
theorem runs_of_outbox (f : Feed) (h : Runs ch closing { f with outbox := [] } events) :
    Runs ch closing f (f.outbox ++ events) := by
  obtain ⟨pipe, ended, reader, outbox, finished, error⟩ := f
  induction outbox with
  | nil => exact h
  | cons e outbox ih =>
      have hstep : Feed.advance ch closing ⟨pipe, ended, reader, e :: outbox, finished, error⟩ =
          some ([e], ⟨pipe, ended, reader, outbox, finished, error⟩) := rfl
      have hruns := Runs.step hstep (ih h)
      exact hruns

/-- A reader that reads has nothing to publish yet. -/
theorem runs_read (hout : f.outbox = []) (hfin : f.finished = false)
    (hread : f.read ch closing = some f') (h : Runs ch closing f' events) :
    Runs ch closing f events := by
  have hstep : f.advance ch closing = some ([], f') := by
    simp [advance, hout, hfin, hread]
  exact .step hstep h

/-- A reader that is left with reads and the end of its stream, whatever that is, comes to its end,
having published the chunks of the reads and the end marker. -/
theorem runs_readAll {pipe : List Bytes} (ending : Stream.Ending) (reader : Stream.Reader)
    (hreads : ∀ data ∈ pipe, data ≠ []) :
    Runs ch closing { pipe, ended := some ending, reader }
      ((Stream.readAll ending closing reader pipe).chunks.map (.chunk ch) ++ [.ended ch]) := by
  induction pipe generalizing reader with
  | nil =>
      apply runs_read rfl rfl rfl
      let f : Feed := { ended := some ending, reader, finished := true
                        error := (reader.conclude closing ending).2
                        outbox := (reader.conclude closing ending).1.map (.chunk ch) ++
                          [.ended ch] }
      have hlast : Runs ch closing f (f.outbox ++ []) := runs_of_outbox f (.halt rfl)
      rwa [List.append_nil] at hlast
  | cons data pipe ih =>
      apply runs_read rfl rfl rfl
      rw [Stream.chunks_readAll_cons ending closing reader (hreads data List.mem_cons_self),
        List.map_append, List.append_assoc]
      apply runs_of_outbox { pipe, ended := some ending, reader := (reader.feed data).2
                             outbox := (reader.feed data).1.map (.chunk ch) }
      exact ih (reader.feed data).2 fun d hd => hreads d (List.mem_cons_of_mem _ hd)

/-- A reader whose stream ends without a fault. -/
theorem runs_publishes {pipe : List Bytes} (reader : Stream.Reader)
    (hreads : ∀ data ∈ pipe, data ≠ []) :
    Runs ch closing { pipe, ended := some .quiet, reader }
      ((reader.publishes pipe).map (.chunk ch) ++ [.ended ch]) := by
  rw [← Stream.chunks_readAll reader closing pipe]
  exact runs_readAll .quiet reader hreads

end Feed

/-- The turn of a reader is what it does next, if the queue has room for what it publishes. -/
theorem Relay.moveReader_eq_advance (r : Relay) (ch : Channel) :
    r.moveReader ch =
      ((r.feeds.get ch).advance ch (r.child.closing.get ch)).bind fun (events, f) =>
        if events = [] ∨ r.queue.length < r.plan.capacity then
          some { r with queue := r.queue ++ events, feeds := r.feeds.set ch f }
        else none := by
  unfold moveReader Feed.advance
  generalize r.feeds.get ch = f
  obtain ⟨pipe, ended, reader, outbox, finished, error⟩ := f
  cases outbox with
  | cons e outbox => simp
  | nil =>
      cases finished with
      | true => rfl
      | false =>
          simp only [Bool.false_eq_true, if_false]
          generalize Feed.read ch _ _ = next
          cases next <;> simp

namespace Stream

/-- A reader of reads that are not empty, and then of the end of the stream, comes to its end. It
publishes chunks and one end marker behind them. The chunks are the bytes that were read. None is
empty; each ends at its only line feed, or has none and ends at its only carriage return, or has
neither and is the last one. So every line feed ends a chunk, chunks joined up to the next line
feed are the lines of the stream, and without carriage returns the chunks do not depend on the
reads. -/
theorem reader_publishes {reads : List Bytes} (hreads : ∀ data ∈ reads, data ≠ []) (ch : Channel)
    (closing : Option SystemError) :
    ∃ chunks : List Bytes,
      (Source.publish { reads, closing }).chunks = chunks ∧
      (∀ events, Feed.Runs ch closing { pipe := reads, ended := some .quiet } events ↔
        events = chunks.map (.chunk ch) ++ [.ended ch]) ∧
      chunks.flatten = reads.flatten ∧
      (∀ chunk ∈ chunks, chunk ≠ []) ∧
      (∀ before chunk after, chunks = before ++ chunk :: after →
        EndsAt lineFeed chunk ∨ lineFeed ∉ chunk ∧ EndsAt carriageReturn chunk ∨
          (lineFeed ∉ chunk ∧ carriageReturn ∉ chunk) ∧ after = []) ∧
      (∀ front back, reads.flatten = front ++ lineFeed :: back →
        ∃ before after, chunks = before ++ after ∧ before.flatten = front ++ [lineFeed]) ∧
      joinUnended chunks = lines reads.flatten ∧
      (carriageReturn ∉ reads.flatten →
        ∀ others : List Bytes, (∀ data ∈ others, data ≠ []) → others.flatten = reads.flatten →
          (Source.publish { reads := others, closing }).chunks = chunks) := by
  have hcut := isCut_publishes {} hreads
  have hflat : (Reader.publishes {} reads).flatten = reads.flatten :=
    (Reader.flatten_publishes {} hreads).trans (List.nil_append _)
  have hruns : Feed.Runs ch closing { pipe := reads, ended := some .quiet }
      ((Reader.publishes {} reads).map (.chunk ch) ++ [.ended ch]) :=
    Feed.runs_publishes {} hreads
  refine ⟨Reader.publishes {} reads, chunks_readAll {} closing reads, ?_, hflat, hcut.ne_nil,
    ?_, ?_, ?_, ?_⟩
  · intro events
    constructor
    · intro h
      exact h.unique hruns
    · rintro rfl
      exact hruns
  · intro before chunk after heq
    exact or_assoc.mp (hcut.ends heq)
  · intro front back heq
    exact hcut.exists_split (hflat.trans heq)
  · rw [hcut.joinUnended_eq, hflat]
  · intro hreturn others hothers heq
    have hflat' : (Reader.publishes {} others).flatten = reads.flatten :=
      (Reader.flatten_publishes {} hothers).trans heq
    have hlines := (isCut_publishes {} hothers).eq_lines (by rwa [hflat'])
    rw [hflat', ← hflat, ← hcut.eq_lines (by rwa [hflat])] at hlines
    exact (chunks_readAll {} closing others).trans hlines

/-- A carriage return that a read ends with ends a chunk, although a line feed comes next. -/
theorem reader_publishes_parted :
    Feed.Runs .stdout none { pipe := [[97, 13], [10, 98]], ended := some .quiet }
        [.chunk .stdout [97, 13], .chunk .stdout [10], .chunk .stdout [98], .ended .stdout] ∧
      joinUnended [[97, 13], [10], [98]] = lines [97, 13, 10, 98] := by
  have hreads : ∀ data ∈ [[97, 13], [10, 98]], data ≠ ([] : Bytes) := by decide
  obtain ⟨chunks, hchunks, hruns, -, -, -, -, hlines, -⟩ := reader_publishes hreads .stdout none
  have hpublished : (Source.publish { reads := [[97, 13], [10, 98]] }).chunks =
      [[97, 13], [10], [98]] := by decide +kernel
  obtain rfl : [[97, 13], [10], [98]] = chunks := hpublished.symm.trans hchunks
  exact ⟨(hruns _).mpr rfl, hlines⟩

end Stream

end CommandRelay
