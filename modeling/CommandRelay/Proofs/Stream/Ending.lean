import CommandRelay.Proofs.Stream.Reading
import Mathlib.Data.List.DropRight

/-!
# How a reader ends

Whatever ends a stream, its reader closes the stream once and then publishes the end marker, as the
last of all that it does (`exists_actsOf_eq`). A fault costs the bytes behind the last place at
which a chunk ends and no others (`exists_flatten_append_eq`), so what of the bytes is published
does not depend on the reads that they came in. `reader_ends` puts this together with the error that
is left.
-/

namespace CommandRelay

/-- A fault that is raised without asking the system, over a value that is of no use. -/
def AccessFault.IsInvalid (f : AccessFault) : Prop :=
  f.kind.isA .value = true ∧ ∀ e, f ≠ .system e

theorem AccessFault.IsInvalid.errorOfFault_eq {f : AccessFault} (h : f.IsInvalid) :
    Stream.errorOfFault f = .stated .system f.message := by
  cases f with
  | system e => exact absurd rfl (h.2 e)
  | unencodable | invalid | endless | unsupported => rfl

namespace Stream

/-! ## What a reader does -/

/-- Acts of a reader that has not left its stream: it is neither closed nor has it ended. -/
def AreBusy (work : List Act) : Prop :=
  .closed ∉ work ∧ .ended ∉ work

theorem areBusy_append {cs : List Bytes} {work : List Act} (h : AreBusy work) :
    AreBusy (.asked :: cs.map .published ++ work) := by
  constructor
  · simp [h.1]
  · simp [h.2]

theorem filterMap_chunk?_append (cs : List Bytes) (work : List Act) :
    (Act.asked :: cs.map Act.published ++ work).filterMap Act.chunk? =
      cs ++ work.filterMap Act.chunk? := by
  have hchunks : (cs.map Act.published).filterMap Act.chunk? = cs := by
    rw [List.filterMap_map]
    exact List.filterMap_some
  rw [List.cons_append, List.filterMap_cons_none rfl, List.filterMap_append, hchunks]

/-- A reader that has found how its stream ends publishes what is left to publish, closes the
stream and publishes the end marker. -/
theorem exists_leave_eq (r : Reader) (closing : Option SystemError) (ending : Ending) :
    ∃ work, .asked :: r.leave ending = work ++ [.closed, .ended] ∧ AreBusy work ∧
      work.filterMap Act.chunk? = (r.conclude closing ending).1 := by
  refine ⟨.asked :: (r.conclude none ending).1.map .published ++ [], ?_,
    areBusy_append ⟨List.not_mem_nil, List.not_mem_nil⟩, ?_⟩
  · rw [List.append_nil]
    rfl
  · rw [filterMap_chunk?_append]
    cases ending <;> exact List.append_nil _

/-- A reader closes its stream behind all that it publishes, and then publishes the end marker. -/
theorem exists_actsOf_eq (ending : Ending) (closing : Option SystemError) (r : Reader)
    (reads : List Bytes) :
    ∃ work, actsOf ending r reads = work ++ [.closed, .ended] ∧ AreBusy work ∧
      work.filterMap Act.chunk? = (readAll ending closing r reads).chunks := by
  induction reads generalizing r with
  | nil => exact exists_leave_eq r closing ending
  | cons data rest ih =>
      cases data with
      | nil => exact exists_leave_eq r closing .quiet
      | cons b data =>
          obtain ⟨work, hacts, hbusy, hchunks⟩ := ih (r.feed (b :: data)).2
          refine ⟨.asked :: (r.feed (b :: data)).1.map .published ++ work, ?_,
            areBusy_append hbusy, ?_⟩
          · rw [List.append_assoc, ← hacts]
            rfl
          · rw [filterMap_chunk?_append, hchunks]
            rfl

theorem error_readAll (ending : Ending) (closing : Option SystemError) (r : Reader)
    {reads : List Bytes} (h : ∀ data ∈ reads, data ≠ []) :
    (readAll ending closing r reads).error = (r.conclude closing ending).2 := by
  induction reads generalizing r with
  | nil => rfl
  | cons data rest ih =>
      have hrest := ih (r.feed data).2 fun d hd => h d (List.mem_cons_of_mem _ hd)
      cases data with
      | nil => exact absurd rfl (h [] List.mem_cons_self)
      | cons b data =>
          have hnext : (readAll ending closing r ((b :: data) :: rest)).error =
              (readAll ending closing (r.feed (b :: data)).2 rest).error := rfl
          rw [hnext, hrest]
          cases ending <;> rfl

/-! ## What a fault costs -/

/-- A byte at which no chunk ends. -/
def isOrdinary (b : UInt8) : Bool :=
  b ≠ lineFeed && b ≠ carriageReturn

theorem isPlain_iff {bytes : Bytes} : IsPlain bytes ↔ ∀ b ∈ bytes, isOrdinary b = true := by
  simp only [IsPlain, isOrdinary, Bool.and_eq_true, decide_eq_true_eq]
  constructor
  · intro h b hb
    exact ⟨fun heq => h.1 (heq ▸ hb), fun heq => h.2 (heq ▸ hb)⟩
  · intro h
    exact ⟨fun hmem => (h _ hmem).1 rfl, fun hmem => (h _ hmem).2 rfl⟩

theorem isPlain_of_nextChunk? {pending : Bytes} (h : nextChunk? false pending = none) :
    IsPlain pending := by
  unfold nextChunk? at h
  cases hfeed : cutAfter lineFeed pending with
  | some cut =>
      rw [hfeed] at h
      cases h
  | none =>
      rw [hfeed] at h
      cases hreturn : cutAfter carriageReturn pending with
      | some cut =>
          rw [hreturn] at h
          cases h
      | none => exact ⟨notMem_of_cutAfter hfeed, notMem_of_cutAfter hreturn⟩

/-- What a reader keeps back has no place in it at which a chunk could end. -/
theorem isPlain_chunks_snd (pending : Bytes) : IsPlain (chunks false pending).2 := by
  fun_induction chunks false pending with
  | case1 pending h => exact isPlain_of_nextChunk? h
  | case2 _ _ _ _ ih => exact ih

/-- Of a stream that ends by a fault, chunks that are terminated are published, and what is left
behind them is plain. -/
theorem exists_flatten_append_eq (f : AccessFault) (closing : Option SystemError) {r : Reader}
    {reads : List Bytes} (hpending : IsPlain r.pending) (h : ∀ data ∈ reads, data ≠ []) :
    (∀ chunk ∈ (readAll (.fault f) closing r reads).chunks, IsTerminated chunk) ∧
      ∃ lost, IsPlain lost ∧
        (readAll (.fault f) closing r reads).chunks.flatten ++ lost =
          r.pending ++ reads.flatten := by
  induction reads generalizing r with
  | nil =>
      refine ⟨fun _ hmem => absurd hmem List.not_mem_nil, r.pending, hpending, ?_⟩
      rw [List.flatten_nil, List.append_nil]
      rfl
  | cons data rest ih =>
      have hkept : IsPlain (r.feed data).2.pending := isPlain_chunks_snd (r.pending ++ data)
      obtain ⟨hterminated, lost, hlost, hflat⟩ := ih hkept
        fun d hd => h d (List.mem_cons_of_mem _ hd)
      rw [chunks_readAll_cons _ _ r (h data List.mem_cons_self)]
      refine ⟨fun chunk hmem => ?_, lost, hlost, ?_⟩
      · rcases List.mem_append.mp hmem with hmem | hmem
        · exact isTerminated_of_mem_chunks hmem
        · exact hterminated chunk hmem
      · rw [List.flatten_append, List.append_assoc]
        calc (r.feed data).1.flatten ++ (_ ++ lost)
            = (r.feed data).1.flatten ++ ((r.feed data).2.pending ++ rest.flatten) :=
              congrArg _ hflat
          _ = r.pending ++ (data :: rest).flatten := by
              rw [← List.append_assoc, Reader.flatten_feed, List.flatten_cons, List.append_assoc]

theorem EndsAt.getLast_eq {b : UInt8} {bytes : Bytes} (h : EndsAt b bytes) (hne : bytes ≠ []) :
    bytes.getLast hne = b := by
  have hlast := getLast?_of_endsAt h
  rw [List.getLast?_eq_some_getLast hne] at hlast
  exact Option.some.inj hlast

theorem IsTerminated.isOrdinary_getLast {chunk : Bytes} (h : IsTerminated chunk) :
    isOrdinary (chunk.getLast h.ne_nil) = false := by
  rcases h with h | ⟨-, h⟩
  · rw [h.getLast_eq]
    rfl
  · rw [h.getLast_eq]
    rfl

/-- Without the plain bytes at its end, what ends in terminated chunks is these chunks. -/
theorem rdropWhile_flatten_append {chunks : List Bytes} {lost : Bytes}
    (h : ∀ chunk ∈ chunks, IsTerminated chunk) (hlost : IsPlain lost) :
    (chunks.flatten ++ lost).rdropWhile isOrdinary = chunks.flatten := by
  have hkept : chunks.flatten.rdropWhile isOrdinary = chunks.flatten := by
    rcases List.eq_nil_or_concat chunks with rfl | ⟨front, last, rfl⟩
    · rfl
    · have hlast := h last (by simp)
      rw [List.rdropWhile_eq_self_iff]
      intro hne
      simp [List.concat_eq_append, List.getLast_append_of_ne_nil, hlast.ne_nil,
        hlast.isOrdinary_getLast]
  have hdrop : lost.reverse.dropWhile isOrdinary = [] := by
    rw [List.dropWhile_eq_nil_iff]
    intro b hb
    exact isPlain_iff.mp hlost b (List.mem_reverse.mp hb)
  rw [List.rdropWhile, List.reverse_append, List.dropWhile_append, hdrop]
  exact hkept

/-! ## The end of a stream -/

/-- However a stream ends, by itself or by a fault, and whether it can be closed or not, its reader
closes it once and then publishes one end marker, the last of all that it does; in a relay the
marker comes behind the same chunks. The error that is left is that of the read that failed, an
invalid operation counting as an error of the system with the same text, and failing that the error
of closing the stream. If a read fails, the chunks that have been published are all complete, and of
the bytes that were read only those are lost that stand behind the last line feed or carriage
return. -/
theorem reader_ends {s : Source} (hreads : ∀ data ∈ s.reads, data ≠ []) (ch : Channel) :
    (∃ work, s.acts = work ++ [.closed, .ended] ∧ .closed ∉ work ∧ .ended ∉ work ∧
      work.filterMap Act.chunk? = s.publish.chunks) ∧
    (∀ events, Feed.Runs ch s.closing { pipe := s.reads, ended := some s.ending } events ↔
      events = s.publish.chunks.map (.chunk ch) ++ [.ended ch]) ∧
    (s.ending = .quiet → s.publish.error = s.closing) ∧
    (∀ e, s.ending = .fault (.system e) → s.publish.error = some e) ∧
    (∀ f, s.ending = .fault f → f.IsInvalid →
      ∃ e, s.publish.error = some e ∧ e.kind = .system ∧ e.message = f.message) ∧
    ∀ f, s.ending = .fault f →
      (∀ chunk ∈ s.publish.chunks, IsTerminated chunk) ∧
      s.publish.chunks.flatten = s.reads.flatten.rdropWhile isOrdinary ∧
      ∃ lost, s.publish.chunks.flatten ++ lost = s.reads.flatten ∧
        lineFeed ∉ lost ∧ carriageReturn ∉ lost := by
  obtain ⟨work, hacts, hbusy, hchunks⟩ := exists_actsOf_eq s.ending s.closing {} s.reads
  have hruns : Feed.Runs ch s.closing { pipe := s.reads, ended := some s.ending }
      (s.publish.chunks.map (.chunk ch) ++ [.ended ch]) := Feed.runs_readAll s.ending {} hreads
  have herror : s.publish.error = (Reader.conclude {} s.closing s.ending).2 :=
    error_readAll s.ending s.closing {} hreads
  refine ⟨⟨work, hacts, hbusy.1, hbusy.2, hchunks⟩, fun events => ⟨fun h => h.unique hruns, ?_⟩,
    fun h => ?_, fun e h => ?_, fun f h hf => ?_, fun f h => ?_⟩
  · rintro rfl
    exact hruns
  · rw [herror, h]
    rfl
  · rw [herror, h]
    rfl
  · refine ⟨errorOfFault f, by rw [herror, h]; rfl, ?_⟩
    rw [hf.errorOfFault_eq]
    exact ⟨rfl, rfl⟩
  · have hplain : IsPlain (Reader.pending {}) := ⟨List.not_mem_nil, List.not_mem_nil⟩
    obtain ⟨hterminated, lost, hlost, hflat⟩ :=
      exists_flatten_append_eq f s.closing hplain hreads
    rw [← h] at hterminated hflat
    refine ⟨hterminated, ?_, lost, hflat, hlost⟩
    exact (rdropWhile_flatten_append hterminated hlost).symm.trans
      (congrArg (List.rdropWhile isOrdinary) hflat)

/-- A stream that is closed while it is read, and that then cannot be closed. -/
def disturbed : Source where
  reads := [[97, 10, 98], [99, 13, 100]]
  ending := .fault (.invalid "I/O operation on closed file.")
  closing := some (.coded 5 "Input/output error" none)

/-- Of two reads the last byte is lost, and the error is the one that the second read left. -/
theorem reader_ends_disturbed :
    disturbed.publish.chunks = [[97, 10], [98, 99, 13]] ∧
      disturbed.acts = [.asked, .published [97, 10], .asked, .published [98, 99, 13], .asked,
        .closed, .ended] ∧
      (∃ e, disturbed.publish.error = some e ∧ e.kind = .system ∧
        e.message = Text.ofString "I/O operation on closed file.") ∧
      ∃ lost, [97, 10, 98, 99, 13] ++ lost = disturbed.reads.flatten ∧ lineFeed ∉ lost ∧
        carriageReturn ∉ lost := by
  have hreads : ∀ data ∈ disturbed.reads, data ≠ [] := by decide
  have hinvalid : AccessFault.IsInvalid (.invalid "I/O operation on closed file.") :=
    ⟨by decide +kernel, nofun⟩
  have hchunks : disturbed.publish.chunks = [[97, 10], [98, 99, 13]] := by decide +kernel
  obtain ⟨-, -, -, -, herror, hlost⟩ := reader_ends hreads .stdout
  obtain ⟨-, -, lost, hflat, hplain⟩ := hlost _ rfl
  rw [hchunks] at hflat
  exact ⟨hchunks, by decide +kernel, herror _ rfl hinvalid, lost, hflat, hplain⟩

end Stream

end CommandRelay
