import CommandRelay.Proofs.Stream.Published

/-!
# Where chunks end

A chunk ends at its only line feed; without a line feed it ends at its only carriage return, and
without either it is the last chunk of its stream. `isCut_publishes` says this of the chunks that a
reader publishes, whatever the reads are. It follows that every line feed ends a chunk, that
chunks joined up to the next line feed are the lines of the stream, and that in a stream without
carriage returns the chunks are the lines, so that they do not depend on the reads.
-/

namespace CommandRelay.Stream

/-! ## Single chunks -/

/-- Bytes that end at the only `b` in them. -/
def EndsAt (b : UInt8) (bytes : Bytes) : Prop :=
  ∃ front, b ∉ front ∧ bytes = front ++ [b]

/-- A chunk that ends at its only line feed, or has none and ends at its only carriage return. -/
def IsTerminated (chunk : Bytes) : Prop :=
  EndsAt lineFeed chunk ∨ lineFeed ∉ chunk ∧ EndsAt carriageReturn chunk

/-- Bytes in which no chunk ends. -/
def IsPlain (bytes : Bytes) : Prop :=
  lineFeed ∉ bytes ∧ carriageReturn ∉ bytes

theorem EndsAt.ne_nil {b : UInt8} {bytes : Bytes} (h : EndsAt b bytes) : bytes ≠ [] := by
  obtain ⟨front, -, rfl⟩ := h
  simp

/-- Behind the `b` at which bytes end there is nothing. -/
theorem EndsAt.eq_nil_of_append {b : UInt8} {front back : Bytes}
    (h : EndsAt b (front ++ b :: back)) : back = [] := by
  obtain ⟨init, hinit, heq⟩ := h
  rcases List.eq_nil_or_concat back with hnil | ⟨back, last, rfl⟩
  · exact hnil
  · rw [List.concat_eq_append, ← List.cons_append, ← List.append_assoc] at heq
    have hfront : front ++ b :: back = init := List.append_inj_left' heq rfl
    rw [← hfront] at hinit
    exact absurd (List.mem_append_right _ List.mem_cons_self) hinit

theorem IsTerminated.ne_nil {chunk : Bytes} (h : IsTerminated chunk) : chunk ≠ [] :=
  h.elim EndsAt.ne_nil fun h => h.2.ne_nil

theorem endsAt_of_cutAfter {b : UInt8} {pending front back : Bytes}
    (h : cutAfter b pending = some (front, back)) : EndsAt b front := by
  induction pending generalizing front with
  | nil => cases h
  | cons c rest ih =>
      rw [cutAfter] at h
      split at h
      · rename_i hc
        obtain ⟨rfl, -⟩ := Prod.mk.inj (Option.some.inj h)
        exact ⟨[], List.not_mem_nil, by rw [hc]; rfl⟩
      · rename_i hc
        obtain ⟨⟨f, k⟩, hf, hfront⟩ := Option.map_eq_some_iff.mp h
        obtain ⟨rfl, rfl⟩ := Prod.mk.inj hfront
        obtain ⟨init, hinit, rfl⟩ := ih hf
        refine ⟨c :: init, ?_, rfl⟩
        rw [List.mem_cons, not_or]
        exact ⟨Ne.symm hc, hinit⟩

theorem notMem_of_cutAfter {b : UInt8} {pending : Bytes} (h : cutAfter b pending = none) :
    b ∉ pending := by
  induction pending with
  | nil => exact List.not_mem_nil
  | cons c rest ih =>
      rw [cutAfter] at h
      split at h
      · cases h
      · rename_i hc
        rw [List.mem_cons, not_or]
        exact ⟨Ne.symm hc, ih (Option.map_eq_none_iff.mp h)⟩

/-- The chunk at the front is terminated, or it is all that is left of a stream that has ended. -/
theorem isTerminated_of_nextChunk? {ended : Bool} {pending front back : Bytes}
    (h : nextChunk? ended pending = some (front, back)) :
    IsTerminated front ∨ ended = true ∧ IsPlain front ∧ back = [] := by
  have happend := (nextChunk?_append h).1
  unfold nextChunk? at h
  cases hfeed : cutAfter lineFeed pending with
  | some cut =>
      rw [hfeed] at h
      obtain rfl := Option.some.inj h
      exact .inl (.inl (endsAt_of_cutAfter hfeed))
  | none =>
      have hnofeed := notMem_of_cutAfter hfeed
      rw [hfeed] at h
      cases hreturn : cutAfter carriageReturn pending with
      | some cut =>
          rw [hreturn] at h
          obtain rfl := Option.some.inj h
          have hfront : lineFeed ∉ front := by
            intro hmem
            rw [← happend] at hnofeed
            exact hnofeed (List.mem_append_left _ hmem)
          exact .inl (.inr ⟨hfront, endsAt_of_cutAfter hreturn⟩)
      | none =>
          rw [hreturn] at h
          simp only [Option.ite_none_right_eq_some] at h
          obtain ⟨hended, heq⟩ := h
          obtain ⟨rfl, rfl⟩ := Prod.mk.inj (Option.some.inj heq)
          exact .inr ⟨hended.1, ⟨hnofeed, notMem_of_cutAfter hreturn⟩, rfl⟩

/-! ## Lists of chunks -/

/-- Chunks as a stream is cut into: all are terminated but the last one, which may be plain. -/
inductive IsCut : List Bytes → Prop
  | nil : IsCut []
  | last {chunk} (hne : chunk ≠ []) (h : IsPlain chunk) : IsCut [chunk]
  | cons {chunk rest} (h : IsTerminated chunk) (hrest : IsCut rest) : IsCut (chunk :: rest)

theorem IsCut.append {chunks more : List Bytes} (h : ∀ chunk ∈ chunks, IsTerminated chunk)
    (hmore : IsCut more) : IsCut (chunks ++ more) := by
  induction chunks with
  | nil => exact hmore
  | cons chunk rest ih =>
      apply IsCut.cons
      · exact h chunk List.mem_cons_self
      · exact ih fun c hc => h c (List.mem_cons_of_mem _ hc)

theorem IsCut.ne_nil {chunks : List Bytes} (h : IsCut chunks) : ∀ chunk ∈ chunks, chunk ≠ [] := by
  induction h with
  | nil => intro chunk hmem; cases hmem
  | last hne _ =>
      intro chunk hmem
      rwa [List.mem_singleton.mp hmem]
  | cons hchunk _ ih =>
      intro chunk hmem
      rcases List.mem_cons.mp hmem with rfl | hmem
      · exact hchunk.ne_nil
      · exact ih chunk hmem

/-- A chunk that is not terminated is plain, and nothing comes after it. -/
theorem IsCut.ends {chunks : List Bytes} (h : IsCut chunks) {before after : List Bytes}
    {chunk : Bytes} (heq : chunks = before ++ chunk :: after) :
    IsTerminated chunk ∨ IsPlain chunk ∧ after = [] := by
  induction h generalizing before with
  | nil => simp at heq
  | last _ hplain =>
      cases before with
      | nil =>
          obtain ⟨rfl, rfl⟩ := List.cons.inj heq
          exact .inr ⟨hplain, rfl⟩
      | cons _ front => simp at heq
  | cons hchunk _ ih =>
      cases before with
      | nil =>
          obtain ⟨rfl, -⟩ := List.cons.inj heq
          exact .inl hchunk
      | cons _ front => exact ih (List.cons.inj heq).2

theorem isTerminated_of_mem_chunks {pending chunk : Bytes} (h : chunk ∈ (chunks false pending).1) :
    IsTerminated chunk := by
  fun_induction chunks false pending with
  | case1 => cases h
  | case2 pending front back hnext ih =>
      rcases List.mem_cons.mp h with rfl | hmem
      · exact (isTerminated_of_nextChunk? hnext).resolve_right fun hlast =>
        Bool.false_ne_true hlast.1
      · exact ih hmem

theorem isCut_chunks (pending : Bytes) : IsCut (chunks true pending).1 := by
  fun_induction chunks true pending with
  | case1 => exact .nil
  | case2 pending front back hnext ih =>
      rcases isTerminated_of_nextChunk? hnext with hfront | ⟨-, hplain, rfl⟩
      · exact .cons hfront ih
      · have hnone : (chunks true []).1 = [] := by
          rw [chunks]
          rfl
        rw [hnone]
        exact .last (nextChunk?_append hnext).2 hplain

/-- Whatever the reads are, what a reader publishes is cut where chunks end. -/
theorem isCut_publishes (r : Reader) {reads : List Bytes} (h : ∀ data ∈ reads, data ≠ []) :
    IsCut (r.publishes reads) := by
  induction reads generalizing r with
  | nil => exact isCut_chunks r.pending
  | cons data rest ih =>
      rw [Reader.publishes_cons r (h data List.mem_cons_self)]
      apply IsCut.append
      · intro chunk hmem
        exact isTerminated_of_mem_chunks hmem
      · exact ih _ fun d hd => h d (List.mem_cons_of_mem _ hd)

/-! ## Lines -/

/-- Puts bytes in front of the first of some lines. -/
def putBefore (bytes : Bytes) : List Bytes → List Bytes
  | [] => [bytes]
  | line :: rest => (bytes ++ line) :: rest

/-- The lines of a stream: each ends at a line feed, the last one possibly at the end. -/
def lines : Bytes → List Bytes
  | [] => []
  | b :: rest => if b = lineFeed then [b] :: lines rest else putBefore [b] (lines rest)

/-- Joins each chunk that does not end in a line feed with what follows it. -/
def joinUnended : List Bytes → List Bytes
  | [] => []
  | chunk :: rest =>
    if chunk.getLast? = some lineFeed then chunk :: joinUnended rest
    else putBefore chunk (joinUnended rest)

theorem putBefore_append (front back : Bytes) (rest : List Bytes) :
    putBefore (front ++ back) rest = putBefore front (putBefore back rest) := by
  cases rest with
  | nil => rfl
  | cons line rest => rw [putBefore, putBefore, putBefore, List.append_assoc]

/-- A line goes on as long as no line feed comes. -/
theorem lines_append {front : Bytes} (hne : front ≠ []) (h : lineFeed ∉ front) (rest : Bytes) :
    lines (front ++ rest) = putBefore front (lines rest) := by
  induction front with
  | nil => exact absurd rfl hne
  | cons b front ih =>
      rw [List.mem_cons, not_or] at h
      rw [List.cons_append, lines, if_neg (Ne.symm h.1)]
      by_cases hfront : front = []
      · rw [hfront, List.nil_append]
      · rw [ih hfront h.2, ← putBefore_append, List.singleton_append]

theorem lines_append_of_endsAt {line : Bytes} (h : EndsAt lineFeed line) (rest : Bytes) :
    lines (line ++ rest) = line :: lines rest := by
  obtain ⟨front, hfront, rfl⟩ := h
  have hfeed : lines (lineFeed :: rest) = [lineFeed] :: lines rest := by
    rw [lines, if_pos rfl]
  rw [List.append_assoc, List.singleton_append]
  by_cases hne : front = []
  · rw [hne, List.nil_append, List.nil_append, hfeed]
  · rw [lines_append hne hfront, hfeed, putBefore]

theorem getLast?_of_endsAt {b : UInt8} {bytes : Bytes} (h : EndsAt b bytes) :
    bytes.getLast? = some b := by
  obtain ⟨front, -, rfl⟩ := h
  exact List.getLast?_concat

theorem getLast?_ne_of_notMem {b : UInt8} {bytes : Bytes} (h : b ∉ bytes) :
    bytes.getLast? ≠ some b :=
  fun heq => h (List.mem_of_getLast? heq)

/-- Chunks that are joined up to the next line feed are the lines of the stream. -/
theorem IsCut.joinUnended_eq {chunks : List Bytes} (h : IsCut chunks) :
    joinUnended chunks = lines chunks.flatten := by
  induction h with
  | nil => rfl
  | @last chunk hne hplain =>
      have hlines := lines_append hne hplain.1 []
      rw [joinUnended, if_neg (getLast?_ne_of_notMem hplain.1), List.flatten_singleton]
      rw [List.append_nil] at hlines
      exact hlines.symm
  | @cons chunk rest hchunk _ ih =>
      rw [joinUnended, List.flatten_cons]
      rcases hchunk with hfeed | ⟨hnofeed, hreturn⟩
      · rw [if_pos (getLast?_of_endsAt hfeed), ih, lines_append_of_endsAt hfeed]
      · rw [if_neg (getLast?_ne_of_notMem hnofeed), ih, lines_append hreturn.ne_nil hnofeed]

/-- Without carriage returns, the chunks are the lines. -/
theorem IsCut.eq_lines {chunks : List Bytes} (h : IsCut chunks)
    (hreturn : carriageReturn ∉ chunks.flatten) : chunks = lines chunks.flatten := by
  induction h with
  | nil => rfl
  | @last chunk hne hplain =>
      have hlines := lines_append hne hplain.1 []
      rw [List.append_nil] at hlines
      rw [List.flatten_singleton, hlines]
      rfl
  | @cons chunk rest hchunk _ ih =>
      rw [List.flatten_cons, List.mem_append, not_or] at hreturn
      have hfeed : EndsAt lineFeed chunk := by
        refine hchunk.resolve_right ?_
        rintro ⟨-, front, -, rfl⟩
        exact hreturn.1 (List.mem_append_right _ List.mem_cons_self)
      rw [List.flatten_cons, lines_append_of_endsAt hfeed, ← ih hreturn.2]

/-- Every line feed of the stream ends a chunk. -/
theorem IsCut.exists_split {chunks : List Bytes} (h : IsCut chunks) {front back : Bytes}
    (heq : chunks.flatten = front ++ lineFeed :: back) :
    ∃ before after, chunks = before ++ after ∧ before.flatten = front ++ [lineFeed] := by
  induction h generalizing front with
  | nil => simp at heq
  | last _ hplain =>
      rw [List.flatten_singleton] at heq
      exact absurd (heq ▸ List.mem_append_right _ List.mem_cons_self) hplain.1
  | @cons chunk rest hchunk _ ih =>
      rw [List.flatten_cons] at heq
      rcases List.append_eq_append_iff.mp heq with ⟨more, rfl, hrest⟩ | ⟨more, hmore, hback⟩
      · obtain ⟨before, after, rfl, hbefore⟩ := ih hrest
        refine ⟨chunk :: before, after, rfl, ?_⟩
        rw [List.flatten_cons, hbefore, List.append_assoc]
      · cases more with
        | nil =>
            have hrest : rest.flatten = [] ++ lineFeed :: back := hback.symm
            obtain ⟨before, after, rfl, hbefore⟩ := ih hrest
            refine ⟨chunk :: before, after, rfl, ?_⟩
            rw [List.flatten_cons, hbefore, hmore, List.append_nil, List.nil_append]
        | cons b more =>
            -- The line feed lies in this chunk, so it is the one at which the chunk ends.
            obtain ⟨rfl, hback⟩ := List.cons.inj hback
            have hmem : lineFeed ∈ chunk := hmore ▸ List.mem_append_right _ List.mem_cons_self
            have hfeed := hchunk.resolve_right fun hc => hc.1 hmem
            rw [hmore] at hfeed
            obtain rfl := hfeed.eq_nil_of_append
            exact ⟨[chunk], rest, rfl, by rw [List.flatten_singleton, hmore]⟩

end CommandRelay.Stream
