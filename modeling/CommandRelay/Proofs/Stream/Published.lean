import CommandRelay.Execution.Child

/-!
# What a reader publishes of a child

The output of a child on a channel reaches the reader of the channel in reads of at most the read
size. However it is cut, the chunks that are published of it are the bytes that the child has
written, in order: `flatten_publishes` says so of a reader at work, and `flatten_publishes_reads` of
a fresh one and the moves of a child.
-/

namespace CommandRelay

namespace Stream

/-! ## Pieces -/

namespace Source

theorem pieces_nil : pieces [] = [] := by
  simp [pieces]

theorem pieces_of_ne_nil {bytes : Bytes} (h : bytes ≠ []) :
    pieces bytes = bytes.take readSize :: pieces (bytes.drop readSize) := by
  by_cases hl : bytes.length ≤ readSize
  · rw [List.take_of_length_le hl, List.drop_eq_nil_of_le hl, pieces_nil, pieces]
    simp [hl, h]
  · rw [pieces]
    simp [hl]

theorem flatten_pieces (bytes : Bytes) : (pieces bytes).flatten = bytes := by
  fun_induction pieces bytes with
  | case1 => rfl
  | case2 bytes => simp
  | case3 bytes _ ih => rw [List.flatten_cons, ih, List.take_append_drop]

theorem ne_nil_of_mem_pieces {bytes piece : Bytes} (h : piece ∈ pieces bytes) : piece ≠ [] := by
  fun_induction pieces bytes with
  | case1 => simp at h
  | case2 bytes _ hne => simpa using List.mem_singleton.mp h ▸ hne
  | case3 bytes hl ih =>
      rcases List.mem_cons.mp h with rfl | hmem
      · rw [ne_eq, List.take_eq_nil_iff]
        rintro (h0 | rfl)
        · cases h0
        · exact hl (Nat.zero_le _)
      · exact ih hmem

end Source

/-! ## Readers -/

/-- Nothing is kept at the end of a stream. -/
theorem chunks_true_snd (pending : Bytes) : (chunks true pending).2 = [] := by
  fun_induction chunks true pending with
  | case1 pending h =>
      unfold nextChunk? at h
      split at h
      · cases h
      · split at h
        · cases h
        · by_cases hp : pending = []
          · exact hp
          · simp [hp] at h
  | case2 _ _ _ _ ih => exact ih

theorem chunks_readAll_cons (ending : Ending) (closing : Option SystemError) (r : Reader)
    {data : Bytes} (h : data ≠ []) (rest : List Bytes) :
    (readAll ending closing r (data :: rest)).chunks =
      (r.feed data).1 ++ (readAll ending closing (r.feed data).2 rest).chunks := by
  cases data with
  | nil => exact absurd rfl h
  | cons b data => rfl

namespace Reader

theorem flatten_feed (r : Reader) (data : Bytes) :
    (r.feed data).1.flatten ++ (r.feed data).2.pending = r.pending ++ data :=
  chunks_eq false (r.pending ++ data)

theorem flatten_finish (r : Reader) : r.finish.flatten = r.pending := by
  have h := chunks_eq true r.pending
  rwa [chunks_true_snd, List.append_nil] at h

/-- The chunks that a reader publishes of reads after which the stream ends without a fault. -/
def publishes (r : Reader) (reads : List Bytes) : List Bytes :=
  (readAll .quiet none r reads).chunks

theorem publishes_nil (r : Reader) : r.publishes [] = r.finish :=
  rfl

theorem publishes_cons (r : Reader) {data : Bytes} (h : data ≠ []) (rest : List Bytes) :
    r.publishes (data :: rest) = (r.feed data).1 ++ (r.feed data).2.publishes rest :=
  chunks_readAll_cons .quiet none r h rest

/-- The chunks are the bytes that were pending and those that were read. -/
theorem flatten_publishes (r : Reader) {reads : List Bytes} (h : ∀ data ∈ reads, data ≠ []) :
    (r.publishes reads).flatten = r.pending ++ reads.flatten := by
  induction reads generalizing r with
  | nil => rw [publishes_nil, flatten_finish, List.flatten_nil, List.append_nil]
  | cons data rest ih =>
      have hrest := ih (r.feed data).2 fun d hd => h d (List.mem_cons_of_mem _ hd)
      calc (r.publishes (data :: rest)).flatten
          = (r.feed data).1.flatten ++ ((r.feed data).2.publishes rest).flatten := by
            rw [publishes_cons r (h data List.mem_cons_self), List.flatten_append]
        _ = (r.feed data).1.flatten ++ (r.feed data).2.pending ++ rest.flatten := by
            rw [hrest, List.append_assoc]
        _ = r.pending ++ (data :: rest).flatten := by
            rw [flatten_feed, List.flatten_cons, List.append_assoc]

end Reader

/-- What closing the stream raises has nothing to do with the chunks. -/
theorem chunks_readAll (r : Reader) (closing : Option SystemError) (reads : List Bytes) :
    (readAll .quiet closing r reads).chunks = r.publishes reads := by
  unfold Reader.publishes
  induction reads generalizing r with
  | nil => rfl
  | cons data rest ih =>
      cases data with
      | nil => rfl
      | cons b data => exact congrArg ((r.feed (b :: data)).1 ++ ·) (ih _)

end Stream

/-! ## The moves of a child -/

namespace Move

/-- The reads that the output of moves on a channel comes to, until they end the channel. -/
def reads (ch : Channel) : List Move → List Bytes
  | [] => []
  | .output ch' data :: rest =>
    if ch' = ch then Stream.Source.pieces data ++ reads ch rest else reads ch rest
  | .close ch' _ :: rest => if ch' = ch then [] else reads ch rest
  | .edit _ :: rest | .exit :: rest | .pause _ :: rest => reads ch rest

/-- The bytes that moves write on a channel, until they end it. -/
def written (ch : Channel) : List Move → Bytes
  | [] => []
  | .output ch' data :: rest => if ch' = ch then data ++ written ch rest else written ch rest
  | .close ch' _ :: rest => if ch' = ch then [] else written ch rest
  | .edit _ :: rest | .exit :: rest | .pause _ :: rest => written ch rest

/-- Moves that write nothing on a channel. -/
def Silent (ch : Channel) (moves : List Move) : Prop :=
  ∀ data, .output ch data ∉ moves

/-- Moves that write nothing on a channel once they have ended it, and end it without a fault. -/
def Orderly (ch : Channel) : List Move → Prop
  | [] => True
  | .close ch' ending :: rest =>
    if ch' = ch then ending = .quiet ∧ Silent ch rest else Orderly ch rest
  | .output .. :: rest | .edit _ :: rest | .exit :: rest | .pause _ :: rest => Orderly ch rest

theorem flatten_reads (ch : Channel) (moves : List Move) :
    (reads ch moves).flatten = written ch moves := by
  induction moves with
  | nil => rfl
  | cons m rest ih =>
      cases m with
      | output ch' data =>
          rw [reads, written]
          split
          · rw [List.flatten_append, Stream.Source.flatten_pieces, ih]
          · exact ih
      | close ch' ending =>
          rw [reads, written]
          split
          · rfl
          · exact ih
      | edit | exit | pause => exact ih

theorem ne_nil_of_mem_reads {ch : Channel} {moves : List Move} {data : Bytes}
    (h : data ∈ reads ch moves) : data ≠ [] := by
  induction moves with
  | nil => cases h
  | cons m rest ih =>
      cases m with
      | output ch' bytes =>
          rw [reads] at h
          split at h
          · rcases List.mem_append.mp h with h | h
            · exact Stream.Source.ne_nil_of_mem_pieces h
            · exact ih h
          · exact ih h
      | close ch' ending =>
          rw [reads] at h
          split at h
          · cases h
          · exact ih h
      | edit | exit | pause => exact ih h

/-- The chunks that a fresh reader publishes are what the child writes. -/
theorem flatten_publishes_reads (ch : Channel) (moves : List Move) :
    (Stream.Reader.publishes {} (reads ch moves)).flatten = written ch moves := by
  rw [Stream.Reader.flatten_publishes _ fun _ => ne_nil_of_mem_reads, List.nil_append,
    flatten_reads]

end Move

end CommandRelay
