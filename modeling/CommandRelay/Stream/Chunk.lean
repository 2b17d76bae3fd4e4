import CommandRelay.Text.Utf8

/-! # Chunks

A stream of bytes is cut into chunks. A chunk ends at the first line feed of the pending bytes,
failing that at the first carriage return, and failing that only where the stream ends.
`chunks` cuts off every complete chunk and keeps the rest, and `chunks_eq` says that nothing is
lost or reordered. -/

namespace CommandRelay.Stream

/-- A line feed. -/
def lineFeed : UInt8 := 0x0A

/-- A carriage return. -/
def carriageReturn : UInt8 := 0x0D

/-- The bytes up to the first `b`, and what follows them. -/
def cutAfter (b : UInt8) : Bytes → Option (Bytes × Bytes)
  | [] => none
  | c :: rest =>
    if c = b then some ([c], rest)
    else (cutAfter b rest).map fun (front, back) => (c :: front, back)

/-- The chunk at the front of the pending bytes, if it is complete, and what follows it. -/
def nextChunk? (ended : Bool) (pending : Bytes) : Option (Bytes × Bytes) :=
  match cutAfter lineFeed pending with
  | some cut => some cut
  | none =>
    match cutAfter carriageReturn pending with
    | some cut => some cut
    | none => if ended ∧ pending ≠ [] then some (pending, []) else none

theorem cutAfter_append {b : UInt8} {pending front back : Bytes}
    (h : cutAfter b pending = some (front, back)) : front ++ back = pending ∧ front ≠ [] := by
  induction pending generalizing front with
  | nil => simp [cutAfter] at h
  | cons c rest ih =>
    rw [cutAfter] at h
    split at h
    · simp only [Option.some.injEq, Prod.mk.injEq] at h
      obtain ⟨rfl, rfl⟩ := h
      simp
    · obtain ⟨⟨f, k⟩, hf, h⟩ := Option.map_eq_some_iff.1 h
      simp only [Prod.mk.injEq] at h
      obtain ⟨rfl, rfl⟩ := h
      simp [(ih hf).1]

/-- A chunk and what follows it are the pending bytes, and a chunk is not empty. -/
theorem nextChunk?_append {ended : Bool} {pending front back : Bytes}
    (h : nextChunk? ended pending = some (front, back)) :
    front ++ back = pending ∧ front ≠ [] := by
  unfold nextChunk? at h
  split at h
  · rename_i cut hc
    simp only [Option.some.injEq] at h
    subst h
    exact cutAfter_append hc
  · split at h
    · rename_i cut hc
      simp only [Option.some.injEq] at h
      subst h
      exact cutAfter_append hc
    · split at h
      · rename_i hp
        simp only [Option.some.injEq, Prod.mk.injEq] at h
        obtain ⟨rfl, rfl⟩ := h
        exact ⟨by simp, hp.2⟩
      · simp at h

/-- Every complete chunk of the pending bytes, and the rest. -/
def chunks (ended : Bool) (pending : Bytes) : List Bytes × Bytes :=
  match _h : nextChunk? ended pending with
  | none => ([], pending)
  | some (front, back) => (front :: (chunks ended back).1, (chunks ended back).2)
termination_by pending.length
decreasing_by
  all_goals
    obtain ⟨happ, hne⟩ := nextChunk?_append _h
    have := List.length_pos_iff.2 hne
    rw [← happ, List.length_append]
    omega

/-- The chunks and the rest are the pending bytes. -/
theorem chunks_eq (ended : Bool) (pending : Bytes) :
    (chunks ended pending).1.flatten ++ (chunks ended pending).2 = pending := by
  fun_induction chunks ended pending with
  | case1 => simp
  | case2 pending front back h ih => simp [ih, (nextChunk?_append h).1]

end CommandRelay.Stream
