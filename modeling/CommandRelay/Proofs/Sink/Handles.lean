import CommandRelay.Proofs.Sink.Delivery

/-!
# Handles of files

Among the sinks of a run are files that were opened for it. `Outlets.handles` shows of each sink
whether it holds a file, of which path, and whether the file has been closed. Whatever is written,
flushed or shown, and whatever comes of it, the handles stay what they are; only opening adds one
and only closing changes one. What is planned for a file when it is opened (`Outlets.planned`) is
never changed.
-/

namespace CommandRelay

theorem Writer.path_closed_close (w : Writer) (d : Disk) :
    (w.close d).2.1.path = w.path ∧ (w.close d).2.1.closed = true := by
  unfold close
  split
  · rename_i hclosed
    exact ⟨rfl, hclosed⟩
  · exact ⟨(w.continues_drain d).path, rfl⟩

/-! ## Sinks -/

namespace Sink

/-- The file that a sink holds: its path, and whether it has been closed. -/
def handle? : Sink → Option (Text × Bool)
  | .file w => some (w.path, w.closed)
  | .memory _ | .console _ | .fixed .. => none

variable (s : Sink) (d : Disk)

theorem handle?_write (data : Bytes) : (s.write d data).2.1.handle? = s.handle? := by
  cases s with
  | file w =>
      have h := w.continues_write d data
      exact congrArg some (Prod.ext h.path h.closed)
  | memory | console | fixed => rfl

theorem handle?_flush : (s.flush d).2.1.handle? = s.handle? := by
  cases s with
  | file w =>
      have h := w.continues_flush d
      exact congrArg some (Prod.ext h.path h.closed)
  | memory | console | fixed => rfl

/-- What is planned for the file that a sink holds: the times at which the system refuses what it is
given. -/
def planned : Sink → List (Nat × SystemError)
  | .file w => w.refusals
  | .memory _ | .console _ | .fixed .. => []

theorem planned_write (data : Bytes) : (s.write d data).2.1.planned = s.planned := by
  cases s with
  | file w => exact (w.continues_write d data).refusals
  | memory | console | fixed => rfl

theorem planned_flush : (s.flush d).2.1.planned = s.planned := by
  cases s with
  | file w => exact (w.continues_flush d).refusals
  | memory | console | fixed => rfl

end Sink

/-! ## Outlets -/

namespace Outlets

/-- The handles of the sinks, by their numbers. -/
def handles (o : Outlets) : List (Option (Text × Bool)) :=
  o.sinks.map Sink.handle?

variable {o : Outlets} {i : Nat} {s s' : Sink}

theorem length_handles (o : Outlets) : o.handles.length = o.sinks.length :=
  List.length_map _

theorem getElem?_handles (o : Outlets) (i : Nat) :
    o.handles[i]? = o.sinks[i]?.map Sink.handle? :=
  List.getElem?_map ..

/-- A sink is replaced by one that looks the same. -/
theorem map_set_of_eq {α : Type} {f : Sink → α} (hs : o.sinks[i]? = some s) (h : f s' = f s) :
    (o.sinks.set i s').map f = o.sinks.map f := by
  rw [List.map_set, h]
  apply List.ext_getElem?
  intro j
  rw [List.getElem?_set]
  split
  · rename_i hij
    subst hij
    rw [List.getElem?_map, hs, if_pos]
    · rfl
    · rw [List.length_map]
      exact (List.getElem?_eq_some_iff.mp hs).1
  · rfl

theorem handles_add (o : Outlets) (s : Sink) : (o.add s).1.handles = o.handles ++ [s.handle?] := by
  simp [handles, add]

theorem handles_write (o : Outlets) (i : Nat) (data : Bytes) :
    (o.write i data).1.handles = o.handles := by
  unfold write
  split
  · rfl
  · rename_i s hs
    exact map_set_of_eq hs (s.handle?_write o.disk data)

theorem handles_flush (o : Outlets) (i : Nat) : (o.flush i).1.handles = o.handles := by
  unfold flush
  split
  · rfl
  · rename_i s hs
    exact map_set_of_eq hs (s.handle?_flush o.disk)

theorem handles_display (o : Outlets) (i : Nat) (text : Text) :
    (o.display i text).1.handles = o.handles := by
  unfold display
  split
  · rename_i c hc
    exact map_set_of_eq hc rfl
  · rfl

/-- What is planned for the files that the sinks hold, by their numbers. -/
def planned (o : Outlets) : List (List (Nat × SystemError)) :=
  o.sinks.map Sink.planned

theorem planned_write (o : Outlets) (i : Nat) (data : Bytes) :
    (o.write i data).1.planned = o.planned := by
  unfold write
  split
  · rfl
  · rename_i s hs
    exact map_set_of_eq hs (s.planned_write o.disk data)

theorem planned_flush (o : Outlets) (i : Nat) : (o.flush i).1.planned = o.planned := by
  unfold flush
  split
  · rfl
  · rename_i s hs
    exact map_set_of_eq hs (s.planned_flush o.disk)

/-- Closing a file marks its handle, whether that fails or not. -/
theorem handles_close {w : Writer} (h : o.sinks[i]? = some (.file w)) :
    (o.close i).1.handles = o.handles.set i (some (w.path, true)) := by
  have hclose := w.path_closed_close o.disk
  unfold close
  rw [h]
  simp only [handles, List.map_set, Sink.handle?, hclose.1, hclose.2]

end Outlets

namespace SinkTree

/-! ### Calls to trees

What single sinks keep, composites keep: they call sinks one after the other. -/

section

variable {p : Outlets → Outlets → Prop} {data : Bytes}

mutual

theorem write_related (hrefl : ∀ o, p o o) (htrans : ∀ {o o' o''}, p o o' → p o' o'' → p o o'')
    (hwrite : ∀ (o : Outlets) i, p o (o.write i data).1) (t : SinkTree) (o : Outlets) :
    p o (t.write data o).1 := by
  cases t with
  | leaf i => exact hwrite o i
  | group members =>
      have h := writeAll_related hrefl htrans hwrite members o
      rw [write]
      split <;> rename_i heq <;> rw [heq] at h <;> exact h
  | endless => exact hrefl o

theorem writeAll_related (hrefl : ∀ o, p o o)
    (htrans : ∀ {o o' o''}, p o o' → p o' o'' → p o o'')
    (hwrite : ∀ (o : Outlets) i, p o (o.write i data).1) (ts : List SinkTree) (o : Outlets) :
    p o (writeAll data ts o).1 := by
  cases ts with
  | nil => exact hrefl o
  | cons t rest =>
      have h := write_related hrefl htrans hwrite t o
      rw [writeAll]
      split <;> rename_i heq <;> rw [heq] at h
      · exact h
      · split
        · exact htrans h (writeAll_related hrefl htrans hwrite rest _)
        · exact h

end

mutual

theorem flush_related (hrefl : ∀ o, p o o) (htrans : ∀ {o o' o''}, p o o' → p o' o'' → p o o'')
    (hflush : ∀ (o : Outlets) i, p o (o.flush i).1) (t : SinkTree) (o : Outlets) :
    p o (t.flush o).1 := by
  cases t with
  | leaf i => exact hflush o i
  | group members => exact flushAll_related hrefl htrans hflush members o
  | endless => exact hrefl o

theorem flushAll_related (hrefl : ∀ o, p o o)
    (htrans : ∀ {o o' o''}, p o o' → p o' o'' → p o o'')
    (hflush : ∀ (o : Outlets) i, p o (o.flush i).1) (ts : List SinkTree) (o : Outlets) :
    p o (flushAll ts o).1 := by
  cases ts with
  | nil => exact hrefl o
  | cons t rest =>
      have h := flush_related hrefl htrans hflush t o
      rw [flushAll]
      split <;> rename_i heq <;> rw [heq] at h
      · exact h
      · exact htrans h (flushAll_related hrefl htrans hflush rest _)

end

end

theorem handles_write (data : Bytes) (t : SinkTree) (o : Outlets) :
    (t.write data o).1.handles = o.handles :=
  write_related (p := fun o o' => o'.handles = o.handles) (fun _ => rfl)
    (fun h h' => h'.trans h) (fun o i => o.handles_write i data) t o

theorem handles_flush (t : SinkTree) (o : Outlets) : (t.flush o).1.handles = o.handles :=
  flush_related (p := fun o o' => o'.handles = o.handles) (fun _ => rfl)
    (fun h h' => h'.trans h) (fun o i => o.handles_flush i) t o

theorem planned_write (data : Bytes) (t : SinkTree) (o : Outlets) :
    (t.write data o).1.planned = o.planned :=
  write_related (p := fun o o' => o'.planned = o.planned) (fun _ => rfl)
    (fun h h' => h'.trans h) (fun o i => o.planned_write i data) t o

theorem planned_flush (t : SinkTree) (o : Outlets) : (t.flush o).1.planned = o.planned :=
  flush_related (p := fun o o' => o'.planned = o.planned) (fun _ => rfl)
    (fun h h' => h'.trans h) (fun o i => o.planned_flush i) t o

end SinkTree

end CommandRelay
