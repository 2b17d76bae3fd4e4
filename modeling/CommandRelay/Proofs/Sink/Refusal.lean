import CommandRelay.Proofs.Sink.Delivery

/-!
# Sinks that refuse a call

A sink refuses a call if it raises something or takes another number of bytes than it is given. A
call to several sinks goes to one after the other, and the first of them that refuses it decides
(`Outlets.firstRefusal?`). A composite of sinks raises just that, and nothing if no sink refuses
(`SinkTree.IsRow.write_eq_error_iff`, `SinkTree.IsRow.flush_eq_error_iff`). What holds of writes and
flushes alike is said of `SinkTree.callAll`.
-/

namespace CommandRelay

namespace Outlets

/-- What a sink that refuses a call makes of it. -/
def refusal? (o : Outlets) (i : Nat) : Sink.Call → Option AccessFault
  | .write data =>
    match o.write i data with
    | (_, .error fault) => some fault
    | (o', .ok n) =>
      if n = data.length then none
      else some (.system (.shortWrite (o'.label i) n data.length))
  | .flush =>
    match o.flush i with
    | (_, .error fault) => some fault
    | (_, .ok ()) => none

/-- The sinks after a call to one of them. -/
def called (o : Outlets) (i : Nat) : Sink.Call → Outlets
  | .write data => (o.write i data).1
  | .flush => (o.flush i).1

/-- What the first of several sinks that refuses a call makes of it. -/
def firstRefusal? (call : Sink.Call) : List Nat → Outlets → Option AccessFault
  | [], _ => none
  | i :: is, o => (o.refusal? i call).or (firstRefusal? call is (o.called i call))

end Outlets

namespace SinkTree

variable {data : Bytes} {fault : AccessFault}

theorem writeAll_eq_error_iff (is : List Nat) (o : Outlets) :
    (writeAll data (is.map .leaf) o).2 = .error fault ↔
      Outlets.firstRefusal? (.write data) is o = some fault := by
  induction is generalizing o with
  | nil => exact ⟨nofun, nofun⟩
  | cons i rest ih =>
      rw [List.map_cons, writeAll, write, Outlets.firstRefusal?, Outlets.refusal?, Outlets.called]
      rcases o.write i data with ⟨o₁, fault' | n⟩
      · simp
      · by_cases hn : n = data.length
        · simpa [hn] using ih o₁
        · simp [hn, label]

theorem flushAll_eq_error_iff (is : List Nat) (o : Outlets) :
    (flushAll (is.map .leaf) o).2 = .error fault ↔
      Outlets.firstRefusal? .flush is o = some fault := by
  induction is generalizing o with
  | nil => exact ⟨nofun, nofun⟩
  | cons i rest ih =>
      rw [List.map_cons, flushAll, flush, Outlets.firstRefusal?, Outlets.refusal?, Outlets.called]
      rcases o.flush i with ⟨o₁, fault' | ⟨⟩⟩
      · simp
      · simpa using ih o₁

/-- A composite of single sinks. -/
def IsRow (t : SinkTree) : Prop :=
  ∃ is : List Nat, t = .group (is.map .leaf)

variable {t : SinkTree}

/-- A composite that is written to raises what the first sink raises that refuses the write. -/
theorem IsRow.write_eq_error_iff (ht : t.IsRow) (o : Outlets) :
    (t.write data o).2 = .error fault ↔
      Outlets.firstRefusal? (.write data) t.leaves o = some fault := by
  obtain ⟨is, rfl⟩ := ht
  rw [leaves_group, ← writeAll_eq_error_iff, write]
  rcases writeAll data (is.map .leaf) o with ⟨o₁, fault' | ⟨⟩⟩ <;> simp

/-- A composite that is flushed raises what the first sink raises that refuses the flush. -/
theorem IsRow.flush_eq_error_iff (ht : t.IsRow) (o : Outlets) :
    (t.flush o).2 = .error fault ↔ Outlets.firstRefusal? .flush t.leaves o = some fault := by
  obtain ⟨is, rfl⟩ := ht
  rw [leaves_group, ← flushAll_eq_error_iff, flush]

/-! ## Calls of either kind -/

/-- A call to several composites, one after the other. -/
def callAll : Sink.Call → List SinkTree → Outlets → Outlets × Except AccessFault Unit
  | .write data => writeAll data
  | .flush => flushAll

theorem callAll_nil (call : Sink.Call) (o : Outlets) : callAll call [] o = (o, .ok ()) := by
  cases call <;> rfl

/-- The first of several sinks is called, and the others if it does not refuse. -/
theorem callAll_leaf_cons (call : Sink.Call) (i : Nat) (is : List Nat) (o : Outlets) :
    callAll call ((i :: is).map .leaf) o =
      match o.refusal? i call with
      | some fault => (o.called i call, .error fault)
      | none => callAll call (is.map .leaf) (o.called i call) := by
  cases call with
  | write data =>
      rw [callAll, List.map_cons, writeAll, write, Outlets.refusal?, Outlets.called]
      rcases o.write i data with ⟨o₁, fault | n⟩
      · rfl
      · by_cases hn : n = data.length
        · simp only [if_pos hn]
        · simp only [if_neg hn]
          rfl
  | flush =>
      rw [callAll, List.map_cons, flushAll, flush, Outlets.refusal?, Outlets.called]
      rcases o.flush i with ⟨o₁, fault | ⟨⟩⟩ <;> rfl

end SinkTree

end CommandRelay
