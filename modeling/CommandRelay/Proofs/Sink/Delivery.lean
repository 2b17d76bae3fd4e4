import CommandRelay.Sink.Tree

/-!
# What sinks receive

A sink is written to and flushed, one call after the other. `Sink.TakesAll` says that a sink has
taken a list of calls in order, each of them in full and without a fault, and `TakesAll.gains` what
it holds more after that. A composite passes a call on to each of its sinks, once, and leaves the
other sinks alone: `Outlets.Delivers`.
-/

namespace CommandRelay

/-! ## Writers -/

namespace Writer

/-- The system is set up to refuse what the writer puts on the disk at some time. -/
def Refuses (w : Writer) (e : SystemError) : Prop :=
  ∃ n, (n, e) ∈ w.refusals

theorem refuses_of_refusal? {w : Writer} {e : SystemError} (h : w.refusal? = some e) :
    w.Refuses e := by
  obtain ⟨⟨n, e'⟩, hfind, rfl⟩ := Option.map_eq_some_iff.mp h
  exact ⟨n, List.mem_of_find?_eq_some hfind⟩

/-- A writer that has been used: it writes to the same file, has not been closed since, and is set
up as it was. -/
structure Continues (w w' : Writer) : Prop where
  path : w'.path = w.path
  place : w'.place = w.place
  closed : w'.closed = w.closed
  refusals : w'.refusals = w.refusals

theorem Continues.refl (w : Writer) : w.Continues w :=
  ⟨rfl, rfl, rfl, rfl⟩

theorem Continues.trans {w w' w'' : Writer} (h : w.Continues w') (h' : w'.Continues w'') :
    w.Continues w'' :=
  ⟨h'.path.trans h.path, h'.place.trans h.place, h'.closed.trans h.closed,
    h'.refusals.trans h.refusals⟩

variable (w : Writer) (d : Disk) (data : Bytes)

/-- Bytes that are put on a disk are none, or are taken, or are refused, and then nothing changes
but how often the system has been given bytes. -/
theorem put_cases :
    (data = [] ∧ w.put d data = (d, w, .ok ())) ∨
      (∃ d', data ≠ [] ∧ w.refusal? = none ∧ d.write w.place w.offset data = .ok d' ∧
        w.put d data =
          (d', { w with puts := w.puts + 1, offset := w.offset + data.length }, .ok ())) ∨
      ∃ e, data ≠ [] ∧ (w.refusal? = some e ∨ d.write w.place w.offset data = .error e) ∧
        w.put d data = (d, { w with puts := w.puts + 1 }, .error e) := by
  unfold put
  by_cases hne : data = []
  · exact .inl ⟨hne, by rw [if_pos hne]⟩
  · right
    rw [if_neg hne]
    cases hr : w.refusal? with
    | some e => exact .inr ⟨e, hne, .inl rfl, rfl⟩
    | none =>
        cases hd : d.write w.place w.offset data with
        | ok d' => exact .inl ⟨d', hne, rfl, rfl, rfl⟩
        | error e => exact .inr ⟨e, hne, .inr rfl, rfl⟩

theorem continues_put : w.Continues (w.put d data).2.1 := by
  rcases w.put_cases d data with ⟨-, h⟩ | ⟨d', -, -, -, h⟩ | ⟨e, -, -, h⟩ <;> rw [h]
  · exact .refl w
  · exact ⟨rfl, rfl, rfl, rfl⟩
  · exact ⟨rfl, rfl, rfl, rfl⟩

theorem continues_drain : w.Continues (w.drain d).2.1 := by
  have h := w.continues_put d w.waiting
  unfold drain
  split <;> rename_i heq <;> rw [heq] at h
  · exact ⟨h.path, h.place, h.closed, h.refusals⟩
  · exact h

theorem continues_write : w.Continues (w.write d data).2.1 := by
  have hdrain := w.continues_drain d
  unfold write
  split
  · exact .refl w
  · split
    · exact ⟨rfl, rfl, rfl, rfl⟩
    · split <;> rename_i heq <;> rw [heq] at hdrain
      · exact hdrain
      · rename_i d₁ w₁
        split
        · exact ⟨hdrain.path, hdrain.place, hdrain.closed, hdrain.refusals⟩
        · have hput := w₁.continues_put d₁ data
          split <;> rename_i heq <;> rw [heq] at hput <;> exact hdrain.trans hput

theorem continues_flush : w.Continues (w.flush d).2.1 := by
  unfold flush
  split
  · exact .refl w
  · exact w.continues_drain d

end Writer

namespace Sink

/-- A call to a sink. -/
inductive Call where
  | write (data : Bytes)
  | flush
  deriving DecidableEq, Repr

/-- The bytes that a call writes. -/
def Call.data? : Call → Option Bytes
  | .write data => some data
  | .flush => none

/-- The sink takes a call in full, whatever is on the disk, and becomes another one. -/
def Takes (s : Sink) : Call → Sink → Prop
  | .write data, s' => ∃ d, (s.write d data).2 = (s', .ok data.length)
  | .flush, s' => ∃ d, (s.flush d).2 = (s', .ok ())

/-- The sink takes calls one after the other. -/
inductive TakesAll (s : Sink) : List Call → Sink → Prop
  | nil : TakesAll s [] s
  | snoc {calls s' call s''} (h : TakesAll s calls s') (ht : s'.Takes call s'') :
      TakesAll s (calls ++ [call]) s''

/-- What a sink holds more than before, if it has been given chunks of bytes since: each chunk by
itself if it keeps them, their bytes if it is a byte stream below a layer of text, and what can be
read in each chunk if it is a stream of text. A file keeps its place. -/
inductive Gains (chunks : List Bytes) : Sink → Sink → Prop
  | memory {r r' : Recorder} (h : r'.chunks = r.chunks ++ chunks) :
      Gains chunks (.memory r) (.memory r')
  | file {w w' : Writer} (hpath : w'.path = w.path) (hplace : w'.place = w.place) :
      Gains chunks (.file w) (.file w')
  | text {shown shown' : Text}
      (h : shown' = shown ++ chunks.flatMap fun data => Text.ofString (Utf8.decodeLossy data)) :
      Gains chunks (.console (.text shown)) (.console (.text shown'))
  | layered {waiting shown waiting' shown' : Bytes}
      (h : shown' ++ waiting' = shown ++ waiting ++ chunks.flatten)
      (hw : waiting' = [] ∨ chunks = [] ∧ waiting' = waiting) :
      Gains chunks (.console (.layered waiting shown)) (.console (.layered waiting' shown'))
  | recorded {r r' : Recorder} (h : r'.chunks = r.chunks ++ chunks) :
      Gains chunks (.console (.recorded r)) (.console (.recorded r'))
  | fixed {label : String} {answer : Except SystemError Int} {flushing : Option SystemError} :
      Gains chunks (.fixed label answer flushing) (.fixed label answer flushing)

variable {s s' s'' : Sink} {chunks more : List Bytes} {calls : List Call}

theorem TakesAll.eq_of_nil (h : s.TakesAll [] s') : s' = s := by
  generalize hnil : ([] : List Call) = done at h
  cases h with
  | nil => rfl
  | snoc => simp at hnil

theorem Gains.refl (s : Sink) : Gains [] s s := by
  cases s with
  | memory => exact .memory (List.append_nil _).symm
  | file => exact .file rfl rfl
  | fixed => exact .fixed
  | console c =>
      cases c with
      | text => exact .text (List.append_nil _).symm
      | layered => exact .layered (List.append_nil _).symm (.inr ⟨rfl, rfl⟩)
      | recorded => exact .recorded (List.append_nil _).symm

theorem Gains.trans (h : Gains chunks s s') (h' : Gains more s' s'') :
    Gains (chunks ++ more) s s'' := by
  cases h with
  | memory h => cases h' with | memory h' => exact .memory (by rw [h', h, List.append_assoc])
  | file hp hl => cases h' with | file hp' hl' => exact .file (hp'.trans hp) (hl'.trans hl)
  | fixed => cases h' with | fixed => exact .fixed
  | text h =>
      cases h' with
      | text h' => exact .text (by rw [h', h, List.flatMap_append, List.append_assoc])
  | recorded h => cases h' with | recorded h' => exact .recorded (by rw [h', h, List.append_assoc])
  | layered h hw =>
      cases h' with
      | layered h' hw' =>
          refine .layered (by rw [h', h, List.flatten_append, List.append_assoc]) ?_
          rcases hw' with hw' | ⟨rfl, rfl⟩
          · exact .inl hw'
          · rwa [List.append_nil]

/-! ## One call -/

/-- A recorder that takes a write in full keeps it as it is. -/
theorem chunks_of_write {r r' : Recorder} {data : Bytes}
    (h : r.write data = (r', .ok data.length)) : r'.chunks = r.chunks ++ [data] := by
  have hkeep (n : Nat) (hk : Recorder.write.keep r data n = (r', .ok data.length)) :
      r'.chunks = r.chunks ++ [data] := by
    unfold Recorder.write.keep at hk
    split at hk
    · split at hk
      · obtain ⟨rfl, hlen⟩ := Prod.mk.inj hk
        have hlen := Except.ok.inj hlen
        rw [List.length_take] at hlen
        rw [List.take_of_length_le (by omega)]
      · obtain ⟨rfl, -⟩ := Prod.mk.inj hk
        rfl
    · obtain ⟨rfl, -⟩ := Prod.mk.inj hk
      rfl
  unfold Recorder.write at h
  simp only at h
  split at h
  · split at h
    · cases (Prod.mk.inj h).2
    · exact hkeep _ h
  · exact hkeep _ h

theorem chunks_flush (r : Recorder) : r.flush.1.chunks = r.chunks ++ [] := by
  rw [List.append_nil]
  rfl

theorem eq_ok_of_map_ofNat {answer : Except AccessFault Nat} {n : Nat}
    (h : answer.map Int.ofNat = .ok n) : answer = .ok n := by
  cases answer with
  | error => cases h
  | ok m => rw [Int.ofNat.inj (Except.ok.inj h)]

theorem gains_of_write {data : Bytes} {d : Disk}
    (h : (s.write d data).2 = (s', .ok data.length)) : Gains [data] s s' := by
  cases s with
  | memory r =>
      obtain ⟨rfl, ha⟩ := Prod.mk.inj h
      exact .memory (chunks_of_write (Prod.ext rfl (eq_ok_of_map_ofNat ha)))
  | file w =>
      obtain ⟨rfl, -⟩ := Prod.mk.inj h
      exact .file (w.continues_write d data).path (w.continues_write d data).place
  | fixed label answer flushing =>
      obtain ⟨rfl, -⟩ := Prod.mk.inj h
      exact .fixed
  | console c =>
      obtain ⟨rfl, ha⟩ := Prod.mk.inj h
      cases c with
      | text shown => exact .text (by rw [List.flatMap_singleton])
      | layered waiting shown =>
          exact .layered (by rw [List.flatten_singleton, List.append_nil]) (.inl rfl)
      | recorded r => exact .recorded (chunks_of_write (Prod.ext rfl (eq_ok_of_map_ofNat ha)))

theorem gains_of_flush {d : Disk} (h : (s.flush d).2 = (s', .ok ())) : Gains [] s s' := by
  cases s with
  | memory r =>
      obtain ⟨rfl, -⟩ := Prod.mk.inj h
      exact .memory (chunks_flush r)
  | file w =>
      obtain ⟨rfl, -⟩ := Prod.mk.inj h
      exact .file (w.continues_flush d).path (w.continues_flush d).place
  | fixed label answer flushing =>
      obtain ⟨rfl, -⟩ := Prod.mk.inj h
      exact .fixed
  | console c =>
      obtain ⟨rfl, -⟩ := Prod.mk.inj h
      cases c with
      | text shown => exact .text (by rw [List.flatMap_nil, List.append_nil])
      | layered waiting shown =>
          exact .layered (by rw [List.flatten_nil, List.append_nil]) (.inl rfl)
      | recorded r => exact .recorded (chunks_flush r)

/-- A sink that takes a call holds what the call wrote more. -/
theorem Takes.gains {call : Call} (h : s.Takes call s') : Gains call.data?.toList s s' := by
  cases call with
  | write data =>
      obtain ⟨d, hd⟩ := h
      exact gains_of_write hd
  | flush =>
      obtain ⟨d, hd⟩ := h
      exact gains_of_flush hd

/-! ## Several calls -/

/-- After any calls, a sink holds what they wrote more. -/
theorem TakesAll.gains (h : s.TakesAll calls s') : Gains (calls.filterMap Call.data?) s s' := by
  induction h with
  | nil => exact .refl s
  | @snoc calls s' call s'' h ht ih =>
      have hcall : [call].filterMap Call.data? = call.data?.toList := by
        cases call <;> rfl
      rw [List.filterMap_append, hcall]
      exact ih.trans ht.gains

end Sink

/-! ## Composites -/

namespace Outlets

/-- A call has been passed on to the sinks of some numbers: each of them has taken it, and all
others are what they were. -/
def Delivers (is : List Nat) (call : Sink.Call) (o o' : Outlets) : Prop :=
  ∀ i s, o.sinks[i]? = some s →
    ∃ s', o'.sinks[i]? = some s' ∧ if i ∈ is then s.Takes call s' else s' = s

variable {o o' o'' : Outlets} {i : Nat} {is : List Nat} {call : Sink.Call} {data : Bytes}

theorem delivers_nil (o : Outlets) (call : Sink.Call) : o.Delivers [] call o :=
  fun _ s hs => ⟨s, hs, by rw [if_neg List.not_mem_nil]⟩

/-- A call to one sink and then to others, of which it is none. -/
theorem Delivers.cons (hi : i ∉ is) (h : o.Delivers [i] call o') (h' : o'.Delivers is call o'') :
    o.Delivers (i :: is) call o'' := by
  intro j s hs
  obtain ⟨s₁, hs₁, hfirst⟩ := h j s hs
  obtain ⟨s₂, hs₂, hrest⟩ := h' j s₁ hs₁
  refine ⟨s₂, hs₂, ?_⟩
  by_cases hj : j = i
  · subst hj
    rw [if_neg hi] at hrest
    rw [if_pos List.mem_cons_self, hrest]
    rwa [if_pos List.mem_cons_self] at hfirst
  · rw [if_neg fun hmem => hj (List.mem_singleton.mp hmem)] at hfirst
    rw [hfirst] at hrest
    simp only [List.mem_cons, hj, false_or]
    exact hrest

/-- What becomes of the sinks if one of them is replaced. -/
theorem delivers_of_set {s s' : Sink} (hs : o.sinks[i]? = some s)
    (ho : o'.sinks = o.sinks.set i s') (ht : s.Takes call s') : o.Delivers [i] call o' := by
  intro j t hj
  by_cases hji : j = i
  · subst hji
    obtain rfl := Option.some.inj (hs.symm.trans hj)
    refine ⟨s', ?_, ?_⟩
    · rw [ho, List.getElem?_set_self]
      exact (List.getElem?_eq_some_iff.mp hj).1
    · rwa [if_pos List.mem_cons_self]
  · refine ⟨t, ?_, ?_⟩
    · rw [ho, List.getElem?_set_ne (Ne.symm hji), hj]
    · rw [if_neg fun hmem => hji (List.mem_singleton.mp hmem)]

/-- A number that no sink goes by. -/
theorem delivers_of_none (hnone : o.sinks[i]? = none) (call : Sink.Call) :
    o.Delivers [i] call o := by
  intro j s hj
  refine ⟨s, hj, ?_⟩
  rw [if_neg]
  intro hmem
  rw [List.mem_singleton.mp hmem, hnone] at hj
  cases hj

theorem write_delivers (h : o.write i data = (o', .ok data.length)) :
    o.Delivers [i] (.write data) o' := by
  unfold write at h
  split at h
  · rename_i hnone
    obtain ⟨rfl, -⟩ := Prod.mk.inj h
    exact delivers_of_none hnone _
  · rename_i s hs
    obtain ⟨rfl, ha⟩ := Prod.mk.inj h
    exact delivers_of_set hs rfl ⟨o.disk, Prod.ext rfl ha⟩

theorem flush_delivers (h : o.flush i = (o', .ok ())) : o.Delivers [i] .flush o' := by
  unfold flush at h
  split at h
  · rename_i hnone
    obtain ⟨rfl, -⟩ := Prod.mk.inj h
    exact delivers_of_none hnone _
  · rename_i s hs
    obtain ⟨rfl, ha⟩ := Prod.mk.inj h
    exact delivers_of_set hs rfl ⟨o.disk, Prod.ext rfl ha⟩

end Outlets

namespace SinkTree

variable {o o' : Outlets} {is : List Nat} {data : Bytes}

theorem leaves_group (is : List Nat) : (SinkTree.group (is.map .leaf)).leaves = is := by
  rw [leaves]
  induction is with
  | nil => rfl
  | cons i rest ih => rw [List.map_cons, leavesAll, leaves, ih, List.singleton_append]

/-- To write to several sinks without a fault is to write to each of them in full. -/
theorem writeAll_leaf_cons {i : Nat} :
    writeAll data ((i :: is).map .leaf) o = (o', .ok ()) ↔
      ∃ o₁, o.write i data = (o₁, .ok data.length) ∧
        writeAll data (is.map .leaf) o₁ = (o', .ok ()) := by
  rw [List.map_cons, writeAll, write]
  rcases o.write i data with ⟨o₁, fault | n⟩
  · simp
  · simp only
    split
    · rename_i hn
      simp [hn]
    · rename_i hn
      simp [hn]

theorem flushAll_leaf_cons {i : Nat} :
    flushAll ((i :: is).map .leaf) o = (o', .ok ()) ↔
      ∃ o₁, o.flush i = (o₁, .ok ()) ∧ flushAll (is.map .leaf) o₁ = (o', .ok ()) := by
  rw [List.map_cons, flushAll, flush]
  rcases o.flush i with ⟨o₁, fault | ⟨⟩⟩ <;> simp

/-- A composite passes what it is given on to each of its sinks. -/
theorem writeAll_delivers (hn : is.Nodup) (h : writeAll data (is.map .leaf) o = (o', .ok ())) :
    o.Delivers is (.write data) o' := by
  induction is generalizing o with
  | nil =>
      obtain ⟨rfl, -⟩ := Prod.mk.inj h
      exact Outlets.delivers_nil o _
  | cons i rest ih =>
      obtain ⟨o₁, hw, hrest⟩ := writeAll_leaf_cons.mp h
      obtain ⟨hi, hn⟩ := List.nodup_cons.mp hn
      exact (Outlets.write_delivers hw).cons hi (ih hn hrest)

theorem flushAll_delivers (hn : is.Nodup) (h : flushAll (is.map .leaf) o = (o', .ok ())) :
    o.Delivers is .flush o' := by
  induction is generalizing o with
  | nil =>
      obtain ⟨rfl, -⟩ := Prod.mk.inj h
      exact Outlets.delivers_nil o _
  | cons i rest ih =>
      obtain ⟨o₁, hf, hrest⟩ := flushAll_leaf_cons.mp h
      obtain ⟨hi, hn⟩ := List.nodup_cons.mp hn
      exact (Outlets.flush_delivers hf).cons hi (ih hn hrest)

/-- What a composite of sinks takes without a fault, it writes to all of them. -/
theorem writeAll_of_write_group {n : Int}
    (h : (SinkTree.group (is.map .leaf)).write data o = (o', .ok n)) :
    writeAll data (is.map .leaf) o = (o', .ok ()) := by
  rw [write] at h
  rcases hw : writeAll data (is.map .leaf) o with ⟨o₁, fault | ⟨⟩⟩
  · rw [hw] at h
    cases (Prod.mk.inj h).2
  · rw [hw] at h
    rw [(Prod.mk.inj h).1]

end SinkTree

end CommandRelay
