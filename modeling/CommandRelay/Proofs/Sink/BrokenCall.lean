import CommandRelay.Proofs.Sink.CallOrder
import CommandRelay.Proofs.Sink.FileContent
import CommandRelay.Proofs.Sink.Refusal

/-!
# Calls that break off

A call to several sinks goes to one after the other and breaks off at the first that refuses it
(`Outlets.BreaksOff`): the sinks in front have taken it, and those behind are left alone. Composites
of composites, however deep, are called as the row of their sinks is (`SinkTree.callAll_leaves`),
so they break off in the same way. A sink that raises on a call holds what it held before
(`Sink.Raises.gains`), so only one that takes a write in part may be left with anything else. What
still waits for a file that is written to by one sink alone goes into it when it is closed, unless
the system refuses it (`Outlets.Owns.close_self`).
-/

namespace CommandRelay

namespace Sink

/-! ## Sinks that refuse -/

/-- The sink raises something on a call, and becomes another one. -/
def Raises (s : Sink) : Call → Sink → Prop
  | .write data, s' => ∃ d fault, (s.write d data).2 = (s', .error fault)
  | .flush, s' => ∃ d fault, (s.flush d).2 = (s', .error fault)

/-- The sink takes another number of bytes than a call writes. -/
def CutsShort (s : Sink) : Call → Sink → Prop
  | .write data, s' => ∃ d n, (s.write d data).2 = (s', .ok n) ∧ n ≠ data.length
  | .flush, _ => False

variable {s s' : Sink}

/-- A recorder that raises on a write has kept nothing of it. -/
theorem chunks_of_write_error {r r' : Recorder} {data : Bytes} {fault : AccessFault}
    (h : r.write data = (r', .error fault)) : r'.chunks = r.chunks ++ [] := by
  rw [List.append_nil]
  unfold Recorder.write at h
  simp only at h
  split at h
  · split at h
    · rw [← (Prod.mk.inj h).1]
    · cases (Prod.mk.inj h).2
  · cases (Prod.mk.inj h).2

theorem exists_of_map_ofNat_error {answer : Except AccessFault Nat} {fault : AccessFault}
    (h : answer.map Int.ofNat = .error fault) : answer = .error fault := by
  cases answer with
  | error => exact congrArg Except.error (Except.error.inj h)
  | ok => cases h

/-- A sink that raises holds nothing more. -/
theorem Raises.gains {call : Call} (h : s.Raises call s') : Gains [] s s' := by
  cases call with
  | write data =>
      obtain ⟨d, fault, h⟩ := h
      cases s with
      | memory r =>
          obtain ⟨rfl, ha⟩ := Prod.mk.inj h
          exact .memory (chunks_of_write_error (Prod.ext rfl (exists_of_map_ofNat_error ha)))
      | file w =>
          obtain ⟨rfl, -⟩ := Prod.mk.inj h
          exact .file (w.continues_write d data).path (w.continues_write d data).place
      | fixed label answer flushing =>
          obtain ⟨rfl, -⟩ := Prod.mk.inj h
          exact .fixed
      | console c =>
          obtain ⟨rfl, ha⟩ := Prod.mk.inj h
          cases c with
          | text | layered => cases ha
          | recorded r =>
              exact .recorded (chunks_of_write_error (Prod.ext rfl (exists_of_map_ofNat_error ha)))
  | flush =>
      obtain ⟨d, fault, h⟩ := h
      cases s with
      | memory r =>
          obtain ⟨rfl, -⟩ := Prod.mk.inj h
          exact .memory (chunks_flush r)
      | file w =>
          obtain ⟨rfl, -⟩ := Prod.mk.inj h
          exact .file (w.continues_flush d).path (w.continues_flush d).place
      | fixed label answer flushing =>
          obtain ⟨rfl, -⟩ := Prod.mk.inj h
          exact .fixed
      | console c =>
          obtain ⟨rfl, ha⟩ := Prod.mk.inj h
          cases c with
          | text | layered => cases ha
          | recorded r => exact .recorded (chunks_flush r)

end Sink

/-! ## Calls to several sinks -/

namespace SinkTree

variable {o o' : Outlets} {call : Sink.Call} {is : List Nat} {fault : AccessFault}

theorem callAll_delivers (hn : is.Nodup) (h : callAll call (is.map .leaf) o = (o', .ok ())) :
    o.Delivers is call o' := by
  cases call with
  | write data => exact writeAll_delivers hn h
  | flush => exact flushAll_delivers hn h

theorem IsRow.isBounded {t : SinkTree} (ht : t.IsRow) : t.IsBounded := by
  obtain ⟨is, rfl⟩ := ht
  rw [IsBounded]
  exact areBounded_row is

/-- Composites of composites, however deep, are called as the row of their sinks is. -/
theorem callAll_leaves (call : Sink.Call) {t : SinkTree} (ht : t.IsBounded) (o : Outlets) :
    callAll call [t] o = callAll call (t.leaves.map .leaf) o := by
  cases call with
  | write data =>
      simp only [callAll, writeAll_eq_visitAll]
      exact visitAll_leaves _ t ht o
  | flush =>
      simp only [callAll, flushAll_eq_visitAll]
      exact visitAll_leaves _ t ht o

end SinkTree

namespace Outlets

/-- A call has broken off: it went to the sinks in front, which have taken it, and then to one that
has refused it. -/
def BreaksOff (o : Outlets) (call : Sink.Call) (front : List Nat) (i : Nat) (fault : AccessFault)
    (o' : Outlets) : Prop :=
  ∃ o₁, SinkTree.callAll call (front.map .leaf) o = (o₁, .ok ()) ∧
    o₁.refusal? i call = some fault ∧ o' = o₁.called i call

variable {o o' : Outlets} {call : Sink.Call} {is front : List Nat} {i k : Nat}
  {fault : AccessFault}

theorem exists_breaksOff_of_row
    (h : SinkTree.callAll call (is.map .leaf) o = (o', .error fault)) :
    ∃ front i rest, is = front ++ i :: rest ∧ o.BreaksOff call front i fault o' := by
  induction is generalizing o with
  | nil =>
      rw [List.map_nil, SinkTree.callAll_nil] at h
      cases (Prod.mk.inj h).2
  | cons i rest ih =>
      rw [SinkTree.callAll_leaf_cons] at h
      cases hr : o.refusal? i call with
      | some fault' =>
          rw [hr] at h
          obtain ⟨rfl, heq⟩ := Prod.mk.inj h
          obtain rfl := Except.error.inj heq
          exact ⟨[], i, rest, rfl, o, SinkTree.callAll_nil call o, hr, rfl⟩
      | none =>
          rw [hr] at h
          obtain ⟨front, j, behind, rfl, o₁, hfront, hrefused, hcalled⟩ := ih h
          refine ⟨i :: front, j, behind, rfl, o₁, ?_, hrefused, hcalled⟩
          rw [SinkTree.callAll_leaf_cons, hr]
          exact hfront

/-- A composite that raises, however deep, has broken off at one of its sinks. -/
theorem exists_breaksOff {t : SinkTree} (ht : t.IsBounded)
    (h : SinkTree.callAll call [t] o = (o', .error fault)) :
    ∃ front i rest, t.leaves = front ++ i :: rest ∧ o.BreaksOff call front i fault o' := by
  rw [SinkTree.callAll_leaves call ht] at h
  exact exists_breaksOff_of_row h

/-- A sink that refuses a call raises or cuts it short, and the others are what they were. -/
theorem exists_of_refusal? (h : o.refusal? i call = some fault) :
    ∃ s s', o.sinks[i]? = some s ∧ (o.called i call).sinks = o.sinks.set i s' ∧
      (s.Raises call s' ∨ s.CutsShort call s') := by
  cases call with
  | write data =>
      rw [refusal?, write] at h
      rw [called, write]
      cases hs : o.sinks[i]? with
      | none =>
          rw [hs] at h
          simp at h
      | some s =>
          rw [hs] at h
          refine ⟨s, (s.write o.disk data).2.1, rfl, rfl, ?_⟩
          cases ha : (s.write o.disk data).2.2 with
          | error fault' => exact .inl ⟨o.disk, fault', Prod.ext rfl ha⟩
          | ok n =>
              refine .inr ⟨o.disk, n, Prod.ext rfl ha, fun hn => ?_⟩
              simp only [ha, if_pos hn] at h
              cases h
  | flush =>
      rw [refusal?, flush] at h
      rw [called, flush]
      cases hs : o.sinks[i]? with
      | none =>
          rw [hs] at h
          cases h
      | some s =>
          rw [hs] at h
          refine ⟨s, (s.flush o.disk).2.1, rfl, rfl, ?_⟩
          cases ha : (s.flush o.disk).2.2 with
          | error fault' => exact .inl ⟨o.disk, fault', Prod.ext rfl ha⟩
          | ok =>
              simp only [ha] at h
              cases h

/-- What becomes of each sink in a call that breaks off. -/
theorem BreaksOff.sink (h : o.BreaksOff call front i fault o') (hn : front.Nodup)
    (hi : i ∉ front) {j : Nat} {s : Sink} (hs : o.sinks[j]? = some s) :
    ∃ s', o'.sinks[j]? = some s' ∧
      if j ∈ front then s.Takes call s'
      else if j = i then s.Raises call s' ∨ s.CutsShort call s' else s' = s := by
  obtain ⟨o₁, hfront, hrefused, rfl⟩ := h
  obtain ⟨s₁, hs₁, hcall⟩ := SinkTree.callAll_delivers hn hfront j s hs
  obtain ⟨t, t', ht, hset, hrefuses⟩ := exists_of_refusal? hrefused
  rw [hset]
  by_cases hji : j = i
  · subst hji
    rw [if_neg hi] at hcall
    obtain rfl := hcall
    obtain rfl := Option.some.inj (ht.symm.trans hs₁)
    refine ⟨t', List.getElem?_set_self (List.getElem?_eq_some_iff.mp hs₁).1, ?_⟩
    rw [if_neg hi, if_pos rfl]
    exact hrefuses
  · refine ⟨s₁, (List.getElem?_set_ne (Ne.symm hji)).trans hs₁, ?_⟩
    rw [if_neg hji]
    exact hcall

/-! ## Files -/

section Files

variable {names : List Text} {content waiting : Bytes}

/-- Of a call that breaks off, a file that is none of the sinks in front has got nothing, whether it
is the one that refuses or not. -/
theorem Owns.breaksOff_of_notMem (h : o.Owns k names content waiting) (hk : k ∉ front)
    (hb : o.BreaksOff call front i fault o') :
    ∃ content' waiting', o'.Owns k names content' waiting' ∧
      content' ++ waiting' = content ++ waiting := by
  obtain ⟨o₁, hfront, hrefused, rfl⟩ := hb
  have h₁ := h.callAll_of_notMem hk call
  rw [hfront] at h₁
  by_cases hik : i = k
  · subst hik
    obtain ⟨content', waiting', howns, ⟨hnone, -⟩ | ⟨-, happ⟩⟩ := h₁.called_self call
    · cases hrefused.symm.trans hnone
    · exact ⟨content', waiting', howns, happ⟩
  · exact ⟨content, waiting, h₁.called_of_ne hik call, rfl⟩

/-- Of a call that breaks off, a file among the sinks in front has got everything. -/
theorem Owns.breaksOff_of_mem (h : o.Owns k names content waiting) (hn : front.Nodup)
    (hi : i ∉ front) (hk : k ∈ front) (hb : o.BreaksOff call front i fault o') :
    ∃ content' waiting', o'.Owns k names content' waiting' ∧
      content' ++ waiting' = content ++ waiting ++ call.data?.getD [] := by
  obtain ⟨o₁, hfront, -, rfl⟩ := hb
  obtain ⟨content', waiting', h₁, -, happ⟩ := h.callAll_of_mem hn hk hfront
  refine ⟨content', waiting', h₁.called_of_ne ?_ call, happ⟩
  rintro rfl
  exact hi hk

/-- What waits goes into the file when it is closed, unless the system refuses it. -/
theorem Owns.close_self (h : o.Owns i names content waiting) :
    ∃ kept, (o.close i).1.Keeps i names kept ∧
      ((o.close i).2 = .ok () ∧ kept = content ++ waiting ∨
        (∃ e, (o.close i).2 = .error e ∧ o.Plans i e) ∧ kept = content) := by
  obtain ⟨w, hw, hfills⟩ := h.file
  have hkeeps {d' : Disk} {w' : Writer} {kept waiting' : Bytes} {answer : Except SystemError Unit}
      (hdrain : w.drain o.disk = (d', w', answer)) (hfills' : w'.Fills d' names kept waiting') :
      (o.close i).1.Keeps i names kept ∧ (o.close i).2 = answer := by
    obtain ⟨executable, hnode⟩ := hfills'.node
    have hclose : w.close o.disk = (d', { w' with closed := true, waiting := [] }, answer) := by
      rw [Writer.close, hfills.open_, hdrain]
      rfl
    unfold Outlets.close
    rw [hw]
    simp only [hclose]
    have hplace : w'.place = w.place := hfills'.place.trans hfills.place.symm
    refine ⟨⟨⟨_, List.getElem?_set_self (List.getElem?_eq_some_iff.mp hw).1, hfills'.place, rfl⟩,
      alone_of_set hw rfl (congrArg some hplace) h.alone, ?_⟩, trivial⟩
    rw [Disk.contentAt, hnode]
  rcases hfills.drain with ⟨d', w', hdrain, hfills'⟩ | ⟨w', e, hrefuses, hdrain, hfills'⟩
  · obtain ⟨hkept, hanswer⟩ := hkeeps hdrain hfills'
    exact ⟨_, hkept, .inl ⟨hanswer, rfl⟩⟩
  · obtain ⟨hkept, hanswer⟩ := hkeeps hdrain hfills'
    exact ⟨_, hkept, .inr ⟨⟨e, hanswer, plans_of_refuses hw hrefuses⟩, rfl⟩⟩

/-- Whether a file can be closed without a loss is up to its sink, and not to what else there is. -/
theorem Owns.close_answer {content' waiting' : Bytes} (h : o.Owns i names content waiting)
    (h' : o'.Owns i names content' waiting') (hs : o'.sinks[i]? = o.sinks[i]?) :
    (o'.close i).2 = (o.close i).2 := by
  obtain ⟨w, hw, hfills⟩ := h.file
  obtain ⟨w', hw', hfills'⟩ := h'.file
  obtain rfl := Sink.file.inj (Option.some.inj (hw'.symm.trans (hs.trans hw)))
  obtain rfl := hfills'.waits.symm.trans hfills.waits
  unfold Outlets.close
  rw [hw', hw]
  simp only [Writer.close, hfills.open_, Bool.false_eq_true, ↓reduceIte]
  exact hfills'.drain_answer hfills

theorem getElem?_close_of_ne (hki : k ≠ i) : (o.close k).1.sinks[i]? = o.sinks[i]? := by
  unfold Outlets.close
  split
  · exact List.getElem?_set_ne hki
  · rfl

theorem Owns.close_of_ne (h : o.Owns i names content waiting) (hki : k ≠ i) :
    (o.close k).1.Owns i names content waiting := by
  unfold Outlets.close
  split
  · rename_i v hv
    have helse : v.place ≠ .file names := fun hv' => hki (h.alone k _ hv (congrArg some hv'))
    obtain ⟨hnode, hplace⟩ := close_elsewhere (d := o.disk) helse
    exact h.of_set_of_ne hki hv rfl (congrArg some hplace) fun _ => hnode
  · exact h

theorem Owns.getElem?_display (h : o.Owns i names content waiting) (k : Nat) (text : Text) :
    (o.display k text).1.sinks[i]? = o.sinks[i]? := by
  unfold Outlets.display
  split
  · rename_i c hc
    obtain ⟨w, hw, -⟩ := h.file
    refine List.getElem?_set_ne ?_
    rintro rfl
    cases hc.symm.trans hw
  · rfl

/-- To show a text on a console is nothing to a file that is still written to. -/
theorem Owns.display (h : o.Owns i names content waiting) (k : Nat) (text : Text) :
    (o.display k text).1.Owns i names content waiting := by
  unfold Outlets.display
  split
  · rename_i c hc
    obtain ⟨w, hw, hfills⟩ := h.file
    have hki : k ≠ i := by
      rintro rfl
      cases hc.symm.trans hw
    exact h.of_set_of_ne hki hc rfl rfl fun _ => rfl
  · exact h

end Files

end Outlets

end CommandRelay
