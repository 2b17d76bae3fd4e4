import CommandRelay.Disk.Edit
import CommandRelay.Proofs.Sink.Handles
import CommandRelay.Proofs.Sink.Refusal

/-!
# What a file sink leaves on the disk

A writer that began with an empty file and that nobody disturbs has put everything that it has taken
into the file, except for what still waits: `Writer.Fills`. `Outlets.Owns` says so of a sink among
others, none of which writes to the same file. A call to the sink either adds what it writes or is
refused and adds nothing (`Outlets.Owns.called_self`), and calls to other sinks keep it.
-/

namespace CommandRelay

/-- The names that lead to what an edit changes. -/
def DiskEdit.names : DiskEdit → List Text
  | .put names _ | .write names _ _ | .erase names => names

/-! ## Disks -/

namespace Disk

variable {d d' : Disk} {names names' : List Text} {n : Node}

theorem node?_put_self (h : names ≠ []) : (d.put names n).node? names = some n := by
  have hnone : (d.nodes.filter (·.1 ≠ names)).find? (·.1 = names) = none := by
    rw [List.find?_eq_none]
    intro a ha
    simpa using (List.mem_filter.mp ha).2
  rw [node?, if_neg h, put, List.find?_append, hnone]
  simp

theorem find?_filter_of_ne (nodes : List (List Text × Node)) (h : names' ≠ names) :
    (nodes.filter (·.1 ≠ names)).find? (·.1 = names') = nodes.find? (·.1 = names') := by
  rw [List.find?_filter]
  congr 1
  funext a
  by_cases ha : a.1 = names' <;> simp [ha, h]

theorem node?_put_of_ne (h : names' ≠ names) : (d.put names n).node? names' = d.node? names' := by
  unfold node? put
  rw [List.find?_append, find?_filter_of_ne _ h]
  simp [h.symm]

theorem node?_erase_of_ne (h : names' ≠ names) : (d.erase names).node? names' = d.node? names' := by
  unfold node? erase
  rw [find?_filter_of_ne _ h]

/-- An edit leaves everything alone but the node that it is about. -/
theorem node?_apply_of_ne {change : DiskEdit} (h : names ≠ change.names) :
    (d.apply change).node? names = d.node? names := by
  cases change with
  | put => exact node?_put_of_ne h
  | erase => exact node?_erase_of_ne h
  | write names' offset data =>
      rw [apply]
      split
      · exact node?_put_of_ne h
      · rfl

theorem ne_nil_of_node?_eq_file {content : Bytes} {executable : Bool}
    (h : d.node? names = some (.file content executable)) : names ≠ [] := by
  rintro rfl
  rw [node?, if_pos rfl] at h
  cases h

/-- Bytes that are put at the end of others follow them. -/
theorem overwrite_length (content data : Bytes) :
    overwrite content content.length data = content ++ data := by
  simp [overwrite]

/-- To write at the end of a file appends to it, and leaves everything else alone. -/
theorem write_file {content : Bytes} {executable : Bool}
    (h : d.node? names = some (.file content executable)) (data : Bytes) :
    ∃ d', d.write (.file names) content.length data = .ok d' ∧
      d'.node? names = some (.file (content ++ data) executable) := by
  by_cases hd : data = []
  · exact ⟨d, by rw [write, if_pos hd], by rw [hd, List.append_nil, h]⟩
  · refine ⟨_, by rw [write, if_neg hd], ?_⟩
    rw [node?_put_self (ne_nil_of_node?_eq_file h), contentAt, h, overwrite_length]

theorem node?_write_of_ne {place : Place} {offset : Nat} {data : Bytes}
    (hp : place ≠ .file names) (h : d.write place offset data = .ok d') :
    d'.node? names = d.node? names := by
  unfold write at h
  split at h
  · rw [Except.ok.inj h]
  · rw [Except.ok.inj h]
  · split at h
    · rw [Except.ok.inj h]
    · cases h
  · rename_i names₁
    split at h
    · rw [Except.ok.inj h]
    · rw [← Except.ok.inj h]
      exact node?_put_of_ne fun heq => hp (by rw [heq])

end Disk

/-! ## Writers -/

namespace Writer

/-- An open writer that has filled a file from its start on: `content` is in the file, and
`waiting` follows it. -/
structure Fills (w : Writer) (d : Disk) (names : List Text) (content waiting : Bytes) : Prop where
  place : w.place = .file names
  open_ : w.closed = false
  waits : w.waiting = waiting
  offset : w.offset = content.length
  node : ∃ executable, d.node? names = some (.file content executable)

variable {w w' : Writer} {d d' : Disk} {names : List Text} {content waiting data : Bytes}

theorem Fills.of_node?_eq (h : w.Fills d names content waiting)
    (hd : d'.node? names = d.node? names) : w.Fills d' names content waiting :=
  ⟨h.place, h.open_, h.waits, h.offset, by rw [hd]; exact h.node⟩

/-- Bytes that are put on the disk follow those in the file, or are refused and change nothing. -/
theorem Fills.put (h : w.Fills d names content waiting) (data : Bytes) :
    (∃ d' w', w.put d data = (d', w', .ok ()) ∧ w'.Fills d' names (content ++ data) waiting) ∨
      ∃ w' e, w.Refuses e ∧ w.put d data = (d, w', .error e) ∧
        w'.Fills d names content waiting := by
  obtain ⟨executable, hnode⟩ := h.node
  obtain ⟨d₁, hd, hnode'⟩ := Disk.write_file hnode data
  rw [← h.place, ← h.offset] at hd
  rcases w.put_cases d data with ⟨rfl, hput⟩ | ⟨d', -, -, hwrite, hput⟩ | ⟨e, -, hwhy, hput⟩
  · refine .inl ⟨d, w, hput, ?_⟩
    rwa [List.append_nil]
  · obtain rfl := Except.ok.inj (hd.symm.trans hwrite)
    refine .inl ⟨_, _, hput, h.place, h.open_, h.waits, ?_, executable, hnode'⟩
    rw [List.length_append, ← h.offset]
  · have hrefuses : w.Refuses e := by
      rcases hwhy with hwhy | hwhy
      · exact refuses_of_refusal? hwhy
      · cases hd.symm.trans hwhy
    exact .inr ⟨_, e, hrefuses, hput, h.place, h.open_, h.waits, h.offset, executable, hnode⟩

theorem Fills.drain (h : w.Fills d names content waiting) :
    (∃ d' w', w.drain d = (d', w', .ok ()) ∧ w'.Fills d' names (content ++ waiting) []) ∨
      ∃ w' e, w.Refuses e ∧ w.drain d = (d, w', .error e) ∧
        w'.Fills d names content waiting := by
  rcases h.put w.waiting with ⟨d', w', hput, hfills⟩ | ⟨w', e, hrefuses, hput, hfills⟩
  · rw [h.waits] at hfills
    refine .inl ⟨d', { w' with waiting := [] }, by rw [Writer.drain, hput], ?_⟩
    exact ⟨hfills.place, hfills.open_, rfl, hfills.offset, hfills.node⟩
  · exact .inr ⟨w', e, hrefuses, by rw [Writer.drain, hput], hfills⟩

/-- Whether what waits is taken has nothing to do with the disk. -/
theorem Fills.drain_answer {content' : Bytes} (h : w.Fills d names content waiting)
    (h' : w.Fills d' names content' waiting) : (w.drain d).2.2 = (w.drain d').2.2 := by
  have hanswer {d : Disk} {content : Bytes} (h : w.Fills d names content waiting) :
      (w.drain d).2.2 = if waiting = [] then .ok () else (w.refusal?.map .error).getD (.ok ()) := by
    obtain ⟨executable, hnode⟩ := h.node
    obtain ⟨d₁, hwrite, -⟩ := Disk.write_file hnode waiting
    rw [Writer.drain, Writer.put, h.waits, h.place, h.offset, hwrite]
    by_cases hnil : waiting = []
    · rw [if_pos hnil, if_pos hnil]
    · rw [if_neg hnil, if_neg hnil]
      cases w.refusal? <;> rfl
  rw [hanswer h, hanswer h']

/-- What is written comes after everything before, unless it is refused. -/
theorem Fills.write (h : w.Fills d names content waiting) (data : Bytes) :
    ∃ d' w' answer content' waiting', w.write d data = (d', w', answer) ∧
      w'.Fills d' names content' waiting' ∧
      (answer = .ok data.length ∧ content' ++ waiting' = content ++ waiting ++ data ∨
        (∃ e, w.Refuses e ∧ answer = .error (.system e)) ∧
          content' ++ waiting' = content ++ waiting) := by
  unfold Writer.write
  rw [h.open_]
  simp only [Bool.false_eq_true, ↓reduceIte]
  split
  · refine ⟨d, _, _, content, waiting ++ data, rfl, ⟨h.place, rfl, by rw [h.waits], h.offset,
      h.node⟩, .inl ⟨rfl, (List.append_assoc ..).symm⟩⟩
  · have hsame := w.continues_drain d
    rcases h.drain with ⟨d₁, w₁, hdrain, h₁⟩ | ⟨w₁, e, hrefuses, hdrain, h₁⟩ <;>
      rw [hdrain] at hsame ⊢
    · simp only
      split
      · exact ⟨d₁, _, _, content ++ waiting, data, rfl,
          ⟨h₁.place, h₁.open_, rfl, h₁.offset, h₁.node⟩, .inl ⟨rfl, rfl⟩⟩
      · rcases h₁.put data with ⟨d₂, w₂, hput, h₂⟩ | ⟨w₂, e, ⟨n, hmem⟩, hput, h₂⟩ <;> rw [hput]
        · exact ⟨d₂, w₂, _, content ++ waiting ++ data, [], rfl, h₂,
            .inl ⟨rfl, List.append_nil _⟩⟩
        · exact ⟨d₁, w₂, _, content ++ waiting, [], rfl, h₂,
            .inr ⟨⟨e, ⟨n, hsame.refusals ▸ hmem⟩, rfl⟩, List.append_nil _⟩⟩
    · exact ⟨d, w₁, _, content, waiting, rfl, h₁, .inr ⟨⟨e, hrefuses, rfl⟩, rfl⟩⟩

/-- After a flush nothing waits, unless it is refused. -/
theorem Fills.flush (h : w.Fills d names content waiting) :
    (∃ d' w', w.flush d = (d', w', .ok ()) ∧ w'.Fills d' names (content ++ waiting) []) ∨
      ∃ w' e, w.Refuses e ∧ w.flush d = (d, w', .error (.system e)) ∧
        w'.Fills d names content waiting := by
  rcases h.drain with ⟨d', w', hdrain, hfills⟩ | ⟨w', e, hrefuses, hdrain, hfills⟩
  · refine .inl ⟨d', w', ?_, hfills⟩
    rw [Writer.flush, h.open_, hdrain]
    rfl
  · refine .inr ⟨w', e, hrefuses, ?_, hfills⟩
    rw [Writer.flush, h.open_, hdrain]
    rfl

section Elsewhere

variable (hp : w.place ≠ .file names) (data : Bytes)
include hp

theorem node?_put_elsewhere : (w.put d data).1.node? names = d.node? names := by
  rcases w.put_cases d data with ⟨-, hput⟩ | ⟨d', -, -, hwrite, hput⟩ | ⟨e, -, -, hput⟩ <;>
    rw [hput]
  exact Disk.node?_write_of_ne hp hwrite

theorem node?_drain_elsewhere : (w.drain d).1.node? names = d.node? names := by
  have h := node?_put_elsewhere (d := d) hp w.waiting
  unfold Writer.drain
  split <;> rename_i heq <;> rw [heq] at h <;> exact h

/-- A writer leaves the files alone that it does not write to. -/
theorem node?_write_elsewhere : (w.write d data).1.node? names = d.node? names := by
  have hdrain := node?_drain_elsewhere (d := d) hp
  have hplace := (w.continues_drain d).place
  unfold Writer.write
  split
  · rfl
  · split
    · rfl
    · split <;> rename_i heq <;> rw [heq] at hdrain hplace
      · exact hdrain
      · rename_i d₁ w₁
        split
        · exact hdrain
        · have hput := node?_put_elsewhere (d := d₁) (w := w₁) (by rwa [hplace]) data
          split <;> rename_i heq <;> rw [heq] at hput <;> exact hput.trans hdrain

theorem node?_flush_elsewhere : (w.flush d).1.node? names = d.node? names := by
  unfold Writer.flush
  split
  · rfl
  · exact node?_drain_elsewhere hp

end Elsewhere

end Writer

/-! ## Sinks -/

namespace Sink

/-- Where a sink writes to on the disk, if it does. -/
def place? : Sink → Option Place
  | .file w => some w.place
  | .memory _ | .console _ | .fixed .. => none

variable (s : Sink) (d : Disk) (data : Bytes)

theorem place?_write : (s.write d data).2.1.place? = s.place? := by
  cases s with
  | file w => exact congrArg some (w.continues_write d data).place
  | memory | console | fixed => rfl

theorem place?_flush : (s.flush d).2.1.place? = s.place? := by
  cases s with
  | file w => exact congrArg some (w.continues_flush d).place
  | memory | console | fixed => rfl

variable {s d data} {names : List Text}

theorem node?_write_elsewhere (h : s.place? ≠ some (.file names)) :
    (s.write d data).1.node? names = d.node? names := by
  cases s with
  | file w => exact Writer.node?_write_elsewhere (fun hp => h (congrArg some hp)) data
  | memory | console | fixed => rfl

theorem node?_flush_elsewhere (h : s.place? ≠ some (.file names)) :
    (s.flush d).1.node? names = d.node? names := by
  cases s with
  | file w => exact Writer.node?_flush_elsewhere fun hp => h (congrArg some hp)
  | memory | console | fixed => rfl

end Sink

namespace Outlets

/-- The system is set up to refuse what a sink puts on the disk at some time. -/
def Plans (o : Outlets) (i : Nat) (e : SystemError) : Prop :=
  ∃ refusals n, o.planned[i]? = some refusals ∧ (n, e) ∈ refusals

theorem plans_of_refuses {o : Outlets} {i : Nat} {w : Writer} {e : SystemError}
    (hw : o.sinks[i]? = some (.file w)) (h : w.Refuses e) : o.Plans i e := by
  obtain ⟨n, hmem⟩ := h
  refine ⟨w.refusals, n, ?_, hmem⟩
  rw [planned, List.getElem?_map, hw]
  rfl

theorem plans_of_getElem?_eq {o o' : Outlets} {i : Nat} {e : SystemError} (h : o.Plans i e)
    (hs : o'.sinks[i]? = o.sinks[i]?) : o'.Plans i e := by
  obtain ⟨refusals, n, hplanned, hmem⟩ := h
  refine ⟨refusals, n, ?_, hmem⟩
  rwa [planned, List.getElem?_map, hs, ← List.getElem?_map]

/-- A sink that has filled a file to which no other sink writes. -/
structure Owns (o : Outlets) (i : Nat) (names : List Text) (content waiting : Bytes) : Prop where
  file : ∃ w, o.sinks[i]? = some (.file w) ∧ w.Fills o.disk names content waiting
  alone : ∀ j s, o.sinks[j]? = some s → s.place? = some (.file names) → j = i

variable {o o' : Outlets} {i j : Nat} {is : List Nat} {names : List Text}
  {content waiting data : Bytes}

/-- No other sink comes to write to the file if one is replaced by one that writes to the same
place. -/
theorem alone_of_set {s s' : Sink} (hs : o.sinks[j]? = some s)
    (ho : o'.sinks = o.sinks.set j s') (hp : s'.place? = s.place?)
    (h : ∀ k t, o.sinks[k]? = some t → t.place? = some (.file names) → k = i) :
    ∀ k t, o'.sinks[k]? = some t → t.place? = some (.file names) → k = i := by
  intro k t hk ht
  rw [ho] at hk
  by_cases hkj : k = j
  · subst hkj
    rw [List.getElem?_set_self (List.getElem?_eq_some_iff.mp hs).1] at hk
    obtain rfl := Option.some.inj hk
    exact h k s hs (hp.symm.trans ht)
  · rw [List.getElem?_set_ne (Ne.symm hkj)] at hk
    exact h k t hk ht

/-- A call to another sink. -/
theorem Owns.of_set_of_ne {s s' : Sink} (h : o.Owns i names content waiting) (hji : j ≠ i)
    (hs : o.sinks[j]? = some s) (ho : o'.sinks = o.sinks.set j s') (hp : s'.place? = s.place?)
    (hd : s.place? ≠ some (.file names) → o'.disk.node? names = o.disk.node? names) :
    o'.Owns i names content waiting := by
  obtain ⟨w, hw, hfills⟩ := h.file
  have hnode := hd fun hplace => hji (h.alone j s hs hplace)
  refine ⟨⟨w, ?_, hfills.of_node?_eq hnode⟩, alone_of_set hs ho hp h.alone⟩
  rw [ho, List.getElem?_set_ne hji, hw]

theorem Owns.write_of_ne (h : o.Owns i names content waiting) (hji : j ≠ i) :
    (o.write j data).1.Owns i names content waiting := by
  unfold write
  split
  · exact h
  · rename_i s hs
    exact h.of_set_of_ne hji hs rfl (s.place?_write o.disk data) Sink.node?_write_elsewhere

theorem Owns.flush_of_ne (h : o.Owns i names content waiting) (hji : j ≠ i) :
    (o.flush j).1.Owns i names content waiting := by
  unfold flush
  split
  · exact h
  · rename_i s hs
    exact h.of_set_of_ne hji hs rfl (s.place?_flush o.disk) Sink.node?_flush_elsewhere

/-- A call to the sink itself. -/
theorem Owns.of_set_self {w w' : Writer} {content' waiting' : Bytes}
    (h : o.Owns i names content waiting) (hw : o.sinks[i]? = some (.file w))
    (ho : o'.sinks = o.sinks.set i (.file w')) (hp : w'.place = w.place)
    (hfills : w'.Fills o'.disk names content' waiting') : o'.Owns i names content' waiting' := by
  refine ⟨⟨w', ?_, hfills⟩, alone_of_set hw ho (congrArg some hp) h.alone⟩
  rw [ho, List.getElem?_set_self (List.getElem?_eq_some_iff.mp hw).1]

theorem Owns.called_of_ne (h : o.Owns i names content waiting) (hji : j ≠ i)
    (call : Sink.Call) : (o.called j call).Owns i names content waiting := by
  cases call with
  | write data => exact h.write_of_ne hji
  | flush => exact h.flush_of_ne hji

/-- A file that is called has got what the call writes, or has refused it and got nothing more. -/
theorem Owns.called_self (h : o.Owns i names content waiting) (call : Sink.Call) :
    ∃ content' waiting', (o.called i call).Owns i names content' waiting' ∧
      (o.refusal? i call = none ∧ (call = .flush → waiting' = []) ∧
          content' ++ waiting' = content ++ waiting ++ call.data?.getD [] ∨
        (∃ e, o.refusal? i call = some (.system e) ∧ o.Plans i e) ∧
          content' ++ waiting' = content ++ waiting) := by
  obtain ⟨w, hw, hfills⟩ := h.file
  cases call with
  | write data =>
      obtain ⟨d', w', answer, content', waiting', hwrite, hfills', happ⟩ := hfills.write data
      refine ⟨content', waiting', ?_, ?_⟩
      · unfold called Outlets.write
        rw [hw]
        simp only [Sink.write, hwrite]
        exact h.of_set_self hw rfl (hfills'.place.trans hfills.place.symm) hfills'
      · rw [refusal?, Outlets.write, hw]
        simp only [Sink.write, hwrite]
        rcases happ with ⟨rfl, happ⟩ | ⟨⟨e, hrefuses, rfl⟩, happ⟩
        · exact .inl ⟨by simp [Except.map], by simp, happ⟩
        · exact .inr ⟨⟨e, rfl, plans_of_refuses hw hrefuses⟩, happ⟩
  | flush =>
      rcases hfills.flush with ⟨d', w', hflush, hfills'⟩ | ⟨w', e, hrefuses, hflush, hfills'⟩
      · refine ⟨content ++ waiting, [], ?_, .inl ⟨?_, fun _ => rfl, rfl⟩⟩
        · unfold called Outlets.flush
          rw [hw]
          simp only [Sink.flush, hflush]
          exact h.of_set_self hw rfl (hfills'.place.trans hfills.place.symm) hfills'
        · rw [refusal?, Outlets.flush, hw]
          simp only [Sink.flush, hflush]
      · refine ⟨content, waiting, ?_, .inr ⟨⟨e, ?_, plans_of_refuses hw hrefuses⟩, rfl⟩⟩
        · unfold called Outlets.flush
          rw [hw]
          simp only [Sink.flush, hflush]
          exact h.of_set_self hw rfl (hfills'.place.trans hfills.place.symm) hfills'
        · rw [refusal?, Outlets.flush, hw]
          simp only [Sink.flush, hflush]

/-! ## Composites -/

/-- To a file that is not called it is nothing how far a call comes. -/
theorem Owns.callAll_of_notMem (h : o.Owns i names content waiting) (hi : i ∉ is)
    (call : Sink.Call) :
    (SinkTree.callAll call (is.map .leaf) o).1.Owns i names content waiting := by
  induction is generalizing o with
  | nil =>
      rw [List.map_nil, SinkTree.callAll_nil]
      exact h
  | cons j rest ih =>
      obtain ⟨hij, hi⟩ := List.ne_and_not_mem_of_not_mem_cons hi
      have hother := h.called_of_ne (Ne.symm hij) call
      rw [SinkTree.callAll_leaf_cons]
      split
      · exact hother
      · exact ih hother hi

/-- A call to several sinks that is not refused comes to each of them once, whatever its place. -/
theorem Owns.callAll_of_mem {call : Sink.Call} (h : o.Owns i names content waiting)
    (hn : is.Nodup) (hi : i ∈ is) (hc : SinkTree.callAll call (is.map .leaf) o = (o', .ok ())) :
    ∃ content' waiting', o'.Owns i names content' waiting' ∧ (call = .flush → waiting' = []) ∧
      content' ++ waiting' = content ++ waiting ++ call.data?.getD [] := by
  induction is generalizing o with
  | nil => cases hi
  | cons j rest ih =>
      rw [SinkTree.callAll_leaf_cons] at hc
      obtain ⟨hnot, hn⟩ := List.nodup_cons.mp hn
      cases hr : o.refusal? j call with
      | some fault =>
          rw [hr] at hc
          cases (Prod.mk.inj hc).2
      | none =>
          rw [hr] at hc
          by_cases hij : i = j
          · subst hij
            obtain ⟨content', waiting', hself, ⟨-, happ⟩ | ⟨⟨e, he, -⟩, -⟩⟩ := h.called_self call
            · have hlast := hself.callAll_of_notMem hnot call
              simp only at hc
              rw [hc] at hlast
              exact ⟨content', waiting', hlast, happ⟩
            · cases hr.symm.trans he
          · exact ih (h.called_of_ne (Ne.symm hij) call) hn
              ((List.mem_cons.mp hi).resolve_left hij) hc

/-- An edit of something else on the disk does not touch the file. -/
theorem Owns.of_node?_eq (h : o.Owns i names content waiting) (hs : o'.sinks = o.sinks)
    (hd : o'.disk.node? names = o.disk.node? names) : o'.Owns i names content waiting := by
  obtain ⟨w, hw, hfills⟩ := h.file
  exact ⟨⟨w, by rw [hs, hw], hfills.of_node?_eq hd⟩, by rw [hs]; exact h.alone⟩

/-! ## Closing -/

/-- A sink that has put everything into its file, open or not, to which no other sink writes. -/
structure Keeps (o : Outlets) (i : Nat) (names : List Text) (content : Bytes) : Prop where
  file : ∃ w, o.sinks[i]? = some (.file w) ∧ w.place = .file names ∧ w.waiting = []
  alone : ∀ j s, o.sinks[j]? = some s → s.place? = some (.file names) → j = i
  content : o.disk.contentAt names = content

theorem Owns.keeps (h : o.Owns i names content []) : o.Keeps i names content := by
  obtain ⟨w, hw, hfills⟩ := h.file
  obtain ⟨executable, hnode⟩ := hfills.node
  exact ⟨⟨w, hw, hfills.place, hfills.waits⟩, h.alone, by rw [Disk.contentAt, hnode]⟩

/-- A writer for which nothing waits is closed without a change of the disk. -/
theorem close_of_waiting_eq_nil {w : Writer} (d : Disk) (hw : w.waiting = []) :
    (w.close d).1 = d ∧ (w.close d).2.1.place = w.place ∧ (w.close d).2.1.waiting = [] := by
  have hput : w.put d [] = (d, w, .ok ()) := by rw [Writer.put, if_pos rfl]
  unfold Writer.close Writer.drain
  rw [hw, hput]
  split
  · exact ⟨rfl, rfl, hw⟩
  · exact ⟨rfl, rfl, rfl⟩

theorem close_elsewhere {w : Writer} {d : Disk} (hp : w.place ≠ .file names) :
    (w.close d).1.node? names = d.node? names ∧ (w.close d).2.1.place = w.place := by
  unfold Writer.close
  split
  · exact ⟨rfl, rfl⟩
  · exact ⟨Writer.node?_drain_elsewhere hp, (w.continues_drain d).place⟩

theorem Keeps.close (h : o.Keeps i names content) (j : Nat) :
    (o.close j).1.Keeps i names content := by
  unfold Outlets.close
  split
  · rename_i v hv
    obtain ⟨w, hw, hp, hwait⟩ := h.file
    by_cases hji : j = i
    · subst hji
      obtain rfl := Sink.file.inj (Option.some.inj (hv.symm.trans hw))
      obtain ⟨hd, hplace, hnil⟩ := close_of_waiting_eq_nil o.disk hwait
      refine ⟨⟨(v.close o.disk).2.1, ?_, hplace.trans hp, hnil⟩,
        alone_of_set hv rfl (congrArg some hplace) h.alone, ?_⟩
      · exact List.getElem?_set_self (List.getElem?_eq_some_iff.mp hv).1
      · exact (congrArg (Disk.contentAt · names) hd).trans h.content
    · have helse : v.place ≠ .file names := fun hv' => hji (h.alone j _ hv (congrArg some hv'))
      obtain ⟨hnode, hplace⟩ := close_elsewhere (d := o.disk) helse
      refine ⟨⟨w, (List.getElem?_set_ne hji).trans hw, hp, hwait⟩,
        alone_of_set hv rfl (congrArg some hplace) h.alone, ?_⟩
      rw [← h.content]
      unfold Disk.contentAt
      simp only [hnode]
  · exact h

/-- To show a text on a console is nothing to a file. -/
theorem Keeps.display (h : o.Keeps i names content) (j : Nat) (text : Text) :
    (o.display j text).1.Keeps i names content := by
  unfold Outlets.display
  split
  · rename_i c hc
    obtain ⟨w, hw, hfile⟩ := h.file
    have hji : j ≠ i := by
      rintro rfl
      cases hc.symm.trans hw
    exact ⟨⟨w, (List.getElem?_set_ne hji).trans hw, hfile⟩, alone_of_set hc rfl rfl h.alone,
      h.content⟩
  · exact h

end Outlets

end CommandRelay
