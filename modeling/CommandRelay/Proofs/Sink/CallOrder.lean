import CommandRelay.Proofs.Sink.Handles

/-!
# The calls that a composite makes

A composite calls its members, and they theirs, until something is not taken in full. The walk
through the tree is the same for writes and for flushes and does not ask what a call to a sink does
(`SinkTree.visit`), so the same walk may keep a record of the calls it makes (`Caller.recorded`). It
makes them in the order of the sinks, whatever composites they stand in
(`SinkTree.visitAll_leavesAll`), and the first call that is not taken in full is its last one and
decides what is raised (`Caller.Settles`).
-/

namespace CommandRelay

/-- A way to call the sinks of a state: what a call to one of them does, what a sink answers that
has taken everything, and what a composite holds against another answer. -/
structure Caller (σ α : Type) where
  outlets : σ → Outlets
  call : Nat → σ → σ × Except AccessFault α
  whole : α
  objection? : String → α → Option AccessFault
  objection?_eq_none_iff (name : String) (a : α) : objection? name a = none ↔ a = whole

/-- The calls that have been made to sinks, in order, each with its answer. -/
abbrev CallRecord (α : Type) := List (Nat × Except AccessFault α)

namespace Caller

variable {σ α : Type}

/-- To write bytes. -/
def write (data : Bytes) : Caller Outlets Int where
  outlets := id
  call i o := o.write i data
  whole := data.length
  objection? name n :=
    if n = data.length then none else some (.system (.shortWrite name n data.length))
  objection?_eq_none_iff _ _ := by split <;> simp [*]

/-- To flush. -/
def flush : Caller Outlets Unit where
  outlets := id
  call i o := o.flush i
  whole := ()
  objection? _ _ := none
  objection?_eq_none_iff _ _ := ⟨fun _ => rfl, fun _ => rfl⟩

/-- To call sinks in the same way and to write down each call. -/
def recorded (k : Caller σ α) : Caller (σ × CallRecord α) α where
  outlets s := k.outlets s.1
  call i s :=
    let (s', a) := k.call i s.1
    ((s', s.2 ++ [(i, a)]), a)
  whole := k.whole
  objection? := k.objection?
  objection?_eq_none_iff := k.objection?_eq_none_iff

/-- Calls lead from one state to another. -/
inductive Makes (k : Caller σ α) : σ → CallRecord α → σ → Prop
  | nil {s} : k.Makes s [] s
  | cons {i a s s₁ calls s'} (h : k.call i s = (s₁, a)) (hrest : k.Makes s₁ calls s') :
      k.Makes s ((i, a) :: calls) s'

/-- The calls to some sinks and what comes of them: all sinks have taken theirs in full, or those in
front have, the next one has not, and no other has been called. -/
inductive Settles (k : Caller σ α) (s' : σ) :
    List Nat → CallRecord α → Except AccessFault Unit → Prop
  | whole (is : List Nat) : k.Settles s' is (is.map (·, .ok k.whole)) (.ok ())
  | raised (front : List Nat) (i : Nat) (rest : List Nat) (fault : AccessFault) :
      k.Settles s' (front ++ i :: rest) (front.map (·, .ok k.whole) ++ [(i, .error fault)])
        (.error fault)
  | objected (front : List Nat) (i : Nat) (rest : List Nat) {a : α} {fault : AccessFault}
      (h : k.objection? ((k.outlets s').label i) a = some fault) :
      k.Settles s' (front ++ i :: rest) (front.map (·, .ok k.whole) ++ [(i, .ok a)])
        (.error fault)

variable {k : Caller σ α} {s s₁ s' : σ} {i : Nat} {a : Except AccessFault α}
  {is : List Nat} {calls : CallRecord α} {answer : Except AccessFault Unit}

theorem objection?_whole (k : Caller σ α) (name : String) : k.objection? name k.whole = none :=
  (k.objection?_eq_none_iff name k.whole).mpr rfl

theorem recorded_call (h : k.call i s = (s₁, a)) (done : CallRecord α) :
    k.recorded.call i (s, done) = ((s₁, done ++ [(i, a)]), a) := by
  simp only [recorded, h]

theorem objection?_recorded (k : Caller σ α) : k.recorded.objection? = k.objection? :=
  rfl

theorem outlets_recorded (k : Caller σ α) (done : CallRecord α) :
    k.recorded.outlets (s, done) = k.outlets s :=
  rfl

theorem Settles.cons (h : k.Settles s' is calls answer) :
    k.Settles s' (i :: is) ((i, .ok k.whole) :: calls) answer := by
  cases h with
  | whole => exact .whole (i :: is)
  | raised front j rest fault => exact .raised (i :: front) j rest fault
  | objected front j rest hobj => exact .objected (i :: front) j rest hobj

/-- Nothing is raised if and only if every call has been taken in full. -/
theorem Settles.eq_ok_iff (h : k.Settles s' is calls answer) :
    answer = .ok () ↔ ∀ c ∈ calls, c.2 = .ok k.whole := by
  cases h with
  | whole => simp
  | raised front j rest fault =>
      refine ⟨nofun, fun hall => ?_⟩
      cases hall (j, .error fault) (List.mem_append_right _ List.mem_cons_self)
  | @objected front j rest a fault hobj =>
      refine ⟨nofun, fun hall => ?_⟩
      have ha := hall (j, .ok a) (List.mem_append_right _ List.mem_cons_self)
      rw [Except.ok.inj ha, objection?_whole] at hobj
      cases hobj

theorem Settles.calls_eq (h : k.Settles s' is calls (.ok ())) :
    calls = is.map (·, .ok k.whole) := by
  cases h
  rfl

end Caller

/-! ## The walk through a tree -/

namespace SinkTree

variable {σ α : Type}

mutual

/-- Calls every sink of a tree, from left to right. -/
def visit (k : Caller σ α) : SinkTree → σ → σ × Except AccessFault α
  | .leaf i, s => k.call i s
  | .group members, s =>
    match visitAll k members s with
    | (s, .ok ()) => (s, .ok k.whole)
    | (s, .error fault) => (s, .error fault)
  | .endless, s => (s, .error .endless)

/-- Calls several trees until something is not taken in full. -/
def visitAll (k : Caller σ α) : List SinkTree → σ → σ × Except AccessFault Unit
  | [], s => (s, .ok ())
  | t :: rest, s =>
    match t.visit k s with
    | (s, .error fault) => (s, .error fault)
    | (s, .ok a) =>
      match k.objection? (t.label (k.outlets s)) a with
      | some fault => (s, .error fault)
      | none => visitAll k rest s

end

mutual

theorem write_eq_visit (data : Bytes) (t : SinkTree) (o : Outlets) :
    t.write data o = t.visit (.write data) o := by
  cases t with
  | leaf i => rfl
  | group members =>
      rw [write, visit, writeAll_eq_visitAll data members o]
      rcases visitAll (.write data) members o with ⟨o₁, fault | ⟨⟩⟩ <;> rfl
  | endless => rfl

theorem writeAll_eq_visitAll (data : Bytes) (ts : List SinkTree) (o : Outlets) :
    writeAll data ts o = visitAll (.write data) ts o := by
  cases ts with
  | nil => rfl
  | cons t rest =>
      rw [writeAll, visitAll, write_eq_visit data t o]
      rcases t.visit (.write data) o with ⟨o₁, fault | n⟩
      · rfl
      · by_cases hn : n = data.length
        · simp only [Caller.write, if_pos hn]
          exact writeAll_eq_visitAll data rest o₁
        · simp only [Caller.write, if_neg hn, id_eq]

end

mutual

theorem flush_eq_visit (t : SinkTree) (o : Outlets) : t.flush o = t.visit .flush o := by
  cases t with
  | leaf i => rfl
  | group members =>
      rw [flush, visit, flushAll_eq_visitAll members o]
      rcases visitAll .flush members o with ⟨o₁, fault | ⟨⟩⟩ <;> rfl
  | endless => rfl

theorem flushAll_eq_visitAll (ts : List SinkTree) (o : Outlets) :
    flushAll ts o = visitAll .flush ts o := by
  cases ts with
  | nil => rfl
  | cons t rest =>
      rw [flushAll, visitAll, flush_eq_visit t o]
      rcases t.visit .flush o with ⟨o₁, fault | ⟨⟩⟩
      · rfl
      · exact flushAll_eq_visitAll rest o₁

end

/-! ### Composites of composites -/

mutual

/-- A composite that does not hold itself. -/
def IsBounded : SinkTree → Prop
  | .leaf _ => True
  | .group members => AreBounded members
  | .endless => False

/-- Composites that do not hold themselves. -/
def AreBounded : List SinkTree → Prop
  | [] => True
  | t :: rest => t.IsBounded ∧ AreBounded rest

end

theorem areBounded_row (is : List Nat) : AreBounded (is.map .leaf) := by
  induction is with
  | nil => trivial
  | cons i rest ih => exact ⟨trivial, ih⟩

variable (k : Caller σ α)

theorem visitAll_append (ts us : List SinkTree) (s : σ) :
    visitAll k (ts ++ us) s =
      match visitAll k ts s with
      | (s₁, .ok ()) => visitAll k us s₁
      | (s₁, .error fault) => (s₁, .error fault) := by
  induction ts generalizing s with
  | nil => rfl
  | cons t rest ih =>
      rw [List.cons_append, visitAll, visitAll]
      rcases t.visit k s with ⟨s₁, fault | a⟩
      · rfl
      · cases hobj : k.objection? (t.label (k.outlets s₁)) a with
        | none =>
            simp only [hobj]
            exact ih s₁
        | some fault => simp only [hobj]

/-- A composite inside others is called as its members are: nothing is held against what it takes in
full. -/
theorem visitAll_group (members : List SinkTree) (s : σ) :
    visitAll k [.group members] s = visitAll k members s := by
  rw [visitAll, visit]
  rcases visitAll k members s with ⟨s₁, fault | ⟨⟩⟩
  · rfl
  · simp only [k.objection?_whole, visitAll]

mutual

theorem visitAll_leaves (t : SinkTree) (ht : t.IsBounded) (s : σ) :
    visitAll k [t] s = visitAll k (t.leaves.map .leaf) s := by
  cases t with
  | leaf i => rw [leaves]; rfl
  | group members =>
      rw [IsBounded] at ht
      rw [visitAll_group, leaves, visitAll_leavesAll members ht s]
  | endless => exact ht.elim

/-- Composites of composites, however deep, are called as the row of their sinks is. -/
theorem visitAll_leavesAll (ts : List SinkTree) (ht : AreBounded ts) (s : σ) :
    visitAll k ts s = visitAll k ((leavesAll ts).map .leaf) s := by
  cases ts with
  | nil => rw [leavesAll]; rfl
  | cons t rest =>
      obtain ⟨hfirst, hrest⟩ := ht
      rw [leavesAll, List.map_append, visitAll_append, ← visitAll_leaves t hfirst s,
        ← List.singleton_append, visitAll_append]
      rcases visitAll k [t] s with ⟨s₁, fault | ⟨⟩⟩
      · rfl
      · exact visitAll_leavesAll rest hrest s₁

end

/-! ### What the record shows -/

theorem visitAll_leaf_cons (i : Nat) (is : List Nat) (s : σ) :
    visitAll k ((i :: is).map .leaf) s =
      match k.call i s with
      | (s₁, .error fault) => (s₁, .error fault)
      | (s₁, .ok a) =>
        match k.objection? ((k.outlets s₁).label i) a with
        | some fault => (s₁, .error fault)
        | none => visitAll k (is.map .leaf) s₁ := by
  rw [List.map_cons, visitAll, visit]
  rfl

/-- The sinks of a row are called in order, up to the first that does not take its call in full. -/
theorem exists_settles_row (is : List Nat) (s : σ) :
    ∃ calls s' answer, k.Makes s calls s' ∧ k.Settles s' is calls answer ∧
      visitAll k (is.map .leaf) s = (s', answer) ∧
      ∀ done, visitAll k.recorded (is.map .leaf) (s, done) = ((s', done ++ calls), answer) := by
  induction is generalizing s with
  | nil =>
      refine ⟨[], s, .ok (), .nil, .whole [], rfl, fun done => ?_⟩
      rw [List.append_nil]
      rfl
  | cons i rest ih =>
      rcases hcall : k.call i s with ⟨s₁, fault | a⟩
      · refine ⟨[(i, .error fault)], s₁, .error fault, .cons hcall .nil, .raised [] i rest fault,
          ?_, fun done => ?_⟩
        · rw [visitAll_leaf_cons, hcall]
        · rw [visitAll_leaf_cons, Caller.recorded_call hcall]
      · cases hobj : k.objection? ((k.outlets s₁).label i) a with
        | some fault =>
            refine ⟨[(i, .ok a)], s₁, .error fault, .cons hcall .nil, .objected [] i rest hobj,
              ?_, fun done => ?_⟩
            · simp only [visitAll_leaf_cons, hcall, hobj]
            · simp only [visitAll_leaf_cons, Caller.recorded_call hcall, Caller.objection?_recorded,
                Caller.outlets_recorded, hobj]
        | none =>
            obtain rfl := (k.objection?_eq_none_iff _ a).mp hobj
            obtain ⟨calls, s', answer, hmakes, hsettles, hvisit, hrecorded⟩ := ih s₁
            refine ⟨(i, .ok k.whole) :: calls, s', answer, .cons hcall hmakes, hsettles.cons, ?_,
              fun done => ?_⟩
            · simp only [visitAll_leaf_cons, hcall, hobj]
              exact hvisit
            · simp only [visitAll_leaf_cons, Caller.recorded_call hcall, Caller.objection?_recorded,
                Caller.outlets_recorded, hobj]
              rw [hrecorded, List.append_assoc, List.singleton_append]

theorem visit_group (members : List SinkTree) (s : σ) :
    (group members).visit k s =
      ((visitAll k members s).1, (visitAll k members s).2.map fun _ => k.whole) := by
  rw [visit]
  rcases visitAll k members s with ⟨s₁, fault | ⟨⟩⟩ <;> rfl

theorem exists_settles {members : List SinkTree} (h : AreBounded members) (s : σ) :
    ∃ calls s' answer, k.Makes s calls s' ∧
      k.Settles s' (group members).leaves calls answer ∧
      (group members).visit k s = (s', answer.map fun _ => k.whole) ∧
      (group members).visit k.recorded (s, []) = ((s', calls), answer.map fun _ => k.whole) := by
  obtain ⟨calls, s', answer, hmakes, hsettles, hvisit, hrecorded⟩ :=
    exists_settles_row k (leavesAll members) s
  refine ⟨calls, s', answer, hmakes, ?_, ?_, ?_⟩
  · rwa [leaves]
  · rw [visit_group, visitAll_leavesAll k members h, hvisit]
  · rw [visit_group, visitAll_leavesAll k.recorded members h, hrecorded]
    rfl

theorem map_eq_ok_iff {answer : Except AccessFault Unit} {a : α} :
    (answer.map fun _ => a) = .ok a ↔ answer = .ok () := by
  rcases answer with fault | ⟨⟩
  · exact ⟨nofun, nofun⟩
  · exact ⟨fun _ => rfl, fun _ => rfl⟩

end SinkTree

/-! ## Writes and flushes -/

theorem Sink.label_write (s : Sink) (d : Disk) (data : Bytes) :
    (s.write d data).2.1.label = s.label := by
  cases s <;> rfl

theorem Outlets.label_write (o : Outlets) (i : Nat) (data : Bytes) (j : Nat) :
    (o.write i data).1.label j = o.label j := by
  unfold write
  split
  · rfl
  · rename_i s hs
    unfold label
    rw [List.getElem?_set]
    by_cases hij : i = j
    · subst hij
      rw [if_pos rfl, if_pos (List.getElem?_eq_some_iff.mp hs).1, hs]
      exact s.label_write o.disk data
    · rw [if_neg hij]

theorem Caller.short_of_objection? {data : Bytes} {name : String} {n : Int} {fault : AccessFault}
    (h : (Caller.write data).objection? name n = some fault) :
    n ≠ data.length ∧ fault = .system (.shortWrite name n data.length) := by
  by_cases hn : n = data.length
  · rw [hn, show (data.length : Int) = (Caller.write data).whole from rfl,
      Caller.objection?_whole] at h
    cases h
  · simp only [Caller.write, if_neg hn, Option.some.injEq] at h
    exact ⟨hn, h.symm⟩

theorem Caller.Makes.label {data : Bytes} {o o' : Outlets} {calls : CallRecord Int}
    (h : (Caller.write data).Makes o calls o') (j : Nat) : o'.label j = o.label j := by
  induction h with
  | nil => rfl
  | @cons i a o o₁ calls o' h hrest ih =>
      rw [ih]
      have hlabel := o.label_write i data j
      rwa [show o.write i data = (o₁, a) from h] at hlabel

namespace SinkTree

/-- A composite of composites that do not hold themselves calls its sinks from left to right, and
the calls that it makes are all it does. It answers that a write has been taken in full if and only
if every sink it has called did; each sink has then been called, once for each time it occurs.
Otherwise the last call is the first that was not taken in full: the sinks in front of it have taken
the write, the ones behind it have not been called, and what is raised is what that sink raised or
says how much it took. A flush goes the same way and ends at the first sink that raises. -/
theorem group_calls_in_order (members : List SinkTree) (h : AreBounded members) (data : Bytes)
    (o : Outlets) :
    (∃ calls o' answer,
      (group members).write data o = (o', answer) ∧
      (group members).visit (Caller.write data).recorded (o, []) = ((o', calls), answer) ∧
      (Caller.write data).Makes o calls o' ∧
      (answer = .ok data.length ↔ ∀ c ∈ calls, c.2 = .ok data.length) ∧
      (answer = .ok data.length → calls = (group members).leaves.map (·, .ok data.length)) ∧
      (answer ≠ .ok data.length → ∃ front i rest a,
        (group members).leaves = front ++ i :: rest ∧
        calls = front.map (·, .ok data.length) ++ [(i, a)] ∧
        ((∃ fault, a = .error fault ∧ answer = .error fault) ∨
          ∃ n : Int, n ≠ data.length ∧ a = .ok n ∧
            answer = .error (.system (.shortWrite (o.label i) n data.length))))) ∧
    (∃ calls o' answer,
      (group members).flush o = (o', answer) ∧
      (group members).visit Caller.flush.recorded (o, []) = ((o', calls), answer) ∧
      Caller.flush.Makes o calls o' ∧
      (answer = .ok () ↔ ∀ c ∈ calls, c.2 = .ok ()) ∧
      (answer = .ok () → calls = (group members).leaves.map (·, .ok ())) ∧
      (∀ fault, answer = .error fault → ∃ front i rest,
        (group members).leaves = front ++ i :: rest ∧
        calls = front.map (·, .ok ()) ++ [(i, .error fault)])) := by
  constructor
  · obtain ⟨calls, o', answer, hmakes, hsettles, hvisit, hrecorded⟩ :=
      exists_settles (Caller.write data) h o
    refine ⟨calls, o', _, (write_eq_visit ..).trans hvisit, hrecorded, hmakes,
      map_eq_ok_iff.trans hsettles.eq_ok_iff, fun hok => ?_, fun hne => ?_⟩
    · obtain rfl := map_eq_ok_iff.mp hok
      exact hsettles.calls_eq
    · generalize (group members).leaves = is at hsettles
      cases hsettles with
      | whole => exact (hne rfl).elim
      | raised front i rest fault =>
          exact ⟨front, i, rest, .error fault, rfl, rfl, .inl ⟨fault, rfl, rfl⟩⟩
      | @objected front i rest n fault hobj =>
          obtain ⟨hn, rfl⟩ := Caller.short_of_objection? hobj
          refine ⟨front, i, rest, .ok n, rfl, rfl, .inr ⟨n, hn, rfl, ?_⟩⟩
          rw [← hmakes.label i]
          rfl
  · obtain ⟨calls, o', answer, hmakes, hsettles, hvisit, hrecorded⟩ :=
      exists_settles Caller.flush h o
    refine ⟨calls, o', _, (flush_eq_visit ..).trans hvisit, hrecorded, hmakes,
      map_eq_ok_iff.trans hsettles.eq_ok_iff, fun hok => ?_, fun fault hfault => ?_⟩
    · obtain rfl := map_eq_ok_iff.mp hok
      exact hsettles.calls_eq
    · generalize (group members).leaves = is at hsettles
      cases hsettles with
      | whole => cases hfault
      | raised front i rest fault' =>
          obtain rfl := Except.error.inj hfault
          exact ⟨front, i, rest, rfl, rfl⟩
      | objected front i rest hobj => cases hobj

/-- Two sinks in memory occur twice, and between them one takes three of five bytes. -/
theorem group_calls_in_order_shared :
    let o : Outlets := { sinks := [.memory {}, .memory {}, .fixed "PlannedSink" (.ok 3) none] }
    let t : SinkTree := .group [.leaf 0, .group [.leaf 1, .group [], .leaf 0], .leaf 2, .leaf 1]
    (t.write [1, 2, 3, 4, 5] o).2 = .error (.system (.shortWrite "PlannedSink" 3 5)) ∧
      ∃ front i rest a, t.leaves = front ++ i :: rest ∧
        (t.visit (Caller.write [1, 2, 3, 4, 5]).recorded (o, [])).1.2 =
          front.map (·, .ok 5) ++ [(i, a)] := by
  intro o t
  have hshort : (t.write [1, 2, 3, 4, 5] o).2 =
      .error (.system (.shortWrite "PlannedSink" 3 5)) := rfl
  obtain ⟨⟨calls, o', answer, hwrite, hrecorded, -, -, -, hfirst⟩, -⟩ :=
    group_calls_in_order [.leaf 0, .group [.leaf 1, .group [], .leaf 0], .leaf 2, .leaf 1]
      ⟨trivial, ⟨trivial, trivial, trivial, trivial⟩, trivial, trivial, trivial⟩ [1, 2, 3, 4, 5] o
  rw [hwrite] at hshort
  obtain ⟨front, i, rest, a, hleaves, hcalls, -⟩ :=
    hfirst fun hok => nomatch hok.symm.trans hshort
  exact ⟨(congrArg Prod.snd hwrite).trans hshort, front, i, rest, a, hleaves,
    (congrArg (·.1.2) hrecorded).trans hcalls⟩

end SinkTree

end CommandRelay
