import CommandRelay.Proofs.Relay.Tally
import CommandRelay.Proofs.Sink.Handles

/-!
# What a relay does to a disk

While a relay is at work, the child makes its edits, and bytes that are written go into files that
are open already. `Disk.Changes` says of two disks that nothing else lies between them, and
`Outlets.Confined` says so of the disk below the sinks, none of which comes to write elsewhere. It
holds of every schedule (`Relay.confined_follow`): a relay makes and empties no file.
-/

namespace CommandRelay

variable {edits : DiskEdit → Prop} {opened : Place → Prop}

/-! ## Disks -/

/-- Disks that come about from one by edits, and by bytes that are written to open places. -/
inductive Disk.Changes (edits : DiskEdit → Prop) (opened : Place → Prop) (d : Disk) : Disk → Prop
  | refl : Changes edits opened d d
  | edit {d' change} (h : Changes edits opened d d') (hedit : edits change) :
      Changes edits opened d (d'.apply change)
  | write {d' d'' place offset data} (h : Changes edits opened d d') (hplace : opened place)
      (hwrite : d'.write place offset data = .ok d'') : Changes edits opened d d''

theorem Disk.Changes.trans {d d' d'' : Disk} (h : d.Changes edits opened d')
    (h' : d'.Changes edits opened d'') : d.Changes edits opened d'' := by
  induction h' with
  | refl => exact h
  | edit _ hedit ih => exact .edit ih hedit
  | write _ hplace hwrite ih => exact .write ih hplace hwrite

/-- What is neither edited nor open stays what it is. -/
theorem Disk.Changes.node?_eq {d d' : Disk} {names : List Text} (h : d.Changes edits opened d')
    (hedits : ∀ change, edits change → names ≠ change.names) (hopened : ¬ opened (.file names)) :
    d'.node? names = d.node? names := by
  induction h with
  | refl => rfl
  | @edit _ change _ hedit ih => exact (node?_apply_of_ne (hedits change hedit)).trans ih
  | @write _ _ place _ _ _ hplace hwrite ih =>
      have helsewhere : place ≠ .file names := by
        rintro rfl
        exact hopened hplace
      exact (node?_write_of_ne helsewhere hwrite).trans ih

namespace Writer

variable (w : Writer) (d : Disk) (data : Bytes)

theorem changes_put (h : opened w.place) : d.Changes edits opened (w.put d data).1 := by
  rcases w.put_cases d data with ⟨-, hput⟩ | ⟨d', -, -, hwrite, hput⟩ | ⟨e, -, -, hput⟩ <;>
    rw [hput]
  · exact .refl
  · exact .write .refl h hwrite
  · exact .refl

theorem changes_drain (h : opened w.place) : d.Changes edits opened (w.drain d).1 := by
  have hput : d.Changes edits opened (w.put d w.waiting).1 := w.changes_put d w.waiting h
  unfold drain
  split <;> rename_i heq <;> rw [heq] at hput <;> exact hput

theorem changes_write (h : opened w.place) : d.Changes edits opened (w.write d data).1 := by
  have hdrain : d.Changes edits opened (w.drain d).1 := w.changes_drain d h
  have hplace := (w.continues_drain d).place
  unfold write
  split
  · exact .refl
  · split
    · exact .refl
    · split <;> rename_i heq <;> rw [heq] at hdrain hplace
      · exact hdrain
      · rename_i d₁ w₁
        split
        · exact hdrain
        · have hput : d₁.Changes edits opened (w₁.put d₁ data).1 :=
            w₁.changes_put d₁ data (hplace ▸ h)
          split <;> rename_i heq <;> rw [heq] at hput <;> exact hdrain.trans hput

theorem changes_flush (h : opened w.place) : d.Changes edits opened (w.flush d).1 := by
  unfold flush
  split
  · exact .refl
  · exact w.changes_drain d h

end Writer

/-! ## Sinks -/

namespace Sink

variable (s : Sink) (d : Disk)

theorem changes_write (data : Bytes) (h : ∀ place, s.place? = some place → opened place) :
    d.Changes edits opened (s.write d data).1 := by
  cases s with
  | file w => exact w.changes_write d data (h w.place rfl)
  | memory | console | fixed => exact .refl

theorem changes_flush (h : ∀ place, s.place? = some place → opened place) :
    d.Changes edits opened (s.flush d).1 := by
  cases s with
  | file w => exact w.changes_flush d (h w.place rfl)
  | memory | console | fixed => exact .refl

end Sink

/-! ## Outlets -/

namespace Outlets

/-- The places that the sinks write to, by their numbers. -/
def places (o : Outlets) : List (Option Place) :=
  o.sinks.map Sink.place?

/-- Outlets that write to the same places as before, with a disk that comes about by edits and by
what is written there. -/
structure Confined (edits : DiskEdit → Prop) (o o' : Outlets) : Prop where
  places : o'.places = o.places
  disk : o.disk.Changes edits (some · ∈ o.places) o'.disk

variable {o o' o'' : Outlets} {i : Nat} {s s' : Sink}

theorem Confined.refl (o : Outlets) : o.Confined edits o :=
  ⟨rfl, .refl⟩

theorem Confined.trans (h : o.Confined edits o') (h' : o'.Confined edits o'') :
    o.Confined edits o'' :=
  ⟨h'.places.trans h.places, h.disk.trans (h.places ▸ h'.disk)⟩

/-- A sink is replaced by one that writes to the same place. -/
theorem confined_set {disk : Disk} (hs : o.sinks[i]? = some s) (hplace : s'.place? = s.place?)
    (hdisk : o.disk.Changes edits (some · ∈ o.places) disk) (alarms : List Alarm) :
    o.Confined edits ⟨disk, o.sinks.set i s', alarms⟩ := by
  refine ⟨?_, hdisk⟩
  obtain ⟨hi, rfl⟩ := List.getElem?_eq_some_iff.mp hs
  have hmem : i < (o.sinks.map Sink.place?).length := by rwa [List.length_map]
  have hold : (o.sinks.map Sink.place?)[i] = o.sinks[i].place? := List.getElem_map _
  rw [places, List.map_set, hplace, ← hold, List.set_getElem_self, places]

theorem mem_places {place : Place} (hs : o.sinks[i]? = some s) (h : s.place? = some place) :
    some place ∈ o.places :=
  List.mem_map.mpr ⟨s, List.mem_of_getElem? hs, h⟩

theorem confined_write (o : Outlets) (i : Nat) (data : Bytes) :
    o.Confined edits (o.write i data).1 := by
  unfold write
  split
  · exact .refl o
  · rename_i s hs
    exact confined_set hs (s.place?_write o.disk data)
      (s.changes_write o.disk data fun _ => mem_places hs) _

theorem confined_flush (o : Outlets) (i : Nat) : o.Confined edits (o.flush i).1 := by
  unfold flush
  split
  · exact .refl o
  · rename_i s hs
    exact confined_set hs (s.place?_flush o.disk) (s.changes_flush o.disk fun _ => mem_places hs) _

theorem confined_display (o : Outlets) (i : Nat) (text : Text) :
    o.Confined edits (o.display i text).1 := by
  unfold display
  split
  · rename_i c hc
    have hplace : (Sink.console (c.display text).1).place? = (Sink.console c).place? := rfl
    exact confined_set hc hplace .refl _
  · exact .refl o

end Outlets

namespace SinkTree

theorem confined_write (data : Bytes) (t : SinkTree) (o : Outlets) :
    o.Confined edits (t.write data o).1 :=
  write_related .refl .trans (fun o i => o.confined_write i data) t o

theorem confined_flush (t : SinkTree) (o : Outlets) : o.Confined edits (t.flush o).1 :=
  flush_related .refl .trans (fun o i => o.confined_flush i) t o

end SinkTree

/-! ## Relays -/

namespace Relay

variable {r r₁ r' : Relay} {t : Turn} {ts : List Turn}

/-- A relay whose child has only such edits to make. -/
def Edits (edits : DiskEdit → Prop) (r : Relay) : Prop :=
  ∀ change, .edit change ∈ r.child.moves → edits change

/-- A relay that has gone on: its child has no other edits to make, and the disk has changed by
edits and by what was written to open files. -/
structure Confined (edits : DiskEdit → Prop) (r r' : Relay) : Prop where
  outlets : r.session.outlets.Confined edits r'.session.outlets
  edits : r'.Edits edits

theorem Confined.trans (h : r.Confined edits r₁) (h' : r₁.Confined edits r') :
    r.Confined edits r' :=
  ⟨h.outlets.trans h'.outlets, h'.edits⟩

theorem Spares.confined (h : r.Spares r₁) (hedits : r.Edits edits) : r.Confined edits r₁ where
  outlets := by
    refine ⟨by rw [Outlets.places, h.sinks, Outlets.places], ?_⟩
    rcases h.disk with hd | ⟨change, hmem, hd⟩
    · rw [hd]
      exact .refl
    · rw [hd]
      exact .edit .refl (hedits change hmem)
  edits := fun change hmem => hedits change (h.edits change hmem)

theorem Coordinates.confined (hc : r.Coordinates r₁) (hedits : r.Edits edits) :
    r.Confined edits r₁ := by
  have hspares := fun hcall => (hc.spares hcall).confined hedits
  have hwritten {ch : Channel} {data : Bytes} {o : Outlets} {answer : Except AccessFault Int}
      (hw : (r.trees.get ch).write data r.session.outlets = (o, answer)) :
      r.session.outlets.Confined edits { o with alarms := [] } := by
    have h : r.session.outlets.Confined edits _ :=
      (r.trees.get ch).confined_write data r.session.outlets
    rw [hw] at h
    exact ⟨h.places, h.disk⟩
  have hflushed {ch : Channel} {o : Outlets} {answer : Except AccessFault Unit}
      (hf : (r.trees.get ch).flush r.session.outlets = (o, answer)) :
      r.session.outlets.Confined edits { o with alarms := [] } := by
    have h : r.session.outlets.Confined edits _ :=
      (r.trees.get ch).confined_flush r.session.outlets
    rw [hf] at h
    exact ⟨h.places, h.disk⟩
  cases hc with
  | write _ hw => exact ⟨hwritten hw, hedits⟩
  | flush _ hf => exact ⟨hflushed hf, hedits⟩
  | @writeFault _ _ _ fault _ hw => cases fault <;> exact ⟨hwritten hw, hedits⟩
  | @flushFault _ _ fault _ hf => cases fault <;> exact ⟨hflushed hf, hedits⟩
  | reap hp =>
      refine hspares ?_
      rcases hp with hp | hp | ⟨left, hp⟩ <;> rw [hp] <;> rfl
  | wait hp | stop hp =>
      refine hspares ?_
      rcases hp with ⟨hp, -⟩ | ⟨hp, -⟩ <;> rw [hp] <;> rfl
  | look hp | lookAgain hp | takeCancelled hp | takeEnd hp | takeChunk hp | dropChunk hp
  | abandon hp | kill hp | discardEnd hp | discard hp | discarded hp | join hp =>
      exact hspares (by rw [hp]; rfl)

/-- Whoever moves. -/
theorem confined_turn (ht : r.turn t = some r') (hedits : r.Edits edits) : r.Confined edits r' := by
  rcases step_of_turn ht with ⟨-, r₁, hc, hs⟩ | ⟨r₁, ha, hs⟩
  · have h := hc.confined hedits
    exact h.trans (hs.spares.confined h.edits)
  · exact (ha.spares.stirs hs).confined hedits

/-- Whatever the schedule. -/
theorem confined_follow (h : r.follow ts = some r') (hedits : r.Edits edits) :
    r.Confined edits r' := by
  induction ts generalizing r with
  | nil =>
      obtain rfl := Option.some.inj h
      exact ⟨.refl _, hedits⟩
  | cons t rest ih =>
      obtain ⟨next, ht, hrest⟩ := Option.bind_eq_some_iff.mp h
      have hturn := confined_turn ht hedits
      exact hturn.trans (ih hrest hturn.edits)

end Relay

end CommandRelay
