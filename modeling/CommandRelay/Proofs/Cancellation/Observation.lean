import CommandRelay.Proofs.Cancellation.Record

/-!
# What is seen of a cancellation

Looks at a cancellation take no lock, so they may fall between the assignments of a request. Every
schedule of threads keeps the state in step with the record, and the record coherent
(`Watched.follow`). So the first request that takes the lock is the only one that counts, and
whoever has seen the cancellation sees its reason (`first_request_wins`). As long as the deadline is
not due and nobody else asks for the cancellation, no request takes the lock (`Peaceful.follow`).

A region has the effect of the operation that it stands for, although it takes several turns: what
the cancellation will be once the lock is free changes when a region begins, and at no other turn
(`Goes.settled`).
-/

namespace CommandRelay.Cancellation

/-! ## Accounts -/

variable {κ : Type}

/-- The state of a cancellation is what has been assigned. -/
structure Accounts (c : Cancellation κ) (record : List Event) : Prop where
  coherent : Coherent record
  fired : c.fired = true ↔ .marked ∈ record
  reason : c.reason = firstStored record

/-- The cancellation is marked if and only if it has a reason, and without one no request has taken
the lock. -/
structure Balanced (c : Cancellation κ) (record : List Event) : Prop where
  fired : c.fired = true ↔ c.reason ≠ none
  entered : c.reason = none → firstEntered record = none

/-- What is known at a place inside the lock. -/
def Place.Fits (c : Cancellation κ) (record : List Event) : Place κ → Prop
  | .testing reason =>
      (c.fired = true ↔ c.reason ≠ none) ∧
        (c.reason = none → firstEntered record = some reason)
  | .storing reason => c.fired = false ∧ c.reason = none ∧ firstEntered record = some reason
  | .marking => c.fired = false ∧ c.reason ≠ none
  | .copying | .probing _ | .appending _ | .erasing _ | .leaving _ => Balanced c record

variable {c : Cancellation κ}

theorem Accounts.store {reason : Text} (h : Accounts c record) (hnone : c.reason = none)
    (hentered : firstEntered record = some reason) :
    Accounts { c with reason := some reason } (record ++ [.stored reason]) where
  coherent := h.coherent.concat ⟨h.reason.symm.trans hnone, hentered⟩
  fired := by simp [← h.fired]
  reason := by
    have hstored : record.findSome? Event.stored? = none := h.reason.symm.trans hnone
    simp [firstStored, hstored, Event.stored?]

theorem Accounts.mark (h : Accounts c record) (hfired : c.fired = false)
    (hreason : c.reason ≠ none) :
    Accounts { c with fired := true } (record ++ [.marked]) where
  coherent := h.coherent.concat
    ⟨fun hmarked => by simp [h.fired.mpr hmarked] at hfired, h.reason ▸ hreason⟩
  fired := by simp
  reason := by
    have hstored := h.reason
    unfold firstStored at hstored ⊢
    simp [List.findSome?_append, ← hstored, Event.stored?]

/-- Events other than the two assignments leave the accounts in order. -/
theorem Accounts.note {e : Event} (h : Accounts c record) (he : e.Fits record)
    (hstored : e.stored? = none) (hmarked : e ≠ .marked) : Accounts c (record ++ [e]) where
  coherent := h.coherent.concat he
  fired := by simp [h.fired, hmarked.symm]
  reason := by
    have hreason := h.reason
    unfold firstStored at hreason ⊢
    simp [List.findSome?_append, ← hreason, hstored]

theorem Accounts.with_callbacks (h : Accounts c record) (callbacks : List κ) :
    Accounts { c with callbacks } record :=
  ⟨h.coherent, h.fired, h.reason⟩

theorem Balanced.with_callbacks (h : Balanced c record) (callbacks : List κ) :
    Balanced { c with callbacks } record :=
  ⟨h.fired, h.entered⟩

/-- A region begins where it may, given what is known while the lock is free. -/
theorem Accounts.enter (h : Accounts c record) (hfree : Balanced c record) (region : Region κ) :
    Accounts c (record ++ region.entry) ∧ region.enter.Fits c (record ++ region.entry) := by
  cases region with
  | cancel reason =>
      refine ⟨h.note trivial rfl nofun, hfree.fired, fun hnone => ?_⟩
      have hentered : record.findSome? Event.entered? = none := hfree.entered hnone
      simp [Region.entry, firstEntered, hentered, Event.entered?]
  | add k | remove k =>
      simp only [Region.entry, List.append_nil]
      exact ⟨h, hfree⟩

/-- What is known of the lock does not depend on events other than requests. -/
theorem Balanced.note {e : Event} (h : Balanced c record) (he : e.entered? = none) :
    Balanced c (record ++ [e]) := by
  refine ⟨h.fired, fun hnone => ?_⟩
  have hentered : record.findSome? Event.entered? = none := h.entered hnone
  simp [firstEntered, hentered, he]

theorem Place.Fits.note {place : Place κ} {e : Event} (h : place.Fits c record)
    (he : e.entered? = none) : place.Fits c (record ++ [e]) := by
  cases place with
  | testing reason => exact ⟨h.1, fun hnone => firstEntered_append (h.2 hnone) _⟩
  | storing reason => exact ⟨h.1, h.2.1, firstEntered_append h.2.2 _⟩
  | marking => exact h
  | _ => exact Balanced.note h he

variable {o o' : Observed κ}

/-- What holds of what the threads share, as turns are made. -/
structure Watched (o : Observed κ) : Prop where
  accounts : Accounts o.state o.record
  free : o.inside = none → Balanced o.state o.record
  inside : ∀ thread place, o.inside = some (thread, place) → place.Fits o.state o.record
  closed : .closed ∈ o.record → o.armed = false

theorem watched_ofRequests (threads : List (List (Request κ))) :
    Watched (Observed.ofRequests threads) where
  accounts := ⟨coherent_nil, by simp [Observed.ofRequests], rfl⟩
  free := fun _ => ⟨by simp [Observed.ofRequests], fun _ => rfl⟩
  inside := nofun
  closed := nofun

/-- Something is recorded, but neither an assignment nor a request that takes the lock. -/
theorem Watched.note {e : Event} {armed : Bool} {threads : List (List (Request κ))}
    (h : Watched o) (he : e.Fits o.record) (hentered : e.entered? = none)
    (hstored : e.stored? = none) (hmarked : e ≠ .marked)
    (hclosed : .closed ∈ o.record ++ [e] → armed = false) :
    Watched { o with record := o.record ++ [e], armed, threads } where
  accounts := h.accounts.note he hstored hmarked
  free := fun hinside => (h.free hinside).note hentered
  inside := fun thread place hinside => (h.inside thread place hinside).note hentered
  closed := hclosed

theorem Observed.inside_of_place? {thread : Nat} {place : Place κ}
    (h : o.place? thread = some place) : o.inside = some (thread, place) := by
  unfold place? at h
  split at h
  · rename_i hinside
    split at h
    · rename_i hthread
      rw [hinside, hthread, Option.some.inj h]
    · cases h
  · cases h

/-! ## The first request -/

/-- What looks at a cancellation show, and what they do not. -/
structure FirstWins (o : Observed κ) : Prop where
  /-- At most one request has stored its reason. -/
  unique : o.record.filterMap Event.stored? = o.state.reason.toList
  /-- It is the first one that took the lock. -/
  first : ∀ w, o.state.reason = some w → firstEntered o.record = some w
  /-- Whoever has seen the cancellation sees the reason of this request. -/
  shown : ∀ before sight between answer after,
    o.record = before ++ .saw sight :: (between ++ .saw (.reason answer) :: after) →
    sight.IsPositive → answer ≠ none ∧ answer = firstEntered o.record
  /-- The cancellation does not end. -/
  lasting : ∀ before sight between answer after,
    o.record = before ++ .saw sight :: (between ++ .saw (.fired answer) :: after) →
    sight.IsPositive → answer = true
  /-- The reason does not change. -/
  kept : ∀ before w between answer after,
    o.record = before ++ .saw (.reason (some w)) :: (between ++ .saw (.reason answer) :: after) →
    answer = some w
  /-- Nothing is seen before a request takes the lock. -/
  quiet : ∀ before sight after, o.record = before ++ .saw sight :: after →
    (∀ reason, .entered reason ∉ before) → sight.IsQuiet
  /-- Nothing is assigned either. -/
  untouched : (∀ reason, .entered reason ∉ o.record) →
    o.state.fired = false ∧ o.state.reason = none

theorem Watched.firstWins (h : Watched o) : FirstWins o where
  unique := by rw [h.accounts.coherent.filterMap_stored, h.accounts.reason]
  first := fun _ hw => h.accounts.coherent.firstEntered_eq (h.accounts.reason.symm.trans hw)
  shown := fun _ _ _ _ _ hrecord => h.accounts.coherent.shown hrecord
  lasting := fun _ _ _ _ _ hrecord => h.accounts.coherent.lasting hrecord
  kept := fun _ _ _ _ _ hrecord => h.accounts.coherent.kept hrecord
  quiet := fun _ _ _ hrecord => h.accounts.coherent.quiet hrecord
  untouched := fun hentered => by
    obtain ⟨hmarked, hstored⟩ := h.accounts.coherent.untouched hentered
    exact ⟨Bool.eq_false_iff.mpr fun hfired => hmarked (h.accounts.fired.mp hfired),
      h.accounts.reason.trans hstored⟩

/-! ## Peaceful threads -/

/-- A request to cancel, other than by the deadline. -/
def Request.IsCancel (request : Request κ) : Prop :=
  ∃ reason, request = .under (.cancel reason)

/-- Requests among which there is none to cancel. -/
def ArePeaceful (requests : List (Request κ)) : Prop :=
  ∀ request ∈ requests, ¬ request.IsCancel

/-- Nobody has asked for the cancellation or is about to. -/
structure Peaceful (o : Observed κ) : Prop where
  threads : ∀ requests ∈ o.threads, ArePeaceful requests
  entered : ∀ reason, .entered reason ∉ o.record

theorem Peaceful.next {thread : Nat} {requests : List (Request κ)} (h : Peaceful o)
    (hnext : o.threads[thread]? = some requests) : ArePeaceful requests :=
  h.threads requests (List.mem_of_getElem? hnext)

theorem ArePeaceful.of_cons {request : Request κ} {rest : List (Request κ)}
    (h : ArePeaceful (request :: rest)) : ArePeaceful rest :=
  fun r hr => h r (List.mem_cons_of_mem request hr)

theorem ArePeaceful.append {front rest : List (Request κ)} (hfront : ArePeaceful front)
    (hrest : ArePeaceful rest) : ArePeaceful (front ++ rest) :=
  fun r hr => (List.mem_append.mp hr).elim (hfront r) (hrest r)

/-- It stays so if one thread makes way for peaceful requests. -/
theorem Peaceful.note (thread : Nat) {requests : List (Request κ)} {events : List Event}
    (h : Peaceful o) (hrequests : ArePeaceful requests)
    (hevents : ∀ reason, .entered reason ∉ events) :
    Peaceful (o.note thread requests events) where
  threads := fun other hother => by
    rcases List.mem_or_eq_of_mem_set hother with hmem | rfl
    · exact h.threads other hmem
    · exact hrequests
  entered := fun reason hmem =>
    (List.mem_append.mp hmem).elim (h.entered reason) (hevents reason)

/-- Callbacks to call are no requests to cancel. -/
theorem Peaceful.leave {thread : Nat} (h : Peaceful o) (calls : List κ) :
    ∀ requests ∈ o.threads.modify thread (calls.map .call ++ ·), ArePeaceful requests := by
  intro requests hmem
  obtain ⟨i, hi⟩ := List.mem_iff_getElem?.mp hmem
  rw [List.getElem?_modify] at hi
  obtain ⟨before, hbefore, rfl⟩ := Option.map_eq_some_iff.mp hi
  have hpeaceful := h.next hbefore
  split
  · refine ArePeaceful.append ?_ hpeaceful
    rintro request hrequest ⟨reason, rfl⟩
    simp at hrequest
  · exact hpeaceful

variable [DecidableEq κ] {body : κ → List (Request κ)}

/-! ## Turns -/

/-- A turn inside the lock keeps the accounts in order. -/
theorem Accounts.advance {place : Place κ} (h : Accounts c record) (hplace : place.Fits c record) :
    Accounts (place.advance c).1 (record ++ (place.advance c).2.1) ∧
      (place.advance c).2.2.Fits (place.advance c).1 (record ++ (place.advance c).2.1) := by
  cases place with
  | testing reason =>
      obtain ⟨hfired, hentered⟩ := hplace
      simp only [Place.advance, List.append_nil]
      refine ⟨h, ?_⟩
      cases hc : c.fired with
      | true => exact ⟨hfired, fun hnone => absurd hnone (hfired.mp hc)⟩
      | false =>
          have hnone : c.reason = none := by simpa [hc] using hfired
          exact ⟨hc, hnone, hentered hnone⟩
  | storing reason =>
      obtain ⟨hfired, hnone, hentered⟩ := hplace
      exact ⟨h.store hnone hentered, hfired, nofun⟩
  | marking =>
      obtain ⟨hfired, hreason⟩ := hplace
      exact ⟨h.mark hfired hreason, iff_of_true rfl hreason, fun hnone => absurd hnone hreason⟩
  | probing k =>
      simp only [Place.advance, List.append_nil]
      refine ⟨h, ?_⟩
      cases c.fired <;> exact hplace
  | appending k | erasing k =>
      simp only [Place.advance, List.append_nil]
      exact ⟨h.with_callbacks _, hplace.with_callbacks _⟩
  | copying | leaving calls =>
      simp only [Place.advance, List.append_nil]
      exact ⟨h, hplace⟩

/-- What a turn can do: the thread inside the lock goes on there or leaves, a thread enters, the
deadline is due or closed, something is seen, or a thread has other requests to make. -/
inductive Goes (body : κ → List (Request κ)) (o : Observed κ) : Observed κ → Prop
  | advance {thread place} (hinside : o.inside = some (thread, place)) :
      Goes body o { o with
        state := (place.advance o.state).1
        inside := some (thread, (place.advance o.state).2.2)
        record := o.record ++ (place.advance o.state).2.1 }
  | leave {thread calls} (hinside : o.inside = some (thread, .leaving calls)) :
      Goes body o { o with
        inside := none
        threads := o.threads.modify thread (calls.map .call ++ ·) }
  | enter {thread region rest} (hinside : o.inside = none)
      (hnext : o.threads[thread]? = some (.under region :: rest)) :
      Goes body o { o.note thread rest region.entry with inside := some (thread, region.enter) }
  | due {thread rest} (harmed : o.armed = true)
      (hnext : o.threads[thread]? = some (.deadline :: rest)) :
      Goes body o (o.note thread (.under (.cancel deadlineReason) :: rest) [.due])
  | close {thread rest} (hnext : o.threads[thread]? = some (.close :: rest)) :
      Goes body o { o.note thread rest [.closed] with armed := false }
  | see {thread request rest sight} (hnext : o.threads[thread]? = some (request :: rest))
      (hfits : Accounts o.state o.record → sight.Fits o.record) :
      Goes body o (o.note thread rest [.saw sight])
  | call {thread k rest} (hnext : o.threads[thread]? = some (.call k :: rest)) :
      Goes body o (o.note thread (body k ++ rest) [])
  | skip {thread requests} (hnext : o.threads[thread]? = some requests) (skipped : Nat) :
      Goes body o (o.note thread (requests.drop skipped) [])

theorem goes_of_proceed {thread : Nat} {place : Place κ}
    (h : o.inside = some (thread, place)) : Goes body o (o.proceed thread place) := by
  cases place with
  | leaving calls => exact .leave h
  | _ => exact .advance h

theorem goes_of_take {thread : Nat} {request : Request κ} {rest : List (Request κ)}
    (hnext : o.threads[thread]? = some (request :: rest))
    (h : o.take body thread rest request = some o') : Goes body o o' := by
  cases request with
  | under region =>
      cases hinside : o.inside with
      | none =>
          obtain rfl : _ = o' := by simpa [Observed.take, hinside] using h
          exact .enter hinside hnext
      | some holder => simp [Observed.take, hinside] at h
  | call k =>
      obtain rfl := Option.some.inj h
      exact .call hnext
  | deadline =>
      cases harmed : o.armed with
      | true =>
          obtain rfl : _ = o' := by simpa [Observed.take, harmed] using h
          exact .due harmed hnext
      | false =>
          obtain rfl : _ = o' := by simpa [Observed.take, harmed] using h
          exact .skip hnext 1
  | close =>
      obtain rfl := Option.some.inj h
      exact .close hnext
  | lookFired =>
      obtain rfl := Option.some.inj h
      exact .see hnext fun haccounts => haccounts.fired
  | lookReason =>
      obtain rfl := Option.some.inj h
      exact .see hnext fun haccounts => haccounts.reason
  | wait =>
      cases hfired : o.state.fired with
      | true =>
          obtain rfl : _ = o' := by simpa [Observed.take, hfired] using h
          exact .see hnext fun haccounts _ => haccounts.fired.mp hfired
      | false => simp [Observed.take, hfired] at h

theorem goes_of_step {turn : Turn} (h : o.step body turn = some o') : Goes body o o' := by
  cases turn with
  | go thread =>
      simp only [Observed.step] at h
      split at h
      · rename_i hplace
        obtain rfl := Option.some.inj h
        exact goes_of_proceed (Observed.inside_of_place? hplace)
      · rename_i hnext
        exact goes_of_take hnext h
      · cases h
  | giveUp thread =>
      simp only [Observed.step] at h
      split at h
      · rename_i hnext
        obtain rfl := Option.some.inj h
        exact .see hnext fun _ => nofun
      · cases h
  | abandon thread skipped =>
      simp only [Observed.step] at h
      split at h
      · rename_i hnext
        obtain rfl := Option.some.inj h
        exact .skip hnext skipped
      · cases h

theorem advance_closed (place : Place κ) : .closed ∉ (place.advance c).2.1 := by
  cases place <;> simp [Place.advance]

/-- A turn keeps it. -/
theorem Watched.goes (h : Watched o) (hgoes : Goes body o o') : Watched o' := by
  cases hgoes with
  | @advance thread place hinside =>
      obtain ⟨haccounts, hplace⟩ := h.accounts.advance (h.inside thread place hinside)
      refine ⟨haccounts, nofun, ?_, fun hclosed => ?_⟩
      · rintro thread' place' heq
        obtain ⟨rfl, rfl⟩ := Prod.mk.inj (Option.some.inj heq)
        exact hplace
      · exact h.closed ((List.mem_append.mp hclosed).resolve_right (advance_closed place))
  | leave hinside =>
      have hbalanced : Balanced o.state o.record := h.inside _ _ hinside
      exact ⟨h.accounts, fun _ => hbalanced, nofun, h.closed⟩
  | @enter thread region rest hinside hnext =>
      obtain ⟨haccounts, hplace⟩ := h.accounts.enter (h.free hinside) region
      refine ⟨haccounts, nofun, ?_, fun hclosed => ?_⟩
      · rintro thread' place' heq
        obtain ⟨rfl, rfl⟩ := Prod.mk.inj (Option.some.inj heq)
        exact hplace
      · refine h.closed ((List.mem_append.mp hclosed).resolve_right ?_)
        cases region <;> simp [Region.entry]
  | due harmed hnext =>
      have hopen : .closed ∉ o.record := fun hclosed => by simp [h.closed hclosed] at harmed
      exact h.note hopen rfl rfl nofun fun hclosed => by simp [hopen] at hclosed
  | close hnext => exact h.note trivial rfl rfl nofun fun _ => rfl
  | see hnext hfits =>
      exact h.note (hfits h.accounts) rfl rfl nofun fun hclosed => h.closed (by simpa using hclosed)
  | call hnext | skip hnext skipped =>
      simp only [Observed.note, List.append_nil]
      exact ⟨h.accounts, h.free, h.inside, h.closed⟩

theorem Watched.follow (h : Watched o) {schedule : List Turn}
    (hfollow : o.follow body schedule = some o') : Watched o' := by
  induction schedule generalizing o with
  | nil =>
      obtain rfl := Option.some.inj hfollow
      exact h
  | cons turn schedule ih =>
      obtain ⟨next, hstep, hrest⟩ := Option.bind_eq_some_iff.mp hfollow
      exact ih (h.goes (goes_of_step hstep)) hrest

/-- Records only grow. -/
theorem Goes.exists_record (h : Goes body o o') : ∃ more, o'.record = o.record ++ more := by
  cases h with
  | leave => exact ⟨[], (List.append_nil _).symm⟩
  | _ => exact ⟨_, rfl⟩

theorem exists_record_of_follow {schedule : List Turn}
    (h : o.follow body schedule = some o') : ∃ more, o'.record = o.record ++ more := by
  induction schedule generalizing o with
  | nil =>
      obtain rfl := Option.some.inj h
      exact ⟨[], (List.append_nil _).symm⟩
  | cons turn schedule ih =>
      obtain ⟨next, hstep, hrest⟩ := Option.bind_eq_some_iff.mp h
      obtain ⟨first, hfirst⟩ := (goes_of_step hstep).exists_record
      obtain ⟨second, hsecond⟩ := ih hrest
      exact ⟨first ++ second, by rw [hsecond, hfirst, List.append_assoc]⟩

/-! ## Without requests -/

/-- As long as the deadline is not due, nobody asks for the cancellation. -/
theorem Peaceful.goes (h : Peaceful o) (hbody : ∀ k, ArePeaceful (body k))
    (hgoes : Goes body o o') (hdue : .due ∉ o'.record) : Peaceful o' := by
  cases hgoes with
  | @advance thread place hinside =>
      refine ⟨h.threads, fun reason hmem => (List.mem_append.mp hmem).elim (h.entered reason) ?_⟩
      cases place <;> simp [Place.advance]
  | leave hinside => exact ⟨h.leave _, h.entered⟩
  | @enter thread region rest hinside hnext =>
      have hrest := (h.next hnext).of_cons
      have hentry : ∀ reason, .entered reason ∉ region.entry := by
        cases region with
        | cancel reason => exact absurd ⟨reason, rfl⟩ (h.next hnext _ List.mem_cons_self)
        | add | remove => exact fun _ => nofun
      obtain ⟨hthreads, hentered⟩ := h.note thread hrest hentry
      exact ⟨hthreads, hentered⟩
  | due => simp [Observed.note] at hdue
  | close hnext =>
      have hclosed : ∀ reason, Event.entered reason ∉ [Event.closed] := fun _ => by simp
      obtain ⟨hthreads, hentered⟩ := h.note _ (h.next hnext).of_cons hclosed
      exact ⟨hthreads, hentered⟩
  | see hnext => exact h.note _ (h.next hnext).of_cons fun _ => by simp
  | call hnext => exact h.note _ ((hbody _).append (h.next hnext).of_cons) fun _ => nofun
  | skip hnext skipped =>
      exact h.note _ (fun r hr => h.next hnext r (List.mem_of_mem_drop hr)) fun _ => nofun

theorem Peaceful.follow (h : Peaceful o) (hbody : ∀ k, ArePeaceful (body k))
    {schedule : List Turn} (hfollow : o.follow body schedule = some o')
    (hdue : .due ∉ o'.record) : Peaceful o' := by
  induction schedule generalizing o with
  | nil =>
      obtain rfl := Option.some.inj hfollow
      exact h
  | cons turn schedule ih =>
      obtain ⟨next, hstep, hrest⟩ := Option.bind_eq_some_iff.mp hfollow
      obtain ⟨more, hmore⟩ := exists_record_of_follow hrest
      have hnext : .due ∉ next.record := fun hmem =>
        hdue (hmore ▸ List.mem_append_left more hmem)
      exact ih (h.goes hbody (goes_of_step hstep) hnext) hrest

/-! ## Regions as operations -/

/-- The operation that a region stands for. -/
def Region.apply (c : Cancellation κ) : Region κ → Cancellation κ × List κ
  | .cancel reason => c.cancel reason
  | .add k => c.add k
  | .remove k => (c.remove k, [])

/-- What is left of an operation at a place inside the lock. -/
def Place.finish (c : Cancellation κ) : Place κ → Cancellation κ × List κ
  | .testing reason => c.cancel reason
  | .storing reason => ({ c with reason := some reason, fired := true }, c.callbacks)
  | .marking => ({ c with fired := true }, c.callbacks)
  | .copying => (c, c.callbacks)
  | .probing k => c.add k
  | .appending k => ({ c with callbacks := c.callbacks ++ [k] }, [])
  | .erasing k => (c.remove k, [])
  | .leaving calls => (c, calls)

theorem finish_enter (region : Region κ) : region.enter.finish c = region.apply c := by
  cases region <;> rfl

/-- A turn inside the lock does a part of what is left. -/
theorem finish_advance (place : Place κ) :
    (place.advance c).2.2.finish (place.advance c).1 = place.finish c := by
  cases place with
  | testing reason =>
      cases hfired : c.fired <;>
        simp [Place.advance, Place.finish, cancel, hfired]
  | probing k =>
      cases hfired : c.fired <;> simp [Place.advance, Place.finish, add, hfired]
  | _ => rfl

/-- The cancellation as it will be once the lock is free, and the callbacks to call then. -/
def Observed.settled (o : Observed κ) : Cancellation κ × List κ :=
  match o.inside with
  | some (_, place) => place.finish o.state
  | none => (o.state, [])

/-- A region takes effect as a whole: when it begins, the cancellation will be what the operation
gives, and no other turn changes what it will be. -/
theorem Goes.settled (h : Goes body o o') :
    o'.settled.1 = o.settled.1 ∨
      ∃ (thread : Nat) (region : Region κ) (rest : List (Request κ)), o.inside = none ∧
        o.threads[thread]? = some (.under region :: rest) ∧ o'.settled = region.apply o.state := by
  cases h with
  | @advance thread place hinside =>
      refine .inl (congrArg Prod.fst ?_)
      simp only [Observed.settled, hinside]
      exact finish_advance place
  | leave hinside => exact .inl (by simp [Observed.settled, hinside, Place.finish])
  | @enter thread region rest hinside hnext =>
      exact .inr ⟨thread, region, rest, hinside, hnext, finish_enter region⟩
  | _ => exact .inl rfl

/-! ## Every schedule -/

/-- A deadline that is closed before it is due is never due. -/
theorem Coherent.due_notMem {before after : List Event} {record : List Event}
    (h : Coherent record) (hrecord : record = before ++ .closed :: after)
    (hdue : .due ∉ before) : .due ∉ record := by
  intro hmem
  rw [hrecord, List.mem_append, List.mem_cons] at hmem
  obtain ⟨between, rest, rfl⟩ :=
    List.append_of_mem ((hmem.resolve_left hdue).resolve_left nofun)
  exact (h.fits_later hrecord).2 (by simp)

/-- Threads ask for a cancellation, add and remove callbacks, and look at it, at every turn of a
schedule. The first request that takes the lock is the only one that counts; whoever sees the
cancellation sees its reason, then and later; and nothing is seen before it. If the deadline is
closed before it is due and nobody else asks for the cancellation, nothing is ever seen. -/
theorem first_request_wins {programs : List (List (Request κ))} {schedule : List Turn}
    (h : (Observed.ofRequests programs).follow body schedule = some o) :
    FirstWins o ∧
      (∀ more o', o.follow body more = some o' →
        (o.state.fired = true → o'.state.fired = true) ∧
          ∀ w, o.state.reason = some w → o'.state.reason = some w) ∧
      ((∀ k, ArePeaceful (body k)) → (∀ requests ∈ programs, ArePeaceful requests) →
        ∀ before after, o.record = before ++ .closed :: after → .due ∉ before →
          o.state.fired = false ∧ o.state.reason = none ∧
            ∀ sight, .saw sight ∈ o.record → sight.IsQuiet) := by
  have hwatched := (watched_ofRequests programs).follow h
  refine ⟨hwatched.firstWins, fun more o' hmore => ?_, fun hbody hprograms => ?_⟩
  · have hlater := hwatched.follow hmore
    obtain ⟨events, hrecord⟩ := exists_record_of_follow hmore
    refine ⟨fun hfired => ?_, fun w hw => ?_⟩
    · rw [hlater.accounts.fired, hrecord]
      exact List.mem_append_left events (hwatched.accounts.fired.mp hfired)
    · rw [hlater.accounts.reason, hrecord]
      exact firstStored_append (hwatched.accounts.reason.symm.trans hw) events
  · intro before after hrecord hdue
    have hpeaceful : Peaceful o := Peaceful.follow ⟨hprograms, fun _ => List.not_mem_nil⟩ hbody h
      (hwatched.accounts.coherent.due_notMem hrecord hdue)
    obtain ⟨hfired, hreason⟩ := hwatched.firstWins.untouched hpeaceful.entered
    refine ⟨hfired, hreason, fun sight hsight => ?_⟩
    obtain ⟨earlier, later, hsplit⟩ := List.append_of_mem hsight
    exact hwatched.firstWins.quiet earlier sight later hsplit fun reason hmem =>
      hpeaceful.entered reason (hsplit ▸ List.mem_append_left _ hmem)

/-- Two threads ask for the cancellation, and a third one looks at it. -/
def contest : List (List (Request Nat)) :=
  [[.under (.cancel "first")], [.under (.cancel "second")],
    [.lookFired, .lookReason, .lookFired, .lookReason]]

/-- The looks fall between the turns of the requests. -/
def contestTurns : List Turn :=
  [.go 0, .go 0, .go 0, .go 2, .go 2, .go 0, .go 2, .go 0, .go 0, .go 1, .go 1, .go 1, .go 2]

/-- One thread closes the deadline, and another one finds it closed, looks and waits in vain. -/
def disarmed : List (List (Request Nat)) :=
  [[.close], [.deadline, .lookFired, .wait]]

theorem first_request_wins_contest :
    (∃ o, (Observed.ofRequests contest).follow (fun _ => []) contestTurns = some o ∧
      o.record = [.entered "first", .stored "first", .saw (.fired false),
        .saw (.reason (some "first")), .marked, .saw (.fired true), .entered "second",
        .saw (.reason (some "first"))] ∧
      FirstWins o) ∧
    ∃ o, (Observed.ofRequests disarmed).follow (fun _ => [])
        [.go 0, .go 1, .go 1, .giveUp 1] = some o ∧
      o.record = [.closed, .saw (.fired false), .saw (.waited false)] ∧
      o.state.fired = false ∧ o.state.reason = none := by
  constructor
  · obtain ⟨o, ho, hrecord⟩ : ∃ o, (Observed.ofRequests contest).follow (fun _ => []) contestTurns =
        some o ∧ o.record = [.entered "first", .stored "first", .saw (.fired false),
          .saw (.reason (some "first")), .marked, .saw (.fired true), .entered "second",
          .saw (.reason (some "first"))] := ⟨_, rfl, rfl⟩
    exact ⟨o, ho, hrecord, (first_request_wins ho).1⟩
  · obtain ⟨o, ho, hrecord⟩ : ∃ o, (Observed.ofRequests disarmed).follow (fun _ => [])
        [.go 0, .go 1, .go 1, .giveUp 1] = some o ∧
          o.record = [.closed, .saw (.fired false), .saw (.waited false)] := ⟨_, rfl, rfl⟩
    have hprograms : ∀ requests ∈ disarmed, ArePeaceful requests := by
      simp [disarmed, ArePeaceful, Request.IsCancel]
    obtain ⟨hfired, hreason, -⟩ := (first_request_wins ho).2.2 (fun _ _ => nofun) hprograms
      [] _ hrecord List.not_mem_nil
    exact ⟨o, ho, hrecord, hfired, hreason⟩

end CommandRelay.Cancellation
