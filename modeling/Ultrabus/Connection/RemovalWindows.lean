import Ultrabus.Connection.Removal

/-! # When nothing removed is handled

The threads of a connection fetch a watch, a timeout or an entry of `opath_map` and use it when
they have unlocked the mutex.  What is removed in between is used all the same.  In the runs
without such a removal what is fetched stays in its container. -/

namespace Ultrabus.Removal

variable {ω η π : Type}

/-! ## The condition -/

/-- The iterators of the loop over the watches are at nodes that are still in the maps. -/
def IterValid (s : State ω η π) (fd : Int) (fdMapI : Nat) (wIter : Option Nat) : Prop :=
  ∃ row, s.fdMap fd = some row ∧ row.node = fdMapI ∧
    ∀ node, wIter = some node → ∃ watch, (watch, node) ∈ row.watches

/-- No remove function finishes between the moment at which a thread of the connection has taken
    the item out of its container and the call on the item or the last read of it.  When
    `dbus_watch_handle` has returned, either all watches of the descriptor are gone, which is
    what is checked, or the next watch is still there. -/
def OutsideWindows (s : State ω η π) : Label ω η π → Prop
  | .finish thread =>
    match s.calls thread with
    | some (.onRemoveWatch watch) => ∀ fd fdMapI wIter, s.io ≠ .atWatchHandle watch fd fdMapI wIter
    | some (.onRemoveTimeout timeout) =>
      s.io ≠ .atWatcherUnlock timeout ∧ s.io ≠ .atTimeoutHandle timeout
    | some (.unregisterObjectPath opath true) =>
      ∀ entry, s.dispatch ≠ .atFirst opath entry ∧ s.dispatch ≠ .atLock opath entry
    | _ => True
  | .relockAfterWatch => ∀ fd fdMapI wIter, s.io = .atWatchRelock fd fdMapI wIter →
    s.fdMap fd = none ∨ IterValid s fd fdMapI wIter
  | _ => True

/-! ## Nothing that is fetched is removed -/

/-- What the thread in `io_handler` has fetched is not removed. -/
def IoFresh (s : State ω η π) : IoPc ω η → Prop
  | .watchLoop fd fdMapI wIter => IterValid s fd fdMapI wIter
  | .atWatchHandle watch _ _ _ => s.removed (.watch watch) = false
  | .atWatcherUnlock timeout | .atTimeoutHandle timeout => s.removed (.timeout timeout) = false
  | _ => True

/-- The entry that the dispatch thread points to is in `opath_map`. -/
def DispatchFresh (s : State ω η π) : DispatchPc π → Prop
  | .atFirst opath entry | .atLock opath entry | .locked opath entry =>
    s.opathMap opath = some entry
  | _ => True

structure Fresh (unixFd : ω → Int) (s : State ω η π) : Prop where
  watches : ∀ fd row, s.fdMap fd = some row → ∀ entry ∈ row.watches,
    unixFd entry.1 = fd ∧ s.removed (.watch entry.1) = false
  nodup : s.timers.Nodup
  timers : ∀ timeout ∈ s.timers, s.removed (.timeout timeout) = false
  adding : ∀ thread timeout, s.calls thread = some (.onAddTimeout timeout true) →
    timeout ∉ s.timers
  io : IoFresh s s.io
  dispatch : DispatchFresh s s.dispatch
  none : NoneAfterRemoval s

/-- What only the functions that add and remove change. -/
structure SameItems (s s' : State ω η π) : Prop where
  fdMap : s'.fdMap = s.fdMap
  timers : s'.timers = s.timers
  opathMap : s'.opathMap = s.opathMap
  calls : s'.calls = s.calls
  removed : s'.removed = s.removed

section Fresh

variable {unixFd : ω → Int} {s s' : State ω η π}

theorem IoFresh.of_same {pc : IoPc ω η} (hsame : SameItems s s') (h : IoFresh s pc) :
    IoFresh s' pc := by
  unfold IoFresh IterValid at *
  simp only [hsame.fdMap, hsame.removed]
  exact h

theorem DispatchFresh.of_same {pc : DispatchPc π} (hsame : SameItems s s')
    (h : DispatchFresh s pc) : DispatchFresh s' pc := by
  unfold DispatchFresh at *
  simp only [hsame.opathMap]
  exact h

/-- The two threads go on, with what they have fetched in the containers. -/
theorem Fresh.move (h : Fresh unixFd s) (hsame : SameItems s s') (hio : IoFresh s s'.io)
    (hdispatch : DispatchFresh s s'.dispatch) (hnone : NoneAfterRemoval s') : Fresh unixFd s' where
  watches := by
    rw [hsame.fdMap, hsame.removed]
    exact h.watches
  nodup := by
    rw [hsame.timers]
    exact h.nodup
  timers := by
    rw [hsame.timers, hsame.removed]
    exact h.timers
  adding := by
    rw [hsame.timers, hsame.calls]
    exact h.adding
  io := hio.of_same hsame
  dispatch := hdispatch.of_same hsame
  none := hnone

theorem mem_of_nextNode {node node' : Nat} {watches : List (ω × Nat)}
    (h : nextNode node watches = some node') : ∃ watch, (watch, node') ∈ watches := by
  induction watches with
  | nil => cases h
  | cons entry rest ih =>
    simp only [nextNode] at h
    split at h
    · cases rest with
      | nil => cases h
      | cons second rest =>
        obtain rfl := Option.some.inj h
        exact ⟨second.1, by simp⟩
    · obtain ⟨watch, hmem⟩ := ih h
      exact ⟨watch, List.mem_cons_of_mem _ hmem⟩

theorem fresh_visitWatch (h : Fresh unixFd s) {fd : Int} {fdMapI : Nat} {wIter : Option Nat}
    (hio : s.io = .watchLoop fd fdMapI wIter) (handle : Bool) :
    Fresh unixFd (visitWatch s fd fdMapI wIter handle) := by
  have hvalid : IoFresh s (.watchLoop fd fdMapI wIter) := hio ▸ h.io
  obtain ⟨row, hrow, hnode, hiter⟩ := hvalid
  cases wIter with
  | none =>
    have hvisit : visitWatch s fd fdMapI none handle = { s with io := .handleEpollResult } := by
      simp [visitWatch, hrow, hnode]
    rw [hvisit]
    exact h.move ⟨rfl, rfl, rfl, rfl, rfl⟩ trivial h.dispatch h.none
  | some node =>
    -- the node that the iterator is at is found
    obtain ⟨watch, hmem⟩ := hiter node rfl
    have hfound : ∃ entry, row.watches.find? (fun entry => entry.2 = node) = some entry := by
      apply Option.isSome_iff_exists.mp
      simp only [List.find?_isSome, decide_eq_true_eq]
      exact ⟨_, hmem, rfl⟩
    obtain ⟨⟨found, node'⟩, hfound⟩ := hfound
    have hlisted := (h.watches fd row hrow _ (List.mem_of_find?_eq_some hfound)).2
    have hnext : IterValid s fd fdMapI (nextNode node row.watches) :=
      ⟨row, hrow, hnode, fun _ => mem_of_nextNode⟩
    cases handle with
    | true =>
      have hvisit : visitWatch s fd fdMapI (some node) true =
          { s.release .watcherMutex with
            io := .atWatchHandle found fd fdMapI (nextNode node row.watches) } := by
        simp [visitWatch, hrow, hnode, hfound]
      rw [hvisit]
      exact h.move ⟨rfl, rfl, rfl, rfl, rfl⟩ hlisted h.dispatch h.none
    | false =>
      have hvisit : visitWatch s fd fdMapI (some node) false =
          { s with io := .watchLoop fd fdMapI (nextNode node row.watches) } := by
        simp [visitWatch, hrow, hnode, hfound]
      rw [hvisit]
      exact h.move ⟨rfl, rfl, rfl, rfl, rfl⟩ hnext h.dispatch h.none

theorem Fresh.io_move (h : Fresh unixFd s) (hsame : SameItems s s')
    (hdispatch : s'.dispatch = s.dispatch) (hfaults : s'.faults = s.faults)
    (hio : IoFresh s s'.io) : Fresh unixFd s' :=
  h.move hsame hio (hdispatch ▸ h.dispatch) (hfaults.trans h.none)

theorem Fresh.dispatch_move (h : Fresh unixFd s) (hsame : SameItems s s')
    (hio : s'.io = s.io) (hfaults : s'.faults = s.faults)
    (hdispatch : DispatchFresh s s'.dispatch) : Fresh unixFd s' :=
  h.move hsame (hio ▸ h.io) hdispatch (hfaults.trans h.none)

theorem fresh_ioStep (h : Fresh unixFd s) {a : Label ω η π} (hallowed : OutsideWindows s a)
    (hstep : IoStep s a s') : Fresh unixFd s' := by
  have hfresh := h.io
  cases hstep with
  | unknownFd => exact h
  | findFd hio hrow =>
    refine h.io_move ⟨rfl, rfl, rfl, rfl, rfl⟩ rfl rfl ⟨_, hrow, rfl, fun node hnode => ?_⟩
    obtain ⟨entry, hhead, rfl⟩ := Option.map_eq_some_iff.mp hnode
    exact ⟨entry.1, List.mem_of_head? hhead⟩
  | visitWatch hio => exact fresh_visitWatch h hio _
  | @callWatchHandle watch fd fdMapI wIter hio =>
    rw [hio] at hfresh
    have hlisted : s.removed (.watch watch) = false := hfresh
    rw [State.touch, if_neg (by simp [hlisted])]
    exact h.io_move ⟨rfl, rfl, rfl, rfl, rfl⟩ rfl rfl trivial
  | relockAfterWatch hio hfree =>
    refine h.io_move ⟨rfl, rfl, rfl, rfl, rfl⟩ rfl rfl ?_
    obtain hgone | hvalid := hallowed _ _ _ hio
    · simp only [hgone]
      trivial
    · obtain ⟨row, hrow, hrest⟩ := hvalid
      simp only [hrow]
      exact ⟨row, hrow, hrest⟩
  | @fetchTimer handle hio hmem =>
    exact h.io_move ⟨rfl, rfl, rfl, rfl, rfl⟩ rfl rfl (h.timers handle hmem)
  | unlockForTimeout hio =>
    rw [hio] at hfresh
    exact h.io_move ⟨rfl, rfl, rfl, rfl, rfl⟩ rfl rfl hfresh
  | @callTimeoutHandle handle hio =>
    rw [hio] at hfresh
    have hlisted : s.removed (.timeout handle) = false := hfresh
    rw [State.touch, if_neg (by simp [hlisted])]
    exact h.io_move ⟨rfl, rfl, rfl, rfl, rfl⟩ rfl rfl trivial
  | _ =>
    -- Nothing is fetched.
    exact h.io_move ⟨rfl, rfl, rfl, rfl, rfl⟩ rfl rfl trivial

theorem fresh_dispatchStep (h : Fresh unixFd s) {a : Label ω η π} (hstep : DispatchStep s a s') :
    Fresh unixFd s' := by
  have hfresh := h.dispatch
  cases hstep with
  | lookUp hentry hidle =>
    exact h.dispatch_move ⟨rfl, rfl, rfl, rfl, rfl⟩ rfl rfl hentry
  | readFirst hpc hentry =>
    exact h.dispatch_move ⟨rfl, rfl, rfl, rfl, rfl⟩ rfl rfl hentry
  | readFirstErased hpc herased =>
    rw [hpc] at hfresh
    exact absurd hfresh herased
  | lockOpaths hpc hfree =>
    rw [hpc] at hfresh
    exact h.dispatch_move ⟨rfl, rfl, rfl, rfl, rfl⟩ rfl rfl hfresh
  | readSecond hpc hentry =>
    exact h.dispatch_move ⟨rfl, rfl, rfl, rfl, rfl⟩ rfl rfl trivial
  | readSecondErased hpc herased =>
    rw [hpc] at hfresh
    exact absurd hfresh herased
  | returnCallback hidle =>
    exact h.dispatch_move ⟨rfl, rfl, rfl, rfl, rfl⟩ rfl rfl trivial

theorem fresh_initial : Fresh unixFd (initial : State ω η π) where
  watches fd row hrow := by cases hrow
  nodup := List.nodup_nil
  timers timeout hmem := by cases hmem
  adding thread timeout hcall := by cases hcall
  io := trivial
  dispatch := trivial
  none := rfl

end Fresh

/-- The item that a call removes. -/
def Call.removes : Call ω η π → Option (Item ω η)
  | .onRemoveWatch watch => some (.watch watch)
  | .onRemoveTimeout timeout => some (.timeout timeout)
  | _ => none

section Calls

variable [LinearOrder ω] [DecidableEq η] [DecidableEq π] {unixFd : ω → Int} {s s' : State ω η π}

omit [DecidableEq π] in
theorem removedBy_eq_false {removed : Item ω η → Bool} {call : Call ω η π} {item : Item ω η}
    (h : removed item = false) (hne : call.removes ≠ some item) :
    removedBy removed call item = false := by
  cases call with
  | onAddWatch watch accepted =>
    cases accepted with
    | true =>
      simp only [removedBy, Function.update_apply]
      split
      · rfl
      · exact h
    | false => exact h
  | onAddTimeout timeout enabled =>
    cases enabled with
    | true =>
      simp only [removedBy, Function.update_apply]
      split
      · rfl
      · exact h
    | false => exact h
  | onRemoveWatch watch =>
    have hitem : item ≠ .watch watch := fun heq => hne (congrArg some heq.symm)
    simpa [removedBy, Function.update_of_ne hitem] using h
  | onRemoveTimeout timeout =>
    have hitem : item ≠ .timeout timeout := fun heq => hne (congrArg some heq.symm)
    simpa [removedBy, Function.update_of_ne hitem] using h
  | registerObjectPath opath accepted => exact h
  | unregisterObjectPath opath accepted => exact h

theorem body_fdMap {call : Call ω η π} (h : call.mutex ≠ .watcherMutex) :
    (body unixFd s call).fdMap = s.fdMap := by
  cases call with
  | onAddWatch watch accepted => exact absurd rfl h
  | onRemoveWatch watch => exact absurd rfl h
  | onAddTimeout timeout enabled => cases enabled <;> rfl
  | onRemoveTimeout timeout => rfl
  | registerObjectPath opath accepted =>
    simp only [body, registerObjectPath]
    split <;> rfl
  | unregisterObjectPath opath accepted => cases accepted <;> rfl

theorem body_timers {call : Call ω η π} (h : call.mutex ≠ .timerMutex) :
    (body unixFd s call).timers = s.timers := by
  cases call with
  | onAddWatch watch accepted => rfl
  | onRemoveWatch watch =>
    simp only [body, onRemoveWatch]
    split <;> rfl
  | onAddTimeout timeout enabled => exact absurd rfl h
  | onRemoveTimeout timeout => exact absurd rfl h
  | registerObjectPath opath accepted =>
    simp only [body, registerObjectPath]
    split <;> rfl
  | unregisterObjectPath opath accepted => cases accepted <;> rfl

/-- An entry of `opath_map` stays until its path is unregistered. -/
theorem body_opathMap {call : Call ω η π} {opath : π} {entry : Nat}
    (h : s.opathMap opath = some entry) (hne : call ≠ .unregisterObjectPath opath true) :
    (body unixFd s call).opathMap opath = some entry := by
  cases call with
  | onAddWatch watch accepted => exact h
  | onRemoveWatch watch =>
    simp only [body, onRemoveWatch]
    split <;> exact h
  | onAddTimeout timeout enabled => cases enabled <;> exact h
  | onRemoveTimeout timeout => exact h
  | registerObjectPath opath' accepted =>
    simp only [body, registerObjectPath]
    split
    · exact h
    · rename_i hnew
      have hother : opath ≠ opath' := by
        intro heq
        subst heq
        simp [h] at hnew
      simpa [Function.update_of_ne hother] using h
  | unregisterObjectPath opath' accepted =>
    cases accepted with
    | true =>
      have hother : opath ≠ opath' := by
        intro heq
        subst heq
        exact hne rfl
      simpa [body, Function.update_of_ne hother] using h
    | false => exact h

omit [DecidableEq η] [DecidableEq π] in
theorem mem_addedRow {next : Nat} {watch : ω} {accepted : Bool} {old : Option (FdNode ω)}
    {row : FdNode ω} (h : addedRow next watch accepted old = some row) {entry : ω × Nat}
    (hmem : entry ∈ row.watches) :
    accepted = true ∧ entry.1 = watch ∨ ∃ before, old = some before ∧ entry ∈ before.watches := by
  cases old with
  | none =>
    cases accepted with
    | true =>
      obtain rfl := Option.some.inj h
      obtain rfl := List.mem_singleton.mp hmem
      exact .inl ⟨rfl, rfl⟩
    | false => cases h
  | some before =>
    obtain rfl := Option.some.inj h
    cases accepted with
    | true =>
      obtain rfl | hbefore := OrderedMap.mem_emplace hmem
      · exact .inl ⟨rfl, rfl⟩
      · exact .inr ⟨before, rfl, hbefore⟩
    | false =>
      obtain ⟨hadded, hne⟩ := List.mem_filter.mp hmem
      obtain rfl | hbefore := OrderedMap.mem_emplace hadded
      · simp at hne
      · exact .inr ⟨before, rfl, hbefore⟩

omit [DecidableEq η] [DecidableEq π] in
theorem mem_onRemoveWatch (h : Fresh unixFd s) {watch : ω} {fd : Int} {row : FdNode ω}
    (hrow : (onRemoveWatch unixFd s watch).fdMap fd = some row) {entry : ω × Nat}
    (hmem : entry ∈ row.watches) :
    ∃ before, s.fdMap fd = some before ∧ entry ∈ before.watches ∧ entry.1 ≠ watch := by
  unfold onRemoveWatch at hrow
  split at hrow
  · rename_i hgone
    refine ⟨row, hrow, hmem, fun heq => ?_⟩
    have hunix := (h.watches fd row hrow entry hmem).1
    rw [heq] at hunix
    rw [← hunix, hgone] at hrow
    cases hrow
  · rename_i before hbefore
    simp only [Function.update_apply] at hrow
    split at hrow
    · rename_i hfd
      simp only [Option.ite_none_left_eq_some, Option.some.injEq] at hrow
      obtain ⟨-, rfl⟩ := hrow
      obtain ⟨hmem, hne⟩ := List.mem_filter.mp hmem
      exact ⟨before, by rw [hfd, hbefore], hmem, by simpa using hne⟩
    · rename_i hfd
      refine ⟨row, hrow, hmem, fun heq => hfd ?_⟩
      rw [← heq, (h.watches fd row hrow entry hmem).1]

theorem watches_body (h : Fresh unixFd s) (call : Call ω η π) (fd : Int) (row : FdNode ω)
    (hrow : (body unixFd s call).fdMap fd = some row) (entry : ω × Nat)
    (hmem : entry ∈ row.watches) :
    unixFd entry.1 = fd ∧ removedBy s.removed call (.watch entry.1) = false := by
  cases call with
  | onAddWatch watch accepted =>
    simp only [body, onAddWatch, Function.update_apply] at hrow
    split at hrow
    · rename_i hfd
      obtain ⟨rfl, hentry⟩ | ⟨before, hbefore, hmem⟩ := mem_addedRow hrow hmem
      · exact ⟨by rw [hentry, hfd], by simp [removedBy, hentry]⟩
      · obtain ⟨hunix, hlisted⟩ := h.watches _ _ hbefore entry hmem
        exact ⟨by rw [hunix, hfd], removedBy_eq_false hlisted (by simp [Call.removes])⟩
    · obtain ⟨hunix, hlisted⟩ := h.watches _ _ hrow entry hmem
      exact ⟨hunix, removedBy_eq_false hlisted (by simp [Call.removes])⟩
  | onRemoveWatch watch =>
    obtain ⟨before, hbefore, hmem, hne⟩ := mem_onRemoveWatch h hrow hmem
    obtain ⟨hunix, hlisted⟩ := h.watches _ _ hbefore entry hmem
    exact ⟨hunix, removedBy_eq_false hlisted (by simpa [Call.removes] using hne.symm)⟩
  | _ =>
    rw [body_fdMap (by simp [Call.mutex])] at hrow
    obtain ⟨hunix, hlisted⟩ := h.watches _ _ hrow entry hmem
    exact ⟨hunix, removedBy_eq_false hlisted (by simp [Call.removes])⟩

theorem nodup_body (h : Fresh unixFd s) {thread : Thread} {call : Call ω η π}
    (hcall : s.calls thread = some call) : (body unixFd s call).timers.Nodup := by
  cases call with
  | onAddTimeout timeout enabled =>
    cases enabled with
    | true => exact List.nodup_cons.mpr ⟨h.adding thread timeout hcall, h.nodup⟩
    | false => exact h.nodup
  | onRemoveTimeout timeout => exact h.nodup.erase timeout
  | _ =>
    rw [body_timers (by simp [Call.mutex])]
    exact h.nodup

theorem timers_body (h : Fresh unixFd s) (call : Call ω η π) (timeout : η)
    (hmem : timeout ∈ (body unixFd s call).timers) :
    removedBy s.removed call (.timeout timeout) = false := by
  cases call with
  | onAddTimeout added enabled =>
    cases enabled with
    | true =>
      obtain rfl | hmem := List.mem_cons.mp hmem
      · simp [removedBy]
      · exact removedBy_eq_false (h.timers timeout hmem) (by simp [Call.removes])
    | false => exact h.timers timeout hmem
  | onRemoveTimeout erased =>
    obtain ⟨hne, hmem⟩ := h.nodup.mem_erase_iff.mp hmem
    exact removedBy_eq_false (h.timers timeout hmem) (by simpa [Call.removes] using hne.symm)
  | _ =>
    rw [body_timers (by simp [Call.mutex])] at hmem
    exact removedBy_eq_false (h.timers timeout hmem) (by simp [Call.removes])

theorem adding_body (hlocks : Locks s) (h : Fresh unixFd s) {thread other : Thread}
    {call : Call ω η π} (hcall : s.calls thread = some call) (hother : other ≠ thread)
    {timeout : η} (hadding : s.calls other = some (.onAddTimeout timeout true)) :
    timeout ∉ (body unixFd s call).timers := by
  have hmutex : call.mutex ≠ .timerMutex := fun hmutex =>
    hother (hlocks.same_thread hadding hcall hmutex.symm)
  rw [body_timers hmutex]
  exact h.adding other timeout hadding

theorem ioFresh_body (hlocks : Locks s) (h : Fresh unixFd s) {thread : Thread}
    {call : Call ω η π} (hcall : s.calls thread = some call)
    (hallowed : OutsideWindows s (.finish thread)) (hs' : s'.fdMap = (body unixFd s call).fdMap)
    (hremoved : s'.removed = removedBy s.removed call) : IoFresh s' s.io := by
  have hfresh := h.io
  simp only [OutsideWindows, hcall] at hallowed
  cases hio : s.io with
  | watchLoop fd fdMapI wIter =>
    rw [hio] at hfresh
    have hmutex : call.mutex ≠ .watcherMutex :=
      hlocks.mutex_ne hcall (hlocks.watcher (by rw [hio]; rfl)) (by simp [State.mayCall, hio])
    rw [body_fdMap hmutex] at hs'
    simp only [IoFresh, IterValid, hs']
    exact hfresh
  | atWatchHandle watch fd fdMapI wIter =>
    rw [hio] at hfresh
    simp only [IoFresh, hremoved]
    apply removedBy_eq_false hfresh
    intro heq
    cases call with
    | onRemoveWatch erased =>
      obtain rfl : erased = watch := by simpa [Call.removes] using heq
      exact hallowed _ _ _ hio
    | _ => simp [Call.removes] at heq
  | atWatcherUnlock timeout =>
    rw [hio] at hfresh
    simp only [IoFresh, hremoved]
    apply removedBy_eq_false hfresh
    intro heq
    cases call with
    | onRemoveTimeout erased =>
      obtain rfl : erased = timeout := by simpa [Call.removes] using heq
      exact hallowed.1 hio
    | _ => simp [Call.removes] at heq
  | atTimeoutHandle timeout =>
    rw [hio] at hfresh
    simp only [IoFresh, hremoved]
    apply removedBy_eq_false hfresh
    intro heq
    cases call with
    | onRemoveTimeout erased =>
      obtain rfl : erased = timeout := by simpa [Call.removes] using heq
      exact hallowed.2 hio
    | _ => simp [Call.removes] at heq
  | _ => trivial

theorem dispatchFresh_body (hlocks : Locks s) (h : Fresh unixFd s) {thread : Thread}
    {call : Call ω η π} (hcall : s.calls thread = some call)
    (hallowed : OutsideWindows s (.finish thread))
    (hs' : s'.opathMap = (body unixFd s call).opathMap) : DispatchFresh s' s.dispatch := by
  have hfresh := h.dispatch
  simp only [OutsideWindows, hcall] at hallowed
  cases hdispatch : s.dispatch with
  | atFirst opath entry =>
    rw [hdispatch] at hfresh
    simp only [DispatchFresh, hs']
    apply body_opathMap hfresh
    intro heq
    subst heq
    exact (hallowed entry).1 hdispatch
  | atLock opath entry =>
    rw [hdispatch] at hfresh
    simp only [DispatchFresh, hs']
    apply body_opathMap hfresh
    intro heq
    subst heq
    exact (hallowed entry).2 hdispatch
  | locked opath entry =>
    rw [hdispatch] at hfresh
    simp only [DispatchFresh, hs']
    apply body_opathMap hfresh
    intro heq
    have hmutex : call.mutex ≠ .opathsLock :=
      hlocks.mutex_ne hcall (hlocks.opaths opath entry hdispatch)
        (by simp [State.mayCall, hdispatch])
    exact hmutex (by rw [heq]; rfl)
  | _ => trivial

theorem fresh_finish (hlocks : Locks s) (h : Fresh unixFd s) {thread : Thread}
    (hallowed : OutsideWindows s (.finish thread))
    (hstep : step unixFd s (.finish thread) = some s') : Fresh unixFd s' := by
  simp only [step] at hstep
  cases hcall : s.calls thread with
  | none => simp [hcall] at hstep
  | some call =>
    simp only [hcall, Option.some.injEq] at hstep
    obtain ⟨-, hio, hdispatch, hfaults⟩ := body_rest unixFd s call
    subst hstep
    exact
      { watches := watches_body h call
        nodup := nodup_body h hcall
        timers := timers_body h call
        adding := by
          intro other timeout hadding
          have hadding : Function.update s.calls thread none other = some _ := hadding
          have hother : other ≠ thread := by
            rintro rfl
            rw [Function.update_self] at hadding
            cases hadding
          rw [Function.update_of_ne hother] at hadding
          exact adding_body hlocks h hcall hother hadding
        io := by
          show IoFresh _ (body unixFd s call).io
          rw [hio]
          exact ioFresh_body hlocks h hcall hallowed rfl rfl
        dispatch := by
          show DispatchFresh _ (body unixFd s call).dispatch
          rw [hdispatch]
          exact dispatchFresh_body hlocks h hcall hallowed rfl
        none := hfaults.trans h.none }

theorem fresh_lock (h : Fresh unixFd s) {thread : Thread} {call : Call ω η π}
    (hstep : step unixFd s (.lock thread call) = some s') : Fresh unixFd s' := by
  simp only [step, Option.ite_none_right_eq_some, Option.some.injEq] at hstep
  obtain ⟨⟨-, -, -, hadd⟩, rfl⟩ := hstep
  refine { h with adding := fun other timeout hadding => ?_ }
  have hadding : Function.update s.calls thread (some call) other = some _ := hadding
  by_cases hother : other = thread
  · rw [hother, Function.update_self] at hadding
    obtain rfl := Option.some.inj hadding
    have hnew : timeout ∉ s.timers := by simpa [mayAdd] using hadd
    exact hnew
  · rw [Function.update_of_ne hother] at hadding
    exact h.adding other timeout hadding

theorem fresh_step (hlocks : Locks s) (h : Fresh unixFd s) {a : Label ω η π}
    (hallowed : OutsideWindows s a) (hstep : step unixFd s a = some s') : Fresh unixFd s' := by
  cases step_cases hstep with
  | lock thread call => exact fresh_lock h hstep
  | finish thread => exact fresh_finish hlocks h hallowed hstep
  | io hmove => exact fresh_ioStep h hallowed hmove
  | dispatch hmove => exact fresh_dispatchStep h hmove

/-- Nothing that is removed is handled in a run in which nothing is removed between the moment at
    which it is fetched and the call on it. -/
theorem noneAfterRemoval_of_outsideWindows
    (h : (system unixFd).ReachableWhen OutsideWindows s) : NoneAfterRemoval s := by
  have hfresh : Fresh unixFd s := by
    apply h.invariant_over fun _ => locks_of_reachableWhen
    case initial =>
      rintro _ rfl
      exact fresh_initial
    case preserved =>
      exact fun _ _ _ hlocks hfresh hallowed hstep => fresh_step hlocks hfresh hallowed hstep
  exact hfresh.none

end Calls

/-- All watches are for the same socket. -/
def socket : Nat → Int := fun _ => 7

def twoWatches : List (Label Nat Nat String) :=
  [.lock (.client 0) (.onAddWatch 1 true), .finish (.client 0),
    .lock (.client 0) (.onAddWatch 2 true), .finish (.client 0)]

/-- The handler of the first watch removes it; the second one is handled then. -/
def ownRun : List (Label Nat Nat String) :=
  twoWatches ++
  [.lockWatcher, .findFd 7, .visitWatch true, .callWatchHandle, .lock .io (.onRemoveWatch 1),
    .finish .io, .returnWatchHandle, .relockAfterWatch, .visitWatch true, .callWatchHandle]

theorem ownRun_noneAfterRemoval :
    ∃ s, (system socket).run initial ownRun = some s ∧ NoneAfterRemoval s ∧
      s.removed (.watch 1) = true ∧ s.io = .inWatchHandle 7 0 none := by
  have hrun : (system socket).run initial ownRun = some _ := rfl
  refine ⟨_, hrun, noneAfterRemoval_of_outsideWindows
    (TransitionSystem.reachableWhen_of_run ownRun rfl ?_ hrun), rfl, rfl⟩
  refine ⟨trivial, trivial, trivial, trivial, trivial, trivial, trivial, trivial, trivial, ?_,
    trivial, ?_, trivial, trivial, trivial⟩
  · rintro fd fdMapI wIter ⟨⟩
  · -- The iterator is at the node of the second watch.
    rintro fd fdMapI wIter ⟨⟩
    refine .inr ⟨_, rfl, rfl, ?_⟩
    rintro node ⟨⟩
    exact ⟨2, by decide⟩

/-- The watch is removed before `dbus_watch_handle` is called with it. -/
def watchRun : List (Label Nat Nat String) :=
  twoWatches ++
  [.lockWatcher, .findFd 7, .visitWatch true, .lock (.client 0) (.onRemoveWatch 1),
    .finish (.client 0), .callWatchHandle]

/-- The handler of the first watch removes the second one. -/
def nextRun : List (Label Nat Nat String) :=
  twoWatches ++
  [.lockWatcher, .findFd 7, .visitWatch true, .callWatchHandle, .lock .io (.onRemoveWatch 2),
    .finish .io, .returnWatchHandle, .relockAfterWatch, .visitWatch true]

def timeoutRun : List (Label Nat Nat String) :=
  [.lock (.client 0) (.onAddTimeout 1 true), .finish (.client 0), .lockWatcher, .timerfdEvent,
    .lockTimer, .fetchTimer (some 1), .lock (.client 0) (.onRemoveTimeout 1), .finish (.client 0),
    .unlockForTimeout, .callTimeoutHandle]

def opathRun : List (Label Nat Nat String) :=
  [.lock (.client 0) (.registerObjectPath "/a" true), .finish (.client 0), .lookUp "/a",
    .lock (.client 0) (.unregisterObjectPath "/a" true), .finish (.client 0), .readFirst]

/-- In each of the windows something is removed and handled then. -/
theorem windows_not_noneAfterRemoval :
    (∃ s : State Nat Nat String, (system socket).Reachable s ∧ s.faults = [.handledWatch 1]) ∧
      (∃ s : State Nat Nat String, (system socket).Reachable s ∧ s.faults = [.iteratedErased 7]) ∧
      (∃ s : State Nat Nat String, (system socket).Reachable s ∧ s.faults = [.handledTimeout 1]) ∧
      (∃ s : State Nat Nat String, (system socket).Reachable s ∧ s.faults = [.readErased "/a"]) ∧
      ¬ ∀ s : State Nat Nat String, (system socket).Reachable s → NoneAfterRemoval s := by
  have hwatch : (system socket).run initial watchRun = some _ := rfl
  have hnext : (system socket).run initial nextRun = some _ := rfl
  have htimeout : (system socket).run initial timeoutRun = some _ := rfl
  have hopath : (system socket).run initial opathRun = some _ := rfl
  refine ⟨⟨_, TransitionSystem.reachable_of_run _ rfl hwatch, rfl⟩,
    ⟨_, TransitionSystem.reachable_of_run _ rfl hnext, rfl⟩,
    ⟨_, TransitionSystem.reachable_of_run _ rfl htimeout, rfl⟩,
    ⟨_, TransitionSystem.reachable_of_run _ rfl hopath, rfl⟩, fun hclaim => ?_⟩
  have hnone := hclaim _ (TransitionSystem.reachable_of_run _ rfl hwatch)
  cases hnone

end Ultrabus.Removal
