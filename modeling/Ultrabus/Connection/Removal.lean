import Ultrabus.Connection.Watches

/-! # Removed watches, timeouts and object paths

The thread in `io_handler`, with the loop over the watches of a descriptor and the call of a
timeout, and the dispatch thread in `object_handler::dbus_on_message`, together with any number
of threads that add and remove watches, timeouts and object paths.  Every lock and every unlock
is a step of its own; a remove function unlocks when it returns.  The nodes of the maps have
identities, so that an iterator can be left at a node that is erased.

`ω`, `η` and `π` are the types of `DBusWatch*`, `DBusTimeout*` and object paths. -/

namespace Ultrabus.Removal

open Watches (addressLess)

/-! ## State -/

inductive Thread where
  | io
  | dispatch
  | client (n : Nat)
deriving DecidableEq, Repr

inductive Mutex where
  | watcherMutex
  | timerMutex
  | opathsLock
deriving DecidableEq, Repr

inductive Item (ω η : Type) where
  | watch (watch : ω)
  | timeout (timeout : η)
deriving DecidableEq, Repr

/-- A call of a function that adds or removes an item, with what it is told by others:
    whether `epoll_ctl` accepts the descriptor, whether the timeout is enabled, whether libdbus
    registers or unregisters the object path. -/
inductive Call (ω η π : Type) where
  | onAddWatch (watch : ω) (accepted : Bool)
  | onRemoveWatch (watch : ω)
  | onAddTimeout (timeout : η) (enabled : Bool)
  | onRemoveTimeout (timeout : η)
  | registerObjectPath (opath : π) (accepted : Bool)
  | unregisterObjectPath (opath : π) (accepted : Bool)
deriving DecidableEq, Repr

variable {ω η π : Type}

def Call.mutex : Call ω η π → Mutex
  | .onAddWatch _ _ | .onRemoveWatch _ => .watcherMutex
  | .onAddTimeout _ _ | .onRemoveTimeout _ => .timerMutex
  | .registerObjectPath _ _ | .unregisterObjectPath _ _ => .opathsLock

/-- The thread in `io_handler`.  While it is in the loop over the watches of a descriptor it has
    the iterators `fd_map_i`, to a node of `fd_map`, and `w_iter`, to a node of the map in there
    or behind its last one. -/
inductive IoPc (ω η : Type) where
  | epollWait
  | handleEpollResult
  | watchLoop (fd : Int) (fdMapI : Nat) (wIter : Option Nat)
  | atWatchHandle (watch : ω) (fd : Int) (fdMapI : Nat) (wIter : Option Nat)
  | inWatchHandle (fd : Int) (fdMapI : Nat) (wIter : Option Nat)
  | atWatchRelock (fd : Int) (fdMapI : Nat) (wIter : Option Nat)
  | atTimerLock
  | inTimerMutex
  | atWatcherUnlock (timeout : η)
  | atTimeoutHandle (timeout : η)
  | inTimeoutHandle
  | atTimerRelock
  -- has gone on from an erased node
  | undefined
deriving DecidableEq, Repr

/-- The dispatch thread; `oh_cb` points to the entry of the object path. -/
inductive DispatchPc (π : Type) where
  | idle
  | atFirst (opath : π) (ohCb : Nat)
  | atLock (opath : π) (ohCb : Nat)
  | locked (opath : π) (ohCb : Nat)
  | inCallback
  | undefined
deriving DecidableEq, Repr

/-- What must not happen to an item once it is removed. -/
inductive Fault (ω η π : Type) where
  | handledWatch (watch : ω)
  | handledTimeout (timeout : η)
  | iteratedErased (fd : Int)
  | readErased (opath : π)
deriving DecidableEq, Repr

/-- A node of `fd_map`, with the watches of the descriptor and the nodes they are in. -/
structure FdNode (ω : Type) where
  node : Nat
  watches : List (ω × Nat)
deriving Repr

structure State (ω η π : Type) where
  fdMap : Int → Option (FdNode ω)
  -- the handles in `timers`; the order depends on the clock
  timers : List η
  -- the nodes of `opath_map`, which libdbus has for user data
  opathMap : π → Option Nat
  nextNode : Nat
  holder : Mutex → Option Thread
  io : IoPc ω η
  dispatch : DispatchPc π
  -- the calls that have locked their mutex and not returned
  calls : Thread → Option (Call ω η π)
  -- the watches and timeouts whose remove function has returned, and that are not added again
  removed : Item ω η → Bool
  faults : List (Fault ω η π)

inductive Label (ω η π : Type) where
  | lock (thread : Thread) (call : Call ω η π)
  | finish (thread : Thread)
  | lockWatcher
  | unlockWatcher
  | findFd (fd : Int)
  | visitWatch (handle : Bool)
  | callWatchHandle
  | returnWatchHandle
  | relockAfterWatch
  | timerfdEvent
  | lockTimer
  | fetchTimer (timeout : Option η)
  | unlockForTimeout
  | callTimeoutHandle
  | returnTimeoutHandle
  | relockAfterTimeout
  | lookUp (opath : π)
  | readFirst
  | lockOpaths
  | readSecond
  | returnCallback
deriving DecidableEq, Repr

/-! ## The functions that add and remove -/

section Functions

variable [LinearOrder ω] [DecidableEq η] [DecidableEq π] (unixFd : ω → Int)

def eraseWatch (watch : ω) (watches : List (ω × Nat)) : List (ω × Nat) :=
  watches.filter fun entry => entry.1 ≠ watch

/-- What `connection::on_add_watch` leaves for the descriptor; it takes the watch out again when
    `epoll_ctl` fails. -/
def addedRow (next : Nat) (watch : ω) (accepted : Bool) : Option (FdNode ω) → Option (FdNode ω)
  | none => if accepted then some ⟨next, [(watch, next + 1)]⟩ else none
  | some row =>
    let added := OrderedMap.emplace addressLess watch next row.watches
    some { row with watches := if accepted then added else eraseWatch watch added }

/-- `connection::on_add_watch`. -/
def onAddWatch (s : State ω η π) (watch : ω) (accepted : Bool) : State ω η π :=
  let fd := unixFd watch
  { s with
    fdMap := Function.update s.fdMap fd (addedRow s.nextNode watch accepted (s.fdMap fd))
    nextNode := s.nextNode + 2 }

/-- `connection::on_remove_watch`. -/
def onRemoveWatch (s : State ω η π) (watch : ω) : State ω η π :=
  match s.fdMap (unixFd watch) with
  | none => s
  | some row =>
    let left := eraseWatch watch row.watches
    { s with
      fdMap := Function.update s.fdMap (unixFd watch)
        (if left.isEmpty then none else some { row with watches := left }) }

/-- `object_handler::register_object_path`; a path that is registered keeps its entry. -/
def registerObjectPath (s : State ω η π) (opath : π) (accepted : Bool) : State ω η π :=
  if (s.opathMap opath).isSome || !accepted then s
  else
    { s with
      opathMap := Function.update s.opathMap opath (some s.nextNode)
      nextNode := s.nextNode + 1 }

/-- What a call does to the containers before it unlocks. -/
def body (s : State ω η π) : Call ω η π → State ω η π
  | .onAddWatch watch accepted => onAddWatch unixFd s watch accepted
  | .onRemoveWatch watch => onRemoveWatch unixFd s watch
  | .onAddTimeout timeout enabled =>
    if enabled then { s with timers := timeout :: s.timers } else s
  | .onRemoveTimeout timeout => { s with timers := s.timers.erase timeout }
  | .registerObjectPath opath accepted => registerObjectPath s opath accepted
  | .unregisterObjectPath opath accepted =>
    if accepted then { s with opathMap := Function.update s.opathMap opath none } else s

/-- The watches and timeouts that are removed once a call has returned. -/
def removedBy (removed : Item ω η → Bool) : Call ω η π → Item ω η → Bool
  | .onAddWatch watch true => Function.update removed (.watch watch) false
  | .onRemoveWatch watch => Function.update removed (.watch watch) true
  | .onAddTimeout timeout true => Function.update removed (.timeout timeout) false
  | .onRemoveTimeout timeout => Function.update removed (.timeout timeout) true
  | _ => removed

end Functions

/-! ## Steps -/

/-- The thread runs code that may call the functions: any client, and the two threads of the
    connection in their handlers. -/
def State.mayCall (s : State ω η π) : Thread → Bool
  | .io =>
    match s.io with
    | .inWatchHandle _ _ _ | .inTimeoutHandle => true
    | _ => false
  | .dispatch =>
    match s.dispatch with
    | .idle | .inCallback => true
    | _ => false
  | .client _ => true

def State.acquire (s : State ω η π) (mutex : Mutex) (thread : Thread) : State ω η π :=
  { s with holder := Function.update s.holder mutex (some thread) }

def State.release (s : State ω η π) (mutex : Mutex) : State ω η π :=
  { s with holder := Function.update s.holder mutex none }

/-- A fault, if the item it is about is removed. -/
def State.touch (s : State ω η π) (item : Item ω η) (fault : Fault ω η π) : State ω η π :=
  if s.removed item then { s with faults := fault :: s.faults } else s

/-- The node behind a node, when there is one. -/
def nextNode (node : Nat) : List (ω × Nat) → Option Nat
  | [] => none
  | entry :: rest =>
    if entry.2 = node then rest.head?.map Prod.snd else nextNode node rest

/-- One turn of `while (w_iter != fd_map_i->second.end ())` up to the unlock in
    `handle_io_watch_event`; whether the event is for the watch and the watch is enabled comes
    from outside. -/
def visitWatch (s : State ω η π) (fd : Int) (fdMapI : Nat) (wIter : Option Nat) (handle : Bool) :
    State ω η π :=
  let erased := { s with io := .undefined, faults := .iteratedErased fd :: s.faults }
  match s.fdMap fd with
  | none => erased
  | some row =>
    if row.node ≠ fdMapI then erased
    else
      match wIter with
      | none => { s with io := .handleEpollResult }
      | some node =>
        match row.watches.find? fun entry => entry.2 = node with
        | none => erased
        | some (watch, _) =>
          let wIter := nextNode node row.watches
          if handle then
            { s.release .watcherMutex with io := .atWatchHandle watch fd fdMapI wIter }
          else { s with io := .watchLoop fd fdMapI wIter }

section Steps

variable [LinearOrder ω] [DecidableEq η] [DecidableEq π]

/-- libdbus adds an enabled timeout, or enables one, when it is not in the list. -/
def mayAdd (s : State ω η π) : Call ω η π → Bool
  | .onAddTimeout timeout true => timeout ∉ s.timers
  | _ => true

def step (unixFd : ω → Int) (s : State ω η π) : Label ω η π → Option (State ω η π)
  | .lock thread call =>
    if s.mayCall thread = true ∧ s.calls thread = none ∧ s.holder call.mutex = none ∧
        mayAdd s call = true then
      some { s.acquire call.mutex thread with
        calls := Function.update s.calls thread (some call) }
    else none
  | .finish thread =>
    match s.calls thread with
    | some call =>
      some { (body unixFd s call).release call.mutex with
        calls := Function.update s.calls thread none
        removed := removedBy s.removed call }
    | none => none
  | .lockWatcher =>
    if s.io = .epollWait ∧ s.holder .watcherMutex = none then
      some { s.acquire .watcherMutex .io with io := .handleEpollResult }
    else none
  | .unlockWatcher =>
    if s.io = .handleEpollResult then some { s.release .watcherMutex with io := .epollWait }
    else none
  | .findFd fd =>
    if s.io = .handleEpollResult then
      match s.fdMap fd with
      | none => some s
      | some row =>
        some { s with io := .watchLoop fd row.node (row.watches.head?.map Prod.snd) }
    else none
  | .visitWatch handle =>
    match s.io with
    | .watchLoop fd fdMapI wIter => some (visitWatch s fd fdMapI wIter handle)
    | _ => none
  | .callWatchHandle =>
    match s.io with
    | .atWatchHandle watch fd fdMapI wIter =>
      some { s.touch (.watch watch) (.handledWatch watch) with
        io := .inWatchHandle fd fdMapI wIter }
    | _ => none
  | .returnWatchHandle =>
    match s.io with
    | .inWatchHandle fd fdMapI wIter =>
      if s.calls .io = none then some { s with io := .atWatchRelock fd fdMapI wIter } else none
    | _ => none
  | .relockAfterWatch =>
    match s.io with
    | .atWatchRelock fd fdMapI wIter =>
      if s.holder .watcherMutex = none then
        -- `if (!fd_map.contains(fd)) break;`
        some { s.acquire .watcherMutex .io with
          io := if (s.fdMap fd).isSome then .watchLoop fd fdMapI wIter else .handleEpollResult }
      else none
    | _ => none
  | .timerfdEvent =>
    if s.io = .handleEpollResult then some { s with io := .atTimerLock } else none
  | .lockTimer =>
    if s.io = .atTimerLock ∧ s.holder .timerMutex = none then
      some { s.acquire .timerMutex .io with io := .inTimerMutex }
    else none
  | .fetchTimer timeout =>
    if s.io = .inTimerMutex then
      match timeout with
      | none => some { s.release .timerMutex with io := .handleEpollResult }
      | some handle =>
        -- The front of the list is the timeout that is due first.
        if handle ∈ s.timers then some { s.release .timerMutex with io := .atWatcherUnlock handle }
        else none
    else none
  | .unlockForTimeout =>
    match s.io with
    | .atWatcherUnlock handle =>
      some { s.release .watcherMutex with io := .atTimeoutHandle handle }
    | _ => none
  | .callTimeoutHandle =>
    match s.io with
    | .atTimeoutHandle handle =>
      some { s.touch (.timeout handle) (.handledTimeout handle) with io := .inTimeoutHandle }
    | _ => none
  | .returnTimeoutHandle =>
    if s.io = .inTimeoutHandle ∧ s.calls .io = none then some { s with io := .atTimerRelock }
    else none
  | .relockAfterTimeout =>
    if s.io = .atTimerRelock ∧ s.holder .watcherMutex = none then
      some { s.acquire .watcherMutex .io with io := .handleEpollResult }
    else none
  | .lookUp opath =>
    match s.opathMap opath with
    | some entry =>
      if s.dispatch = .idle ∧ s.calls .dispatch = none then
        some { s with dispatch := .atFirst opath entry }
      else none
    | none => none
  | .readFirst =>
    match s.dispatch with
    | .atFirst opath entry =>
      if s.opathMap opath = some entry then some { s with dispatch := .atLock opath entry }
      else some { s with dispatch := .undefined, faults := .readErased opath :: s.faults }
    | _ => none
  | .lockOpaths =>
    match s.dispatch with
    | .atLock opath entry =>
      if s.holder .opathsLock = none then
        some { s.acquire .opathsLock .dispatch with dispatch := .locked opath entry }
      else none
    | _ => none
  | .readSecond =>
    match s.dispatch with
    | .locked opath entry =>
      if s.opathMap opath = some entry then
        some { s.release .opathsLock with dispatch := .inCallback }
      else
        some { s.release .opathsLock with
          dispatch := .undefined, faults := .readErased opath :: s.faults }
    | _ => none
  | .returnCallback =>
    if s.dispatch = .inCallback ∧ s.calls .dispatch = none then some { s with dispatch := .idle }
    else none

def initial : State ω η π where
  fdMap _ := none
  timers := []
  opathMap _ := none
  nextNode := 0
  holder _ := none
  io := .epollWait
  dispatch := .idle
  calls _ := none
  removed _ := false
  faults := []

def system (unixFd : ω → Int) : TransitionSystem (State ω η π) (Label ω η π) where
  init s := s = initial
  step := step unixFd

end Steps

/-- No removed watch or timeout has been handled, no iteration has gone on from an erased node,
    and no erased entry of `opath_map` has been read. -/
def NoneAfterRemoval (s : State ω η π) : Prop := s.faults = []

/-! ## What the steps do -/

/-- The steps of the thread in `io_handler` outside the functions that add and remove. -/
inductive IoStep (s : State ω η π) : Label ω η π → State ω η π → Prop where
  | lockWatcher (hio : s.io = .epollWait) (hfree : s.holder .watcherMutex = none) :
      IoStep s .lockWatcher { s.acquire .watcherMutex .io with io := .handleEpollResult }
  | unlockWatcher (hio : s.io = .handleEpollResult) :
      IoStep s .unlockWatcher { s.release .watcherMutex with io := .epollWait }
  | unknownFd {fd : Int} : IoStep s (.findFd fd) s
  | findFd {fd : Int} {row : FdNode ω} (hio : s.io = .handleEpollResult)
      (hrow : s.fdMap fd = some row) :
      IoStep s (.findFd fd)
        { s with io := .watchLoop fd row.node (row.watches.head?.map Prod.snd) }
  | visitWatch {fd : Int} {fdMapI : Nat} {wIter : Option Nat} {handle : Bool}
      (hio : s.io = .watchLoop fd fdMapI wIter) :
      IoStep s (.visitWatch handle) (visitWatch s fd fdMapI wIter handle)
  | callWatchHandle {watch : ω} {fd : Int} {fdMapI : Nat} {wIter : Option Nat}
      (hio : s.io = .atWatchHandle watch fd fdMapI wIter) :
      IoStep s .callWatchHandle { s.touch (.watch watch) (.handledWatch watch) with
        io := .inWatchHandle fd fdMapI wIter }
  | returnWatchHandle {fd : Int} {fdMapI : Nat} {wIter : Option Nat}
      (hio : s.io = .inWatchHandle fd fdMapI wIter) (hidle : s.calls .io = none) :
      IoStep s .returnWatchHandle { s with io := .atWatchRelock fd fdMapI wIter }
  | relockAfterWatch {fd : Int} {fdMapI : Nat} {wIter : Option Nat}
      (hio : s.io = .atWatchRelock fd fdMapI wIter) (hfree : s.holder .watcherMutex = none) :
      IoStep s .relockAfterWatch { s.acquire .watcherMutex .io with
        io := if (s.fdMap fd).isSome then .watchLoop fd fdMapI wIter else .handleEpollResult }
  | timerfdEvent (hio : s.io = .handleEpollResult) :
      IoStep s .timerfdEvent { s with io := .atTimerLock }
  | lockTimer (hio : s.io = .atTimerLock) (hfree : s.holder .timerMutex = none) :
      IoStep s .lockTimer { s.acquire .timerMutex .io with io := .inTimerMutex }
  | noTimer (hio : s.io = .inTimerMutex) :
      IoStep s (.fetchTimer none) { s.release .timerMutex with io := .handleEpollResult }
  | fetchTimer {handle : η} (hio : s.io = .inTimerMutex) (hmem : handle ∈ s.timers) :
      IoStep s (.fetchTimer (some handle))
        { s.release .timerMutex with io := .atWatcherUnlock handle }
  | unlockForTimeout {handle : η} (hio : s.io = .atWatcherUnlock handle) :
      IoStep s .unlockForTimeout { s.release .watcherMutex with io := .atTimeoutHandle handle }
  | callTimeoutHandle {handle : η} (hio : s.io = .atTimeoutHandle handle) :
      IoStep s .callTimeoutHandle { s.touch (.timeout handle) (.handledTimeout handle) with
        io := .inTimeoutHandle }
  | returnTimeoutHandle (hidle : s.calls .io = none) :
      IoStep s .returnTimeoutHandle { s with io := .atTimerRelock }
  | relockAfterTimeout (hio : s.io = .atTimerRelock) (hfree : s.holder .watcherMutex = none) :
      IoStep s .relockAfterTimeout { s.acquire .watcherMutex .io with io := .handleEpollResult }

/-- The steps of the dispatch thread outside those functions. -/
inductive DispatchStep (s : State ω η π) : Label ω η π → State ω η π → Prop where
  | lookUp {opath : π} {entry : Nat} (hentry : s.opathMap opath = some entry)
      (hidle : s.calls .dispatch = none) :
      DispatchStep s (.lookUp opath) { s with dispatch := .atFirst opath entry }
  | readFirst {opath : π} {entry : Nat} (hpc : s.dispatch = .atFirst opath entry)
      (hentry : s.opathMap opath = some entry) :
      DispatchStep s .readFirst { s with dispatch := .atLock opath entry }
  | readFirstErased {opath : π} {entry : Nat} (hpc : s.dispatch = .atFirst opath entry)
      (herased : s.opathMap opath ≠ some entry) :
      DispatchStep s .readFirst
        { s with dispatch := .undefined, faults := .readErased opath :: s.faults }
  | lockOpaths {opath : π} {entry : Nat} (hpc : s.dispatch = .atLock opath entry)
      (hfree : s.holder .opathsLock = none) :
      DispatchStep s .lockOpaths
        { s.acquire .opathsLock .dispatch with dispatch := .locked opath entry }
  | readSecond {opath : π} {entry : Nat} (hpc : s.dispatch = .locked opath entry)
      (hentry : s.opathMap opath = some entry) :
      DispatchStep s .readSecond { s.release .opathsLock with dispatch := .inCallback }
  | readSecondErased {opath : π} {entry : Nat} (hpc : s.dispatch = .locked opath entry)
      (herased : s.opathMap opath ≠ some entry) :
      DispatchStep s .readSecond { s.release .opathsLock with
        dispatch := .undefined, faults := .readErased opath :: s.faults }
  | returnCallback (hidle : s.calls .dispatch = none) :
      DispatchStep s .returnCallback { s with dispatch := .idle }

/-- Who takes a step: any thread in one of those functions, or one of the two threads of the
    connection. -/
inductive StepBy (s : State ω η π) : Label ω η π → State ω η π → Prop where
  | lock {s' : State ω η π} (thread : Thread) (call : Call ω η π) :
      StepBy s (.lock thread call) s'
  | finish {s' : State ω η π} (thread : Thread) : StepBy s (.finish thread) s'
  | io {s' : State ω η π} {a : Label ω η π} (hstep : IoStep s a s') : StepBy s a s'
  | dispatch {s' : State ω η π} {a : Label ω η π} (hstep : DispatchStep s a s') : StepBy s a s'

theorem step_cases [LinearOrder ω] [DecidableEq η] [DecidableEq π] {unixFd : ω → Int}
    {s s' : State ω η π} {a : Label ω η π} (hstep : step unixFd s a = some s') :
    StepBy s a s' := by
  cases a with
  | lock thread call => exact .lock thread call
  | finish thread => exact .finish thread
  | lockWatcher =>
    simp only [step, Option.ite_none_right_eq_some, Option.some.injEq] at hstep
    obtain ⟨⟨hio, hfree⟩, rfl⟩ := hstep
    exact .io (.lockWatcher hio hfree)
  | unlockWatcher =>
    simp only [step, Option.ite_none_right_eq_some, Option.some.injEq] at hstep
    obtain ⟨hio, rfl⟩ := hstep
    exact .io (.unlockWatcher hio)
  | findFd fd =>
    simp only [step, Option.ite_none_right_eq_some] at hstep
    obtain ⟨hio, hstep⟩ := hstep
    split at hstep
    case h_1 =>
      obtain rfl := Option.some.inj hstep
      exact .io .unknownFd
    case h_2 row hrow =>
      obtain rfl := Option.some.inj hstep
      exact .io (.findFd hio hrow)
  | visitWatch handle =>
    simp only [step] at hstep
    split at hstep
    case h_1 hio =>
      obtain rfl := Option.some.inj hstep
      exact .io (.visitWatch hio)
    case h_2 => cases hstep
  | callWatchHandle =>
    simp only [step] at hstep
    split at hstep
    case h_1 hio =>
      obtain rfl := Option.some.inj hstep
      exact .io (.callWatchHandle hio)
    case h_2 => cases hstep
  | returnWatchHandle =>
    simp only [step] at hstep
    split at hstep
    case h_1 hio =>
      simp only [Option.ite_none_right_eq_some, Option.some.injEq] at hstep
      obtain ⟨hidle, rfl⟩ := hstep
      exact .io (.returnWatchHandle hio hidle)
    case h_2 => cases hstep
  | relockAfterWatch =>
    simp only [step] at hstep
    split at hstep
    case h_1 hio =>
      simp only [Option.ite_none_right_eq_some, Option.some.injEq] at hstep
      obtain ⟨hfree, rfl⟩ := hstep
      exact .io (.relockAfterWatch hio hfree)
    case h_2 => cases hstep
  | timerfdEvent =>
    simp only [step, Option.ite_none_right_eq_some, Option.some.injEq] at hstep
    obtain ⟨hio, rfl⟩ := hstep
    exact .io (.timerfdEvent hio)
  | lockTimer =>
    simp only [step, Option.ite_none_right_eq_some, Option.some.injEq] at hstep
    obtain ⟨⟨hio, hfree⟩, rfl⟩ := hstep
    exact .io (.lockTimer hio hfree)
  | fetchTimer timeout =>
    simp only [step, Option.ite_none_right_eq_some] at hstep
    obtain ⟨hio, hstep⟩ := hstep
    cases timeout with
    | none =>
      obtain rfl := Option.some.inj hstep
      exact .io (.noTimer hio)
    | some handle =>
      simp only [Option.ite_none_right_eq_some, Option.some.injEq] at hstep
      obtain ⟨hmem, rfl⟩ := hstep
      exact .io (.fetchTimer hio hmem)
  | unlockForTimeout =>
    simp only [step] at hstep
    split at hstep
    case h_1 hio =>
      obtain rfl := Option.some.inj hstep
      exact .io (.unlockForTimeout hio)
    case h_2 => cases hstep
  | callTimeoutHandle =>
    simp only [step] at hstep
    split at hstep
    case h_1 hio =>
      obtain rfl := Option.some.inj hstep
      exact .io (.callTimeoutHandle hio)
    case h_2 => cases hstep
  | returnTimeoutHandle =>
    simp only [step, Option.ite_none_right_eq_some, Option.some.injEq] at hstep
    obtain ⟨⟨-, hidle⟩, rfl⟩ := hstep
    exact .io (.returnTimeoutHandle hidle)
  | relockAfterTimeout =>
    simp only [step, Option.ite_none_right_eq_some, Option.some.injEq] at hstep
    obtain ⟨⟨hio, hfree⟩, rfl⟩ := hstep
    exact .io (.relockAfterTimeout hio hfree)
  | lookUp opath =>
    simp only [step] at hstep
    split at hstep
    case h_1 hentry =>
      simp only [Option.ite_none_right_eq_some, Option.some.injEq] at hstep
      obtain ⟨⟨-, hidle⟩, rfl⟩ := hstep
      exact .dispatch (.lookUp hentry hidle)
    case h_2 => cases hstep
  | readFirst =>
    simp only [step] at hstep
    split at hstep
    case h_1 hpc =>
      split at hstep
      case isTrue hentry =>
        obtain rfl := Option.some.inj hstep
        exact .dispatch (.readFirst hpc hentry)
      case isFalse herased =>
        obtain rfl := Option.some.inj hstep
        exact .dispatch (.readFirstErased hpc herased)
    case h_2 => cases hstep
  | lockOpaths =>
    simp only [step] at hstep
    split at hstep
    case h_1 hpc =>
      simp only [Option.ite_none_right_eq_some, Option.some.injEq] at hstep
      obtain ⟨hfree, rfl⟩ := hstep
      exact .dispatch (.lockOpaths hpc hfree)
    case h_2 => cases hstep
  | readSecond =>
    simp only [step] at hstep
    split at hstep
    case h_1 hpc =>
      split at hstep
      case isTrue hentry =>
        obtain rfl := Option.some.inj hstep
        exact .dispatch (.readSecond hpc hentry)
      case isFalse herased =>
        obtain rfl := Option.some.inj hstep
        exact .dispatch (.readSecondErased hpc herased)
    case h_2 => cases hstep
  | returnCallback =>
    simp only [step, Option.ite_none_right_eq_some, Option.some.injEq] at hstep
    obtain ⟨⟨-, hidle⟩, rfl⟩ := hstep
    exact .dispatch (.returnCallback hidle)

/-! ## Who holds the mutexes -/

/-- The places at which the thread in `io_handler` holds `watcher_mutex`. -/
def IoPc.holdsWatcher : IoPc ω η → Bool
  | .handleEpollResult | .watchLoop _ _ _ | .atTimerLock | .inTimerMutex
  | .atWatcherUnlock _ => true
  | _ => false

structure Locks (s : State ω η π) : Prop where
  calls : ∀ thread call, s.calls thread = some call →
    s.holder call.mutex = some thread ∧ s.mayCall thread = true
  watcher : s.io.holdsWatcher = true → s.holder .watcherMutex = some .io
  timer : s.io = .inTimerMutex → s.holder .timerMutex = some .io
  opaths : ∀ opath entry, s.dispatch = .locked opath entry →
    s.holder .opathsLock = some .dispatch

section Locks

variable {s s' : State ω η π}

theorem Locks.calls_eq_none (h : Locks s) {thread : Thread} (hbusy : s.mayCall thread = false) :
    s.calls thread = none := by
  cases hcall : s.calls thread with
  | none => rfl
  | some call =>
    have hmay := (h.calls thread call hcall).2
    exact absurd (hbusy.symm.trans hmay) (by decide)

/-- What the other threads hold is left to them. -/
def KeepsOthers (thread : Thread) (s s' : State ω η π) : Prop :=
  ∀ mutex other, other ≠ thread → s.holder mutex = some other → s'.holder mutex = some other

theorem holder_acquire {mutex mutex' : Mutex} {thread other : Thread}
    (hfree : s.holder mutex = none) (hholder : s.holder mutex' = some other) :
    (s.acquire mutex thread).holder mutex' = some other := by
  have hne : mutex' ≠ mutex := by
    rintro rfl
    rw [hfree] at hholder
    cases hholder
  simpa [State.acquire, Function.update_of_ne hne] using hholder

theorem holder_release {mutex mutex' : Mutex} {thread other : Thread}
    (hheld : s.holder mutex = some thread) (hother : other ≠ thread)
    (hholder : s.holder mutex' = some other) : (s.release mutex).holder mutex' = some other := by
  have hne : mutex' ≠ mutex := by
    rintro rfl
    rw [hheld] at hholder
    exact hother (Option.some.inj hholder).symm
  simpa [State.release, Function.update_of_ne hne] using hholder

/-- A step of the thread in `io_handler` outside the functions that add and remove. -/
theorem Locks.io_step (h : Locks s) (hidle : s.calls .io = none) (hcalls : s'.calls = s.calls)
    (hdispatch : s'.dispatch = s.dispatch) (hothers : KeepsOthers .io s s')
    (hwatcher : s'.io.holdsWatcher = true → s'.holder .watcherMutex = some .io)
    (htimer : s'.io = .inTimerMutex → s'.holder .timerMutex = some .io) : Locks s' := by
  refine ⟨fun thread call hcall => ?_, hwatcher, htimer, fun opath entry hlocked => ?_⟩
  · rw [hcalls] at hcall
    have hne : thread ≠ .io := by
      rintro rfl
      rw [hidle] at hcall
      cases hcall
    obtain ⟨hholder, hmay⟩ := h.calls thread call hcall
    refine ⟨hothers _ _ hne hholder, ?_⟩
    cases thread with
    | io => exact absurd rfl hne
    | dispatch => simpa [State.mayCall, hdispatch] using hmay
    | client n => rfl
  · rw [hdispatch] at hlocked
    exact hothers _ _ (by decide) (h.opaths opath entry hlocked)

/-- A step of the dispatch thread outside those functions. -/
theorem Locks.dispatch_step (h : Locks s) (hidle : s.calls .dispatch = none)
    (hcalls : s'.calls = s.calls) (hio : s'.io = s.io) (hothers : KeepsOthers .dispatch s s')
    (hopaths : ∀ opath entry, s'.dispatch = .locked opath entry →
      s'.holder .opathsLock = some .dispatch) : Locks s' := by
  refine ⟨fun thread call hcall => ?_, fun hholds => ?_, fun htimer => ?_, hopaths⟩
  · rw [hcalls] at hcall
    have hne : thread ≠ .dispatch := by
      rintro rfl
      rw [hidle] at hcall
      cases hcall
    obtain ⟨hholder, hmay⟩ := h.calls thread call hcall
    refine ⟨hothers _ _ hne hholder, ?_⟩
    cases thread with
    | io => simpa [State.mayCall, hio] using hmay
    | dispatch => exact absurd rfl hne
    | client n => rfl
  · rw [hio] at hholds
    exact hothers _ _ (by decide) (h.watcher hholds)
  · rw [hio] at htimer
    exact hothers _ _ (by decide) (h.timer htimer)

theorem touch_rest (s : State ω η π) (item : Item ω η) (fault : Fault ω η π) :
    (s.touch item fault).holder = s.holder ∧ (s.touch item fault).calls = s.calls ∧
      (s.touch item fault).dispatch = s.dispatch ∧ (s.touch item fault).io = s.io ∧
      (s.touch item fault).fdMap = s.fdMap ∧ (s.touch item fault).timers = s.timers ∧
      (s.touch item fault).opathMap = s.opathMap ∧ (s.touch item fault).removed = s.removed := by
  unfold State.touch
  split <;> exact ⟨rfl, rfl, rfl, rfl, rfl, rfl, rfl, rfl⟩

/-- Where the thread in `io_handler` holds a mutex, it calls nothing. -/
theorem mayCall_io_of_holdsWatcher (h : s.io.holdsWatcher = true) : s.mayCall .io = false := by
  unfold State.mayCall
  cases hio : s.io <;> simp_all [IoPc.holdsWatcher]

/-- The thread in `io_handler` goes on without a mutex changing hands. -/
theorem Locks.io_move (h : Locks s) (hidle : s.calls .io = none) (pc : IoPc ω η)
    (hwatcher : pc.holdsWatcher = true → s.holder .watcherMutex = some .io)
    (htimer : pc = .inTimerMutex → s.holder .timerMutex = some .io) :
    Locks { s with io := pc } :=
  h.io_step hidle rfl rfl (fun _ _ _ => id) hwatcher htimer

/-- It takes a mutex. -/
theorem Locks.io_acquire (h : Locks s) (hidle : s.calls .io = none) {mutex : Mutex}
    (hfree : s.holder mutex = none) (pc : IoPc ω η)
    (hwatcher : pc.holdsWatcher = true →
      mutex = .watcherMutex ∨ s.holder .watcherMutex = some .io)
    (htimer : pc = .inTimerMutex → mutex = .timerMutex) :
    Locks { s.acquire mutex .io with io := pc } := by
  refine h.io_step hidle rfl rfl (fun _ _ _ => holder_acquire hfree) (fun hholds => ?_)
    fun hpc => ?_
  · obtain rfl | hheld := hwatcher hholds
    · simp [State.acquire]
    · exact holder_acquire hfree hheld
  · obtain rfl := htimer hpc
    simp [State.acquire]

/-- It gives a mutex back. -/
theorem Locks.io_release (h : Locks s) (hidle : s.calls .io = none) {mutex : Mutex}
    (hheld : s.holder mutex = some .io) (pc : IoPc ω η)
    (hwatcher : pc.holdsWatcher = true →
      mutex ≠ .watcherMutex ∧ s.holder .watcherMutex = some .io)
    (htimer : pc ≠ .inTimerMutex) : Locks { s.release mutex with io := pc } := by
  refine h.io_step hidle rfl rfl (fun _ _ hne => holder_release hheld hne) (fun hholds => ?_)
    fun hpc => absurd hpc htimer
  obtain ⟨hne, hwatcher⟩ := hwatcher hholds
  simpa [State.release, Function.update_of_ne hne.symm] using hwatcher

theorem locks_visitWatch (h : Locks s) {fd : Int} {fdMapI : Nat} {wIter : Option Nat}
    (hio : s.io = .watchLoop fd fdMapI wIter) (handle : Bool) :
    Locks (visitWatch s fd fdMapI wIter handle) := by
  have hidle : s.calls .io = none := h.calls_eq_none (by simp [State.mayCall, hio])
  have hheld : s.holder .watcherMutex = some .io := h.watcher (by rw [hio]; rfl)
  have herased : Locks { s with io := .undefined, faults := .iteratedErased fd :: s.faults } :=
    h.io_step hidle rfl rfl (fun _ _ _ => id) (fun hholds => by cases hholds)
      fun hpc => by cases hpc
  unfold visitWatch
  dsimp only
  split
  · exact herased
  · split
    · exact herased
    · split
      · exact h.io_move hidle _ (fun _ => hheld) fun hpc => by cases hpc
      · split
        · exact herased
        · split
          · exact h.io_release hidle hheld _ (fun hholds => by cases hholds) fun hpc => by cases hpc
          · exact h.io_move hidle _ (fun _ => hheld) fun hpc => by cases hpc

/-- A thread with a call does not have a mutex that a thread without one holds. -/
theorem Locks.mutex_ne (h : Locks s) {thread other : Thread} {call : Call ω η π}
    (hcall : s.calls thread = some call) {mutex : Mutex} (hheld : s.holder mutex = some other)
    (hbusy : s.mayCall other = false) : call.mutex ≠ mutex := by
  intro heq
  obtain ⟨hholder, hmay⟩ := h.calls thread call hcall
  rw [heq, hheld] at hholder
  obtain rfl := Option.some.inj hholder
  exact absurd (hbusy.symm.trans hmay) (by decide)

/-- No two threads add or remove timeouts at the same time. -/
theorem Locks.same_thread (h : Locks s) {thread thread' : Thread} {call call' : Call ω η π}
    (hcall : s.calls thread = some call) (hcall' : s.calls thread' = some call')
    (hmutex : call.mutex = call'.mutex) : thread = thread' := by
  have hholder := (h.calls thread call hcall).1
  rw [hmutex, (h.calls thread' call' hcall').1] at hholder
  exact (Option.some.inj hholder).symm

theorem locks_initial : Locks (initial : State ω η π) where
  calls thread call hcall := by cases hcall
  watcher hholds := by cases hholds
  timer hio := by cases hio
  opaths opath entry hdispatch := by cases hdispatch

/-- It calls a handler. -/
theorem Locks.io_touch (h : Locks s) (hidle : s.calls .io = none) (item : Item ω η)
    (fault : Fault ω η π) (pc : IoPc ω η) (hholds : pc.holdsWatcher = false)
    (htimer : pc ≠ .inTimerMutex) : Locks { s.touch item fault with io := pc } := by
  obtain ⟨hholder, hcalls, hdispatch, -⟩ := touch_rest s item fault
  exact h.io_step hidle hcalls hdispatch (fun _ _ _ hheld => hholder ▸ hheld)
    (fun htrue => absurd (hholds.symm.trans htrue) (by decide)) fun hpc => absurd hpc htimer

theorem locks_ioStep (h : Locks s) {a : Label ω η π} (hstep : IoStep s a s') : Locks s' := by
  have hidle : s.mayCall .io = false → s.calls .io = none := h.calls_eq_none
  have hwatcher := h.watcher
  cases hstep with
  | lockWatcher hio hfree =>
    exact h.io_acquire (hidle (by simp [State.mayCall, hio])) hfree _ (fun _ => .inl rfl)
      fun hpc => by cases hpc
  | unlockWatcher hio =>
    exact h.io_release (hidle (by simp [State.mayCall, hio])) (hwatcher (by rw [hio]; rfl)) _
      (fun hpc => by cases hpc) fun hpc => by cases hpc
  | unknownFd => exact h
  | findFd hio hrow =>
    exact h.io_move (hidle (by simp [State.mayCall, hio])) _
      (fun _ => hwatcher (by rw [hio]; rfl)) fun hpc => by cases hpc
  | visitWatch hio => exact locks_visitWatch h hio _
  | callWatchHandle hio =>
    exact h.io_touch (hidle (by simp [State.mayCall, hio])) _ _ (.inWatchHandle _ _ _) rfl
      fun hpc => by cases hpc
  | returnWatchHandle hio hnone =>
    exact h.io_move hnone _ (fun hpc => by cases hpc) fun hpc => by cases hpc
  | relockAfterWatch hio hfree =>
    apply h.io_acquire (hidle (by simp [State.mayCall, hio])) hfree _ (fun _ => .inl rfl)
    intro hpc
    split at hpc <;> cases hpc
  | timerfdEvent hio =>
    exact h.io_move (hidle (by simp [State.mayCall, hio])) _
      (fun _ => hwatcher (by rw [hio]; rfl)) fun hpc => by cases hpc
  | lockTimer hio hfree =>
    exact h.io_acquire (hidle (by simp [State.mayCall, hio])) hfree _
      (fun _ => .inr (hwatcher (by rw [hio]; rfl))) fun _ => rfl
  | noTimer hio =>
    exact h.io_release (hidle (by simp [State.mayCall, hio])) (h.timer hio) _
      (fun _ => ⟨by decide, hwatcher (by rw [hio]; rfl)⟩) fun hpc => by cases hpc
  | fetchTimer hio hmem =>
    exact h.io_release (hidle (by simp [State.mayCall, hio])) (h.timer hio) _
      (fun _ => ⟨by decide, hwatcher (by rw [hio]; rfl)⟩) fun hpc => by cases hpc
  | unlockForTimeout hio =>
    exact h.io_release (hidle (by simp [State.mayCall, hio])) (hwatcher (by rw [hio]; rfl)) _
      (fun hpc => by cases hpc) fun hpc => by cases hpc
  | callTimeoutHandle hio =>
    exact h.io_touch (hidle (by simp [State.mayCall, hio])) _ _ .inTimeoutHandle rfl
      fun hpc => by cases hpc
  | returnTimeoutHandle hnone =>
    exact h.io_move hnone _ (fun hpc => by cases hpc) fun hpc => by cases hpc
  | relockAfterTimeout hio hfree =>
    exact h.io_acquire (hidle (by simp [State.mayCall, hio])) hfree _ (fun _ => .inl rfl)
      fun hpc => by cases hpc

theorem locks_dispatchStep (h : Locks s) {a : Label ω η π} (hstep : DispatchStep s a s') :
    Locks s' := by
  have hidle : s.mayCall .dispatch = false → s.calls .dispatch = none := h.calls_eq_none
  cases hstep with
  | lookUp hentry hnone =>
    exact h.dispatch_step hnone rfl rfl (fun _ _ _ => id) fun _ _ hpc => by cases hpc
  | readFirst hpc hentry =>
    exact h.dispatch_step (hidle (by simp [State.mayCall, hpc])) rfl rfl (fun _ _ _ => id)
      fun _ _ hpc => by cases hpc
  | readFirstErased hpc herased =>
    exact h.dispatch_step (hidle (by simp [State.mayCall, hpc])) rfl rfl (fun _ _ _ => id)
      fun _ _ hpc => by cases hpc
  | lockOpaths hpc hfree =>
    exact h.dispatch_step (hidle (by simp [State.mayCall, hpc])) rfl rfl
      (fun _ _ _ => holder_acquire hfree) fun _ _ _ => by simp [State.acquire]
  | readSecond hpc hentry =>
    exact h.dispatch_step (hidle (by simp [State.mayCall, hpc])) rfl rfl
      (fun _ _ hne => holder_release (h.opaths _ _ hpc) hne) fun _ _ hpc => by cases hpc
  | readSecondErased hpc herased =>
    exact h.dispatch_step (hidle (by simp [State.mayCall, hpc])) rfl rfl
      (fun _ _ hne => holder_release (h.opaths _ _ hpc) hne) fun _ _ hpc => by cases hpc
  | returnCallback hnone =>
    exact h.dispatch_step hnone rfl rfl (fun _ _ _ => id) fun _ _ hpc => by cases hpc

end Locks

section LockSteps

variable [LinearOrder ω] [DecidableEq η] [DecidableEq π] {unixFd : ω → Int} {s s' : State ω η π}

theorem body_rest (unixFd : ω → Int) (s : State ω η π) (call : Call ω η π) :
    (body unixFd s call).holder = s.holder ∧ (body unixFd s call).io = s.io ∧
      (body unixFd s call).dispatch = s.dispatch ∧ (body unixFd s call).faults = s.faults := by
  cases call with
  | onRemoveWatch watch =>
    simp only [body, onRemoveWatch]
    split <;> exact ⟨rfl, rfl, rfl, rfl⟩
  | registerObjectPath opath accepted =>
    simp only [body, registerObjectPath]
    split <;> exact ⟨rfl, rfl, rfl, rfl⟩
  | onAddTimeout timeout enabled =>
    simp only [body]
    split <;> exact ⟨rfl, rfl, rfl, rfl⟩
  | unregisterObjectPath opath accepted =>
    simp only [body]
    split <;> exact ⟨rfl, rfl, rfl, rfl⟩
  | _ => exact ⟨rfl, rfl, rfl, rfl⟩

theorem locks_lock (h : Locks s) {thread : Thread} {call : Call ω η π}
    (hstep : step unixFd s (.lock thread call) = some s') : Locks s' := by
  simp only [step, Option.ite_none_right_eq_some, Option.some.injEq] at hstep
  obtain ⟨⟨hmay, -, hfree, -⟩, rfl⟩ := hstep
  refine ⟨fun thread' call' hcall => ?_, fun hholds => holder_acquire hfree (h.watcher hholds),
    fun htimer => holder_acquire hfree (h.timer htimer),
    fun opath entry hlocked => holder_acquire hfree (h.opaths opath entry hlocked)⟩
  have hcall : Function.update s.calls thread (some call) thread' = some call' := hcall
  by_cases hsame : thread' = thread
  · subst hsame
    rw [Function.update_self] at hcall
    obtain rfl := Option.some.inj hcall
    exact ⟨by simp [State.acquire], hmay⟩
  · rw [Function.update_of_ne hsame] at hcall
    obtain ⟨hholder, hmay'⟩ := h.calls thread' call' hcall
    exact ⟨holder_acquire hfree hholder, hmay'⟩

theorem locks_finish (h : Locks s) {thread : Thread}
    (hstep : step unixFd s (.finish thread) = some s') : Locks s' := by
  simp only [step] at hstep
  cases hcall : s.calls thread with
  | none => simp [hcall] at hstep
  | some call =>
    simp only [hcall, Option.some.injEq] at hstep
    obtain ⟨hholder, hio, hdispatch, -⟩ := body_rest unixFd s call
    obtain ⟨hheld, hmay⟩ := h.calls thread call hcall
    subst hstep
    have hother : ∀ {mutex other}, other ≠ thread → s.holder mutex = some other →
        ((body unixFd s call).release call.mutex).holder mutex = some other := by
      intro mutex other hne hmutex
      exact holder_release (hholder ▸ hheld) hne (hholder ▸ hmutex)
    have hbusy : ∀ other, s.mayCall other = false → other ≠ thread := by
      rintro other hfalse rfl
      exact absurd (hfalse.symm.trans hmay) (by decide)
    refine ⟨fun thread' call' hcall' => ?_, fun hholds => ?_, fun htimer => ?_,
      fun opath entry hlocked => ?_⟩
    · have hcall' : Function.update s.calls thread none thread' = some call' := hcall'
      have hne : thread' ≠ thread := by
        rintro rfl
        rw [Function.update_self] at hcall'
        cases hcall'
      rw [Function.update_of_ne hne] at hcall'
      obtain ⟨hholder', hmay'⟩ := h.calls thread' call' hcall'
      refine ⟨hother hne hholder', ?_⟩
      cases thread' with
      | io => simpa [State.mayCall, State.release, hio] using hmay'
      | dispatch => simpa [State.mayCall, State.release, hdispatch] using hmay'
      | client n => rfl
    · have hholds : s.io.holdsWatcher = true := hio ▸ hholds
      exact hother (hbusy .io (mayCall_io_of_holdsWatcher hholds)) (h.watcher hholds)
    · have htimer : s.io = .inTimerMutex := hio ▸ htimer
      exact hother (hbusy .io (by simp [State.mayCall, htimer])) (h.timer htimer)
    · have hlocked : s.dispatch = .locked opath entry := hdispatch ▸ hlocked
      exact hother (hbusy .dispatch (by simp [State.mayCall, hlocked])) (h.opaths _ _ hlocked)

theorem locks_step (h : Locks s) {a : Label ω η π} (hstep : step unixFd s a = some s') :
    Locks s' := by
  cases step_cases hstep with
  | lock thread call => exact locks_lock h hstep
  | finish thread => exact locks_finish h hstep
  | io hmove => exact locks_ioStep h hmove
  | dispatch hmove => exact locks_dispatchStep h hmove

theorem locks_of_reachableWhen {allowed : State ω η π → Label ω η π → Prop}
    (h : (system unixFd).ReachableWhen allowed s) : Locks s := by
  apply h.invariant
  case initial =>
    rintro _ rfl
    exact locks_initial
  case preserved => exact fun _ _ _ hlocks _ => locks_step hlocks

end LockSteps

end Ultrabus.Removal
