import Mathlib.Logic.Function.Basic
import Ultrabus.Lib.Transition

/-! # Connecting and disconnecting

`connection::connect`, `is_connected`, `disconnect` and `disconnect_impl`, called by any number
of client threads and by the callbacks that run on the dispatch thread.  Every statement that
changes the connection is a step of its own, and `conn_state_mutex` is taken and given up where
the code does it.  Of `send` and `on_pending_call` the model has what they do to
`pending_messages`, on whatever thread they run.

A descriptor is named by the order in which it was opened, since the kernel gives the numbers
of closed ones out again. -/

namespace Ultrabus.Lifecycle

/-! ## Threads -/

inductive Thread (ι : Type) where
  | client (i : ι)
  | dispatcher
  | io
deriving DecidableEq, Repr

inductive BusType where
  | session
  | system
  | starter
deriving DecidableEq, Repr

/-- The function that a thread calls.  All operations that test `is_connected` first are
    `isConnected` here. -/
inductive Op where
  | connect (type : BusType) (privateConnection : Bool)
  | isConnected
  | disconnect
deriving DecidableEq, Repr

inductive Result where
  | none
  | value (result : Bool)
  | exception
deriving DecidableEq, Repr

/-- In front of which statement `connect` is, once it has found the connection down. -/
inductive SetupPc where
  | atEpollCreate
  | atTimerfdCreate
  | atEpollCtl
  | atBusGet
  | atInstallFilter
  -- `start_io_handler`
  | atStartIo
  | atSetFunctions
  | atStartDispatch
  | atSetConnected
deriving DecidableEq, Repr

/-- In front of which statement `disconnect_impl` is. -/
inductive ImplPc where
  -- `conn_state_mutex` is locked up to here
  | atBegin
  | atTestCtx
  -- `dbus_connection_flush (ctx)`
  | atCloseCtx
  | atClearPending
  | atStopIo
  | atJoinIo
  | atStopDispatch
  | atJoinDispatch
  | atUnrefCtx
  | atClosePollfd
  | atCloseTimerfd
  | atClearMaps
  | atResetFds
  | atFinish
deriving DecidableEq, Repr

inductive Pc where
  | idle (last : Result)
  | atLock (op : Op)
  | locked (op : Op)
  | setup (pc : SetupPc) (type : BusType) (privateConnection : Bool)
  | impl (pc : ImplPc) (op : Op)
  -- `return conn_state == conn_state_connected` after `disconnect_impl`
  | atReturn
deriving DecidableEq, Repr

/-! ## State -/

inductive ConnState where
  | disconnected
  | connecting
  | connected
  | disconnecting
deriving DecidableEq, Repr

/-- A `std::thread` member. -/
inductive Worker where
  | notJoinable
  | running
  | ended
deriving DecidableEq, Repr

def Worker.joinable : Worker → Bool
  | .notJoinable => false
  | _ => true

structure State (ι : Type) where
  pc : Thread ι → Pc
  connStateMutex : Option (Thread ι)
  connState : ConnState
  connType : BusType
  privateConnection : Bool
  -- `ctx != nullptr`
  ctx : Bool
  -- `dbus_connection_get_is_connected (ctx)`
  busUp : Bool
  -- the watch and timeout functions of `ctx` are set
  functionsSet : Bool
  pollfd : Option Nat
  timerfd : Option Nat
  nextFd : Nat
  -- how often a descriptor has been closed
  closes : Nat → Nat
  ioThread : Worker
  dispatchThread : Worker
  stopIoThread : Bool
  stopDispatchThread : Bool
  -- the sizes of the containers
  timers : Nat
  fdMap : Nat
  pendingMessages : Nat
  -- how many calls of `send` are behind `is_connected` and in front of `pending_mutex`
  sending : Nat
  -- `send` holds `pending_mutex` and has handed its message over
  pendingMutex : Bool

inductive Label (ι : Type) where
  | start (t : Thread ι) (op : Op)
  | lock (t : Thread ι)
  | test (t : Thread ι)
  -- the next statement of `connect`, which succeeds or fails
  | setup (t : Thread ι) (success : Bool)
  | impl (t : Thread ι)
  | returnState (t : Thread ι)
  | dropBus
  | endIo
  | endDispatch
  | addWatch
  | removeWatch
  | addTimeout
  | removeTimeout
  -- `is_connected` returns true in a call of `send`
  | enterSend
  -- `dbus_connection_send_with_reply` gives a pending call or does not
  | sendWithReply (success : Bool)
  -- `pending_messages.emplace (pending, reply_cb)`
  | emplace
  -- `on_pending_call`
  | answer
deriving DecidableEq, Repr

variable {ι : Type} [DecidableEq ι]

def State.setPc (s : State ι) (t : Thread ι) (pc : Pc) : State ι :=
  { s with pc := Function.update s.pc t pc }

/-- The thread gives the mutex up and returns. -/
def State.leave (s : State ι) (t : Thread ι) (result : Result) : State ι :=
  { s.setPc t (.idle result) with connStateMutex := none }

/-- Which threads call functions of the library: the I/O thread runs no callbacks of the
    application, and the dispatch thread runs them while it is alive. -/
def State.mayCall (s : State ι) : Thread ι → Bool
  | .client _ => true
  | .dispatcher => s.dispatchThread = .running
  | .io => false

/-! ## Steps -/

/-- The tests of `conn_state` in `connect`, `is_connected` and `disconnect`. -/
def testStep (s : State ι) (t : Thread ι) : Op → State ι
  | .connect type privateConnection =>
    match s.connState with
    | .connecting | .disconnecting => s.leave t (.value false)
    | .connected =>
      s.leave t (.value (type = s.connType && privateConnection = s.privateConnection))
    | .disconnected =>
      { s.setPc t (.setup .atEpollCreate type privateConnection) with connState := .connecting }
  | .isConnected =>
    if s.connState = .connected ∧ s.busUp = false then s.setPc t (.impl .atBegin .isConnected)
    else s.leave t (.value (s.connState = .connected))
  | .disconnect =>
    if s.connState = .connected then s.setPc t (.impl .atBegin .disconnect)
    else s.leave t .none

/-- The statements of `connect` behind the tests, with `start_io_handler`. -/
def setupStep (s : State ι) (t : Thread ι) (type : BusType) (privateConnection : Bool)
    (success : Bool) : SetupPc → State ι :=
  let next (s : State ι) (pc : SetupPc) := s.setPc t (.setup pc type privateConnection)
  let fail (s : State ι) := s.setPc t (.impl .atBegin (.connect type privateConnection))
  fun
  | .atEpollCreate =>
    if success then
      next { s with pollfd := some s.nextFd, nextFd := s.nextFd + 1 } .atTimerfdCreate
    else { s with pollfd := none, connState := .disconnected }.leave t (.value false)
  | .atTimerfdCreate =>
    if success then
      next { s with timerfd := some s.nextFd, nextFd := s.nextFd + 1 } .atEpollCtl
    else fail { s with timerfd := none }
  | .atEpollCtl => if success then next s .atBusGet else fail s
  | .atBusGet =>
    let s := { s with
      connType := type, privateConnection := privateConnection, ctx := success, busUp := success }
    if success then next s .atInstallFilter else fail s
  | .atInstallFilter => if success then next s .atStartIo else fail s
  | .atStartIo =>
    -- The constructor of `std::thread` throws, and nothing catches it.
    if success then next { s with stopIoThread := false, ioThread := .running } .atSetFunctions
    else { s with stopIoThread := false }.leave t .exception
  | .atSetFunctions => next { s with functionsSet := success } .atStartDispatch
  | .atStartDispatch =>
    if success then
      next { s with stopDispatchThread := false, dispatchThread := .running } .atSetConnected
    else { s with stopDispatchThread := false }.leave t .exception
  | .atSetConnected => { s with connState := .connected }.leave t (.value true)

/-- `if (fd != invalid_file_desc) close (fd);`. -/
def State.close (s : State ι) (held : Option Nat) : State ι :=
  { s with closes := match held with
      | none => s.closes
      | some fd => Function.update s.closes fd (s.closes fd + 1) }

/-- The thread is about to join the `std::thread` that it runs on. -/
def State.joinsItself (s : State ι) (t : Thread ι) : ImplPc → Bool
  | .atJoinIo => t = .io && s.ioThread.joinable
  | .atJoinDispatch => t = .dispatcher && s.dispatchThread.joinable
  | _ => false

/-- The statements of `disconnect_impl`, where the thread does not join itself. -/
def implStep (s : State ι) (t : Thread ι) (op : Op) : ImplPc → Option (State ι) :=
  let next (s : State ι) (pc : ImplPc) := s.setPc t (.impl pc op)
  fun
  | .atBegin =>
    -- `remove_filter_handler` comes first, if the connection was up.
    some (next { s with connState := .disconnecting, connStateMutex := none } .atTestCtx)
  | .atTestCtx =>
    -- The pending calls are cancelled under `pending_mutex`.
    if s.ctx && s.busUp && s.pendingMutex then none else some (next s .atCloseCtx)
  | .atCloseCtx =>
    if s.ctx then
      some (next { s with busUp := s.busUp && !s.privateConnection, functionsSet := false }
        .atClearPending)
    else some (next s .atClearPending)
  | .atClearPending => some (next { s with pendingMessages := 0 } .atStopIo)
  | .atStopIo => some (next { s with stopIoThread := true } .atJoinIo)
  | .atJoinIo =>
    match s.ioThread with
    | .notJoinable => some (next s .atStopDispatch)
    | .running => none
    | .ended => some (next { s with ioThread := .notJoinable } .atStopDispatch)
  | .atStopDispatch => some (next { s with stopDispatchThread := true } .atJoinDispatch)
  | .atJoinDispatch =>
    match s.dispatchThread with
    | .notJoinable => some (next s .atUnrefCtx)
    | .running => none
    | .ended => some (next { s with dispatchThread := .notJoinable } .atUnrefCtx)
  | .atUnrefCtx => some (next { s with ctx := false } .atClosePollfd)
  | .atClosePollfd => some (next (s.close s.pollfd) .atCloseTimerfd)
  | .atCloseTimerfd => some (next (s.close s.timerfd) .atClearMaps)
  | .atClearMaps => some (next { s with timers := 0, fdMap := 0 } .atResetFds)
  | .atResetFds =>
    some (next
      { s with timerfd := none, pollfd := none, connType := .session, privateConnection := false }
      .atFinish)
  | .atFinish =>
    let s := { s with connState := .disconnected }
    some (s.setPc t (match op with
      | .connect _ _ => .idle (.value false)
      | .isConnected => .atReturn
      | .disconnect => .idle .none))

def step (s : State ι) : Label ι → Option (State ι)
  | .start t op =>
    match s.pc t with
    | .idle _ => if s.mayCall t then some (s.setPc t (.atLock op)) else none
    | _ => none
  | .lock t =>
    match s.pc t with
    | .atLock op =>
      if s.connStateMutex = none then
        some { s.setPc t (.locked op) with connStateMutex := some t }
      else none
    | _ => none
  | .test t =>
    match s.pc t with
    | .locked op => some (testStep s t op)
    | _ => none
  | .setup t success =>
    match s.pc t with
    | .setup pc type privateConnection =>
      some (setupStep s t type privateConnection success pc)
    | _ => none
  | .impl t =>
    match s.pc t with
    | .impl pc op =>
      -- `std::thread::join` throws, and `conn_state` stays as it is.
      if s.joinsItself t pc then some (s.setPc t (.idle .exception)) else implStep s t op pc
    | _ => none
  | .returnState t =>
    match s.pc t with
    | .atReturn => some (s.setPc t (.idle (.value (s.connState = .connected))))
    | _ => none
  | .dropBus => some { s with busUp := false }
  | .endIo =>
    if s.ioThread = .running ∧ s.stopIoThread = true then some { s with ioThread := .ended }
    else none
  | .endDispatch =>
    match s.pc .dispatcher with
    | .idle _ =>
      if s.dispatchThread = .running ∧ s.stopDispatchThread = true then
        some { s with dispatchThread := .ended }
      else none
    | _ => none
  | .addWatch => if s.functionsSet then some { s with fdMap := s.fdMap + 1 } else none
  | .removeWatch => if s.functionsSet then some { s with fdMap := s.fdMap - 1 } else none
  | .addTimeout => if s.functionsSet then some { s with timers := s.timers + 1 } else none
  | .removeTimeout => if s.functionsSet then some { s with timers := s.timers - 1 } else none
  | .enterSend =>
    -- `is_connected` may read `conn_state` behind `disconnect_impl`, without the mutex.
    if s.connState = .connected then some { s with sending := s.sending + 1 } else none
  | .sendWithReply success =>
    -- Without a bus connection there is no pending call.
    if 0 < s.sending ∧ s.pendingMutex = false ∧
        (success = true → s.ctx = true ∧ s.busUp = true) then
      some { s with sending := s.sending - 1, pendingMutex := success }
    else none
  | .emplace =>
    if s.pendingMutex then
      some { s with pendingMessages := s.pendingMessages + 1, pendingMutex := false }
    else none
  | .answer =>
    if s.dispatchThread = .running ∧ s.pendingMutex = false then
      some { s with pendingMessages := s.pendingMessages - 1 }
    else none

/-- A connection that has just been constructed. -/
def initial : State ι where
  pc _ := .idle .none
  connStateMutex := none
  connState := .disconnected
  connType := .session
  privateConnection := false
  ctx := false
  busUp := false
  functionsSet := false
  pollfd := none
  timerfd := none
  nextFd := 0
  closes _ := 0
  ioThread := .notJoinable
  dispatchThread := .notJoinable
  stopIoThread := true
  stopDispatchThread := true
  timers := 0
  fdMap := 0
  pendingMessages := 0
  sending := 0
  pendingMutex := false

def system (ι : Type) [DecidableEq ι] : TransitionSystem (State ι) (Label ι) where
  init s := s = initial
  step := step

end Ultrabus.Lifecycle
