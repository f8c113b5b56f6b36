import Ultrabus.Connection.Lifecycle

/-! # The stages of a connection

What the connection looks like in each stage of its life: down, up, while `connect` sets it
up, while `disconnect_impl` takes it down, and after `connect` or `disconnect_impl` was left by
an exception.  At most one thread works on it, and that thread's position is the stage. -/

namespace Ultrabus.Lifecycle

inductive Stage where
  | down
  | up
  -- `connect` has been left by an exception
  | stuck
  -- `disconnect_impl` has been left by the exception of a `join`
  | abandoned
  | setup (pc : SetupPc)
  -- a thread in `disconnect` or `is_connected` begins with `disconnect_impl`
  | closing
  | impl (pc : ImplPc)
deriving DecidableEq, Repr

/-- The stage that a thread at this position is responsible for. -/
def Pc.stage : Pc → Option Stage
  | .setup pc _ _ => some (.setup pc)
  | .impl .atBegin (.connect _ _) => some (.impl .atBegin)
  | .impl .atBegin _ => some .closing
  | .impl pc _ => some (.impl pc)
  | _ => none

theorem stage_impl (pc : ImplPc) (op : Op) : ∃ stage, (Pc.impl pc op).stage = some stage := by
  cases pc <;> cases op <;> exact ⟨_, rfl⟩

/-! ## What is known of the members in each stage

`none` is: it may be either way, as it depends on how far `connect` has come. -/

def Stage.connState : Stage → ConnState
  | .down => .disconnected
  | .up | .closing => .connected
  | .stuck | .setup _ | .impl .atBegin => .connecting
  | .abandoned | .impl _ => .disconnecting

def Stage.pollfd : Stage → Option Bool
  | .down | .setup .atEpollCreate | .impl .atFinish => some false
  | .up | .closing | .setup _ => some true
  | .stuck | .abandoned | .impl _ => none

def Stage.timerfd : Stage → Option Bool
  | .down | .setup .atEpollCreate | .setup .atTimerfdCreate | .impl .atFinish => some false
  | .up | .closing | .setup _ => some true
  | .stuck | .abandoned | .impl _ => none

def Stage.ctx : Stage → Option Bool
  | .down | .setup .atEpollCreate | .setup .atTimerfdCreate | .setup .atEpollCtl
  | .setup .atBusGet => some false
  | .up | .closing | .setup _ => some true
  | .impl .atClosePollfd | .impl .atCloseTimerfd | .impl .atClearMaps | .impl .atResetFds
  | .impl .atFinish => some false
  | .stuck | .abandoned | .impl _ => none

def Stage.ioThread : Stage → Option Bool
  | .up | .closing | .setup .atSetFunctions | .setup .atStartDispatch
  | .setup .atSetConnected => some true
  | .down | .setup _ => some false
  | .stuck | .abandoned | .impl .atBegin | .impl .atTestCtx | .impl .atCloseCtx
  | .impl .atClearPending | .impl .atStopIo | .impl .atJoinIo => none
  | .impl _ => some false

def Stage.dispatchThread : Stage → Option Bool
  | .up | .closing | .setup .atSetConnected => some true
  | .down | .stuck | .setup _ => some false
  | .abandoned | .impl .atBegin | .impl .atTestCtx | .impl .atCloseCtx | .impl .atClearPending
  | .impl .atStopIo | .impl .atJoinIo | .impl .atStopDispatch | .impl .atJoinDispatch => none
  | .impl _ => some false

/-- The watch and timeout functions may be set. -/
def Stage.functionsSet : Stage → Bool
  | .up | .closing | .stuck | .setup .atStartDispatch | .setup .atSetConnected
  | .impl .atBegin | .impl .atTestCtx | .impl .atCloseCtx => true
  | _ => false

/-- There may be entries in `timers` and `fd_map`. -/
def Stage.maps : Stage → Bool
  | .impl .atResetFds | .impl .atFinish => false
  | .abandoned | .impl _ => true
  | stage => stage.functionsSet

/-- Entries in `pending_messages` are cleared before the connection is down. -/
def Stage.pendingMessages : Stage → Bool
  | .setup .atEpollCreate => false
  | .up | .closing | .setup _ | .impl .atBegin | .impl .atTestCtx | .impl .atCloseCtx
  | .impl .atClearPending => true
  | _ => false

/-- The descriptor in `pollfd` has been closed. -/
def Stage.pollfdClosed : Stage → Bool
  | .impl .atCloseTimerfd | .impl .atClearMaps | .impl .atResetFds => true
  | _ => false

def Stage.timerfdClosed : Stage → Bool
  | .impl .atClearMaps | .impl .atResetFds => true
  | _ => false

variable {ι : Type}

/-- A descriptor that has been opened is closed once or still held, and not both. -/
def FdsBalanced (s : State ι) (pollfdClosed timerfdClosed : Bool) : Prop :=
  ∀ fd, s.closes fd + (decide (s.pollfd = some fd) && !pollfdClosed).toNat +
    (decide (s.timerfd = some fd) && !timerfdClosed).toNat = (decide (fd < s.nextFd)).toNat

/-- The members of the connection are as the stage says. -/
structure AtStage (s : State ι) (stage : Stage) : Prop where
  connState : s.connState = stage.connState
  pollfd : ∀ isOpen ∈ stage.pollfd, s.pollfd.isSome = isOpen
  timerfd : ∀ isOpen ∈ stage.timerfd, s.timerfd.isSome = isOpen
  ctx : ∀ isSet ∈ stage.ctx, s.ctx = isSet
  ioThread : ∀ joinable ∈ stage.ioThread, s.ioThread.joinable = joinable
  dispatchThread : ∀ joinable ∈ stage.dispatchThread, s.dispatchThread.joinable = joinable
  functionsSet : s.functionsSet = true → stage.functionsSet = true ∧ s.ctx = true
  maps : stage.maps = true ∨ (s.timers = 0 ∧ s.fdMap = 0)
  fds : FdsBalanced s stage.pollfdClosed stage.timerfdClosed

/-! ## From stage to stage -/

/-- The stage after the next statement of `connect`. -/
def SetupPc.next : SetupPc → Bool → Stage
  | .atEpollCreate, true => .setup .atTimerfdCreate
  | .atEpollCreate, false => .down
  | .atTimerfdCreate, true => .setup .atEpollCtl
  | .atEpollCtl, true => .setup .atBusGet
  | .atBusGet, true => .setup .atInstallFilter
  | .atInstallFilter, true => .setup .atStartIo
  | .atStartIo, true => .setup .atSetFunctions
  | .atSetFunctions, _ => .setup .atStartDispatch
  | .atStartDispatch, true => .setup .atSetConnected
  | .atStartIo, false | .atStartDispatch, false => .stuck
  | .atSetConnected, _ => .up
  | _, false => .impl .atBegin

/-- The stage after the next statement of `disconnect_impl`. -/
def ImplPc.next : ImplPc → Stage
  | .atBegin => .impl .atTestCtx
  | .atTestCtx => .impl .atCloseCtx
  | .atCloseCtx => .impl .atClearPending
  | .atClearPending => .impl .atStopIo
  | .atStopIo => .impl .atJoinIo
  | .atJoinIo => .impl .atStopDispatch
  | .atStopDispatch => .impl .atJoinDispatch
  | .atJoinDispatch => .impl .atUnrefCtx
  | .atUnrefCtx => .impl .atClosePollfd
  | .atClosePollfd => .impl .atCloseTimerfd
  | .atCloseTimerfd => .impl .atClearMaps
  | .atClearMaps => .impl .atResetFds
  | .atResetFds => .impl .atFinish
  | .atFinish => .down

variable [DecidableEq ι]

/-! ## Descriptors -/

theorem toNat_lt_succ (fd n : Nat) :
    (decide (fd < n + 1)).toNat = (decide (n = fd)).toNat + (decide (fd < n)).toNat := by
  obtain hlt | rfl | hgt := Nat.lt_trichotomy fd n
  · have hnext : fd < n + 1 := by omega
    have hne : n ≠ fd := by omega
    simp only [hnext, hne, hlt, decide_true, decide_false]
    rfl
  · have hnext : fd < fd + 1 := by omega
    have hself : ¬ fd < fd := by omega
    simp only [hnext, hself, decide_true, decide_false]
    rfl
  · have hnext : ¬ fd < n + 1 := by omega
    have hne : n ≠ fd := by omega
    have hnot : ¬ fd < n := by omega
    simp only [hnext, hne, hnot, decide_false]
    rfl

omit [DecidableEq ι] in
theorem FdsBalanced.of_eq {s s' : State ι} {pollfdClosed timerfdClosed : Bool}
    (h : FdsBalanced s pollfdClosed timerfdClosed) (hpollfd : s'.pollfd = s.pollfd)
    (htimerfd : s'.timerfd = s.timerfd) (hnextFd : s'.nextFd = s.nextFd)
    (hcloses : s'.closes = s.closes) : FdsBalanced s' pollfdClosed timerfdClosed := by
  intro fd
  rw [hpollfd, htimerfd, hnextFd, hcloses]
  exact h fd

omit [DecidableEq ι] in
theorem FdsBalanced.openPollfd {s : State ι} (h : FdsBalanced s false false)
    (hnone : s.pollfd = none) :
    FdsBalanced { s with pollfd := some s.nextFd, nextFd := s.nextFd + 1 } false false := by
  intro fd
  have hfd := h fd
  simp [hnone] at hfd
  simp only [Bool.not_false, Bool.and_true, Option.some.injEq, toNat_lt_succ]
  omega

omit [DecidableEq ι] in
theorem FdsBalanced.openTimerfd {s : State ι} (h : FdsBalanced s false false)
    (hnone : s.timerfd = none) :
    FdsBalanced { s with timerfd := some s.nextFd, nextFd := s.nextFd + 1 } false false := by
  intro fd
  have hfd := h fd
  simp [hnone] at hfd
  simp only [Bool.not_false, Bool.and_true, Option.some.injEq, toNat_lt_succ]
  omega

omit [DecidableEq ι] in
/-- Closing the descriptor that is held adds it to those that have been closed. -/
theorem closes_close (s : State ι) (held : Option Nat) (fd : Nat) :
    (s.close held).closes fd = s.closes fd + (decide (held = some fd)).toNat := by
  cases held with
  | none => rfl
  | some held =>
    simp only [State.close, Function.update_apply, Option.some.injEq]
    split
    case isTrue heq => simp [heq]
    case isFalse hne => simp [Ne.symm hne]

omit [DecidableEq ι] in
theorem FdsBalanced.closePollfd {s : State ι} (h : FdsBalanced s false false) :
    FdsBalanced (s.close s.pollfd) true false := by
  intro fd
  rw [closes_close]
  show _ + _ + _ + (decide (s.timerfd = some fd) && _).toNat = (decide (fd < s.nextFd)).toNat
  simpa using h fd

omit [DecidableEq ι] in
theorem FdsBalanced.closeTimerfd {s : State ι} (h : FdsBalanced s true false) :
    FdsBalanced (s.close s.timerfd) true true := by
  intro fd
  rw [closes_close]
  show _ + _ + (decide (s.pollfd = some fd) && _).toNat + _ = (decide (fd < s.nextFd)).toNat
  simpa using h fd

omit [DecidableEq ι] in
theorem FdsBalanced.reset {s : State ι} (h : FdsBalanced s true true) :
    FdsBalanced { s with timerfd := none, pollfd := none } false false := by
  intro fd
  simpa using h fd

/-! ## The statements of `connect` -/

theorem known {x isSet : Bool} (h : x = isSet) : ∀ b ∈ some isSet, x = b :=
  fun _ hb => h.trans (Option.some.inj hb)

omit [DecidableEq ι] in
theorem AtStage.pollfd_eq_none {s : State ι} {stage : Stage} (h : AtStage s stage)
    (hclosed : stage.pollfd = some false) : s.pollfd = none := by
  simpa using h.pollfd false hclosed

omit [DecidableEq ι] in
theorem AtStage.timerfd_eq_none {s : State ι} {stage : Stage} (h : AtStage s stage)
    (hclosed : stage.timerfd = some false) : s.timerfd = none := by
  simpa using h.timerfd false hclosed

omit [DecidableEq ι] in
/-- `disconnect_impl` does not rely on how far `connect` has come. -/
theorem AtStage.fail {s : State ι} {pc : SetupPc} (h : AtStage s (.setup pc)) :
    AtStage s (.impl .atBegin) where
  connState := h.connState
  pollfd := nofun
  timerfd := nofun
  ctx := nofun
  ioThread := nofun
  dispatchThread := nofun
  functionsSet hset := ⟨rfl, (h.functionsSet hset).2⟩
  maps := .inl rfl
  fds := h.fds

theorem atStage_setupStep {s : State ι} {t : Thread ι} {pc : SetupPc} {type : BusType}
    {privateConnection success : Bool} (h : AtStage s (.setup pc)) :
    AtStage (setupStep s t type privateConnection success pc) (pc.next success) := by
  cases pc with
  | atEpollCreate =>
    have hnone := h.pollfd_eq_none rfl
    cases success with
    | true => exact { h with pollfd := known rfl, fds := h.fds.openPollfd hnone }
    | false =>
      exact { h with
        connState := rfl
        pollfd := known rfl
        fds := h.fds.of_eq hnone.symm rfl rfl rfl }
  | atTimerfdCreate =>
    have hnone := h.timerfd_eq_none rfl
    cases success with
    | true => exact { h with timerfd := known rfl, fds := h.fds.openTimerfd hnone }
    | false =>
      exact { h.fail with timerfd := nofun, fds := h.fds.of_eq rfl hnone.symm rfl rfl }
  | atEpollCtl =>
    cases success with
    | true => exact { h with }
    | false => exact { h.fail with }
  | atBusGet =>
    have hunset : s.functionsSet ≠ true := fun hset => nomatch (h.functionsSet hset).1
    cases success with
    | true => exact { h with ctx := known rfl, functionsSet := fun hset => absurd hset hunset }
    | false => exact { h.fail with ctx := nofun, functionsSet := fun hset => absurd hset hunset }
  | atInstallFilter =>
    cases success with
    | true => exact { h with }
    | false => exact { h.fail with }
  | atStartIo =>
    cases success with
    | true => exact { h with ioThread := known rfl }
    | false =>
      exact { h with
        pollfd := nofun
        timerfd := nofun
        ctx := nofun
        ioThread := nofun
        functionsSet := fun hset => ⟨rfl, (h.functionsSet hset).2⟩
        maps := .inl rfl }
  | atSetFunctions =>
    exact { h with functionsSet := fun _ => ⟨rfl, h.ctx true rfl⟩, maps := .inl rfl }
  | atStartDispatch =>
    cases success with
    | true => exact { h with dispatchThread := known rfl }
    | false => exact { h with pollfd := nofun, timerfd := nofun, ctx := nofun, ioThread := nofun }
  | atSetConnected =>
    exact { h with connState := rfl }

/-! ## The statements of `disconnect_impl` -/

/-- `disconnect_impl` begins when the connection is up or when `connect` has failed. -/
theorem atStage_begin {s s' : State ι} {t : Thread ι} {op : Op} {stage : Stage}
    (h : AtStage s stage) (hstage : (Pc.impl .atBegin op).stage = some stage)
    (hstep : implStep s t op .atBegin = some s') : AtStage s' (.impl .atTestCtx) := by
  cases hstep
  cases op with
  | connect type privateConnection =>
    cases hstage
    exact { h with connState := rfl }
  | isConnected | disconnect =>
    cases hstage
    exact { h with
      connState := rfl
      pollfd := nofun
      timerfd := nofun
      ctx := nofun
      ioThread := nofun
      dispatchThread := nofun }

theorem atStage_implStep {s s' : State ι} {t : Thread ι} {op : Op} {pc : ImplPc} {stage : Stage}
    (h : AtStage s stage) (hstage : (Pc.impl pc op).stage = some stage)
    (hstep : implStep s t op pc = some s') : AtStage s' pc.next := by
  by_cases hbegin : pc = .atBegin
  · subst hbegin
    exact atStage_begin h hstage hstep
  obtain rfl : Stage.impl pc = stage := by
    cases pc <;> first | exact Option.some.inj hstage | exact absurd rfl hbegin
  cases pc with
  | atBegin => exact absurd rfl hbegin
  | atTestCtx =>
    simp only [implStep] at hstep
    split at hstep <;> cases hstep
    exact { h with }
  | atCloseCtx =>
    simp only [implStep] at hstep
    split at hstep
    case isTrue =>
      cases hstep
      exact { h with functionsSet := nofun }
    case isFalse hctx =>
      cases hstep
      exact { h with functionsSet := fun hset => absurd (h.functionsSet hset).2 hctx }
  | atClearPending =>
    cases hstep
    exact { h with }
  | atStopIo =>
    cases hstep
    exact { h with }
  | atJoinIo =>
    simp only [implStep] at hstep
    split at hstep <;> cases hstep
    case h_1 hjoinable => exact { h with ioThread := known (congrArg Worker.joinable hjoinable) }
    case h_3 => exact { h with ioThread := known rfl }
  | atStopDispatch =>
    cases hstep
    exact { h with }
  | atJoinDispatch =>
    simp only [implStep] at hstep
    split at hstep <;> cases hstep
    case h_1 hjoinable =>
      exact { h with dispatchThread := known (congrArg Worker.joinable hjoinable) }
    case h_3 => exact { h with dispatchThread := known rfl }
  | atUnrefCtx =>
    cases hstep
    exact { h with ctx := known rfl, functionsSet := fun hset => nomatch (h.functionsSet hset).1 }
  | atClosePollfd =>
    cases hstep
    exact { h with fds := h.fds.closePollfd }
  | atCloseTimerfd =>
    cases hstep
    exact { h with fds := h.fds.closeTimerfd }
  | atClearMaps =>
    cases hstep
    exact { h with maps := .inr ⟨rfl, rfl⟩ }
  | atResetFds =>
    cases hstep
    exact { h with pollfd := known rfl, timerfd := known rfl, fds := h.fds.reset }
  | atFinish =>
    cases hstep
    exact { h with connState := rfl }

/-! ## The thread that works on the connection -/

/-- What a thread has to be at for the connection to be in this stage. -/
def Stage.worked : Stage → Option Stage
  | .down | .up | .stuck | .abandoned => none
  | stage => some stage

theorem eq_of_worked {stage stage' : Stage} (h : stage.worked = some stage') : stage = stage' := by
  cases stage <;> cases h <;> rfl

def Pc.holdsMutex : Pc → Bool
  | .locked _ | .setup _ _ _ | .impl .atBegin _ => true
  | _ => false

/-- Only `t` may be working on the connection, and if so it is where the stage says. -/
structure Owner (s : State ι) (stage : Stage) (t : Thread ι) : Prop where
  own : (s.pc t).stage = stage.worked
  others : ∀ t' ≠ t, (s.pc t').stage = none

def Pc.isIdle : Pc → Bool
  | .idle _ => true
  | _ => false

/-- The constructors of `std::thread` do not throw. -/
def ThreadsStart (s : State ι) : Label ι → Prop
  | .setup t success => ∀ type privateConnection,
    s.pc t = .setup .atStartIo type privateConnection ∨
      s.pc t = .setup .atStartDispatch type privateConnection → success = true
  | _ => True

/-- The thread is in front of the statement that clears `pending_messages`, or goes on to it
    before the connection is down. -/
def Pc.beforeClear : Pc → Bool
  | .setup .atEpollCreate _ _ => false
  | .setup _ _ _ => true
  | .impl .atBegin _ | .impl .atTestCtx _ | .impl .atCloseCtx _ | .impl .atClearPending _ => true
  | _ => false

/-- An entry is put into `pending_messages` only where it is cleared before the connection is
    down. -/
def NoLateEntry (s : State ι) : Label ι → Prop
  | .emplace => s.connState = .connected ∨ ∃ t, (s.pc t).beforeClear = true
  | _ => True

/-- No operation has been left by an exception, and no entry stays in `pending_messages`. -/
structure InOrder (s : State ι) (stage : Stage) : Prop where
  started : stage ≠ .stuck
  joined : stage ≠ .abandoned
  entries : stage.pendingMessages = true ∨ s.pendingMessages = 0

/-- The connection is in some stage, and in order unless the run is `lax`. -/
def InStage (lax : Prop) (s : State ι) : Prop :=
  ∃ stage t, AtStage s stage ∧ Owner s stage t ∧ (lax ∨ InOrder s stage)

/-- The step keeps the connection in order. -/
structure KeepsOrder (s : State ι) (a : Label ι) : Prop where
  threadsStart : ThreadsStart s a
  dispatcher : (s.pc .dispatcher).stage = none
  noLateEntry : NoLateEntry s a

/-- The invariant of every run. -/
structure Inv (lax : Prop) (s : State ι) : Prop where
  mutex : ∀ t, (s.pc t).holdsMutex = true → s.connStateMutex = some t
  stage : InStage lax s
  dispatcher : (s.pc .dispatcher).isIdle = false → s.dispatchThread = .running
  io : (s.pc .io).isIdle = true

omit [DecidableEq ι] in
theorem Owner.eq_of_stage {s : State ι} {stage stage' : Stage} {t t' : Thread ι}
    (h : Owner s stage t) (ht' : (s.pc t').stage = some stage') : t' = t ∧ stage = stage' := by
  by_cases heq : t' = t
  · subst heq
    exact ⟨rfl, eq_of_worked (h.own.symm.trans ht')⟩
  · simp [h.others t' heq] at ht'

/-- A thread goes on that does not work on the connection. -/
theorem Owner.update_idle {s s' : State ι} {stage : Stage} {t t' : Thread ι} {p : Pc}
    (h : Owner s stage t) (hpc : s'.pc = Function.update s.pc t' p)
    (hfrom : (s.pc t').stage = none) (hto : p.stage = none) : Owner s' stage t := by
  have hsame : ∀ t, (s'.pc t).stage = (s.pc t).stage := by
    intro t
    rw [hpc, Function.update_apply]
    split
    case isTrue heq => rw [hto, heq, hfrom]
    case isFalse => rfl
  exact ⟨(hsame t).trans h.own, fun t'' hne => (hsame t'').trans (h.others t'' hne)⟩

/-- The thread that works on the connection goes to the next stage. -/
theorem Owner.update_own {s s' : State ι} {stage stage' : Stage} {t : Thread ι} {p : Pc}
    (h : Owner s stage t) (hpc : s'.pc = Function.update s.pc t p) (hto : p.stage = stage'.worked) :
    Owner s' stage' t := by
  refine ⟨?_, fun t' hne => ?_⟩
  · rw [hpc, Function.update_self, hto]
  · rw [hpc, Function.update_of_ne hne]
    exact h.others t' hne

theorem setupStep_pc (s : State ι) (t : Thread ι) (type : BusType)
    (privateConnection success : Bool) (pc : SetupPc) :
    ∃ p, (setupStep s t type privateConnection success pc).pc = Function.update s.pc t p ∧
      p.stage = (pc.next success).worked ∧ (p.holdsMutex = true →
        (setupStep s t type privateConnection success pc).connStateMutex = s.connStateMutex) := by
  cases pc <;> cases success <;>
    first
    | exact ⟨_, rfl, rfl, fun _ => rfl⟩
    | exact ⟨_, rfl, rfl, nofun⟩

theorem implStep_pc {s s' : State ι} {t : Thread ι} {op : Op} {pc : ImplPc}
    (hstep : implStep s t op pc = some s') :
    ∃ p, s'.pc = Function.update s.pc t p ∧ p.stage = pc.next.worked ∧ p.holdsMutex = false ∧
      (pc ≠ .atBegin → s'.connStateMutex = s.connStateMutex) := by
  cases pc with
  | atBegin =>
    cases hstep
    exact ⟨_, rfl, rfl, rfl, fun hat => absurd rfl hat⟩
  | atTestCtx | atCloseCtx | atJoinIo | atJoinDispatch =>
    simp only [implStep] at hstep
    split at hstep <;> cases hstep <;> exact ⟨_, rfl, rfl, rfl, fun _ => rfl⟩
  | atFinish =>
    cases hstep
    cases op <;> exact ⟨_, rfl, rfl, rfl, fun _ => rfl⟩
  | _ =>
    cases hstep
    exact ⟨_, rfl, rfl, rfl, fun _ => rfl⟩

theorem testStep_cases (s : State ι) (t : Thread ι) (op : Op) :
    (∃ result, testStep s t op = s.leave t result) ∨
      (∃ type privateConnection, s.connState = .disconnected ∧
        testStep s t op = { s.setPc t (.setup .atEpollCreate type privateConnection) with
          connState := .connecting }) ∨
      (s.connState = .connected ∧ (op = .disconnect ∨ (op = .isConnected ∧ s.busUp = false)) ∧
        testStep s t op = s.setPc t (.impl .atBegin op)) := by
  cases op with
  | connect type privateConnection =>
    cases hconn : s.connState with
    | disconnected =>
      exact .inr (.inl ⟨type, privateConnection, rfl, by simp only [testStep, hconn]⟩)
    | _ => exact .inl ⟨_, by simp only [testStep, hconn]; rfl⟩
  | isConnected =>
    by_cases hdropped : s.connState = .connected ∧ s.busUp = false
    · exact .inr (.inr ⟨hdropped.1, .inr ⟨rfl, hdropped.2⟩, if_pos hdropped⟩)
    · exact .inl ⟨_, if_neg hdropped⟩
  | disconnect =>
    by_cases hconn : s.connState = .connected
    · exact .inr (.inr ⟨hconn, .inl rfl, if_pos hconn⟩)
    · exact .inl ⟨_, if_neg hconn⟩

/-! ## Every step -/

omit [DecidableEq ι] in
theorem AtStage.eq_down {s : State ι} {stage : Stage} (h : AtStage s stage)
    (hconn : s.connState = .disconnected) : stage = .down := by
  have hat := h.connState
  rw [hconn] at hat
  cases stage with
  | impl pc => cases pc <;> cases hat
  | down => rfl
  | _ => cases hat

omit [DecidableEq ι] in
theorem AtStage.eq_up {s : State ι} {stage : Stage} (h : AtStage s stage)
    (hconn : s.connState = .connected) : stage = .up ∨ stage = .closing := by
  have hat := h.connState
  rw [hconn] at hat
  cases stage with
  | impl pc => cases pc <;> cases hat
  | up => exact .inl rfl
  | closing => exact .inr rfl
  | _ => cases hat

omit [DecidableEq ι] in
theorem AtStage.maps_of_functionsSet {s : State ι} {stage : Stage} (h : AtStage s stage)
    (hset : s.functionsSet = true) : stage.maps = true := by
  have hmay := (h.functionsSet hset).1
  cases stage with
  | setup pc => cases pc <;> first | rfl | cases hmay
  | impl pc => cases pc <;> first | rfl | cases hmay
  | _ => first | rfl | cases hmay

omit [DecidableEq ι] in
/-- Where an entry is not late, it is cleared before the connection is down. -/
theorem pendingMessages_of_noLateEntry {s : State ι} {stage : Stage} {t : Thread ι}
    (hat : AtStage s stage) (howner : Owner s stage t) (h : NoLateEntry s .emplace) :
    stage.pendingMessages = true := by
  obtain hconn | ⟨t', hbefore⟩ := h
  · obtain rfl | rfl := hat.eq_up hconn <;> rfl
  · cases hpc : s.pc t' with
    | setup pc type privateConnection =>
      obtain ⟨-, rfl⟩ := howner.eq_of_stage ((congrArg Pc.stage hpc).trans rfl)
      rw [hpc] at hbefore
      cases pc <;> first | rfl | cases hbefore
    | impl pc op =>
      obtain ⟨stage', hstage'⟩ := stage_impl pc op
      obtain ⟨-, rfl⟩ := howner.eq_of_stage ((congrArg Pc.stage hpc).trans hstage')
      rw [hpc] at hbefore
      cases pc with
      | atBegin => cases op <;> cases hstage' <;> rfl
      | atTestCtx | atCloseCtx | atClearPending => cases hstage'; rfl
      | _ => cases hbefore
    | _ =>
      rw [hpc] at hbefore
      cases hbefore

/-- The steps of the I/O thread, of the dispatch thread and of libdbus: no thread that calls
    the library moves, and the connection stays in its stage. -/
structure Environment (s s' : State ι) : Prop where
  pc : s'.pc = s.pc
  mutex : s'.connStateMutex = s.connStateMutex
  stage : ∀ stage, AtStage s stage → AtStage s' stage
  dispatchThread : s'.dispatchThread = s.dispatchThread ∨ (s.pc .dispatcher).isIdle = true

/-- What the steps do. -/
inductive Moves (s : State ι) : Label ι → State ι → Prop where
  | start (t : Thread ι) (op : Op) (last : Result) (hpc : s.pc t = .idle last)
      (hmay : s.mayCall t = true) : Moves s (.start t op) (s.setPc t (.atLock op))
  | lock (t : Thread ι) (op : Op) (hpc : s.pc t = .atLock op) (hfree : s.connStateMutex = none) :
      Moves s (.lock t) { s.setPc t (.locked op) with connStateMutex := some t }
  | test (t : Thread ι) (op : Op) (hpc : s.pc t = .locked op) :
      Moves s (.test t) (testStep s t op)
  | setup (t : Thread ι) (pc : SetupPc) (type : BusType) (privateConnection success : Bool)
      (hpc : s.pc t = .setup pc type privateConnection) :
      Moves s (.setup t success) (setupStep s t type privateConnection success pc)
  | impl (t : Thread ι) (pc : ImplPc) (op : Op) (s' : State ι) (hpc : s.pc t = .impl pc op)
      (himpl : implStep s t op pc = some s') : Moves s (.impl t) s'
  | joinSelf (t : Thread ι) (pc : ImplPc) (op : Op) (hpc : s.pc t = .impl pc op)
      (hself : s.joinsItself t pc = true) : Moves s (.impl t) (s.setPc t (.idle .exception))
  | returnState (t : Thread ι) (hpc : s.pc t = .atReturn) (result : Result) :
      Moves s (.returnState t) (s.setPc t (.idle result))
  | environment (a : Label ι) (s' : State ι) (h : Environment s s')
      (hentries : a = .emplace ∨ s'.pendingMessages ≤ s.pendingMessages) : Moves s a s'

theorem moves_of_step {s s' : State ι} {a : Label ι} (hstep : step s a = some s') :
    Moves s a s' := by
  cases a with
  | start t op =>
    simp only [step] at hstep
    split at hstep
    case h_1 last hpc =>
      simp only [Option.ite_none_right_eq_some, Option.some.injEq] at hstep
      obtain ⟨hmay, rfl⟩ := hstep
      exact .start t op last hpc hmay
    case h_2 => cases hstep
  | lock t =>
    simp only [step] at hstep
    split at hstep
    case h_1 op hpc =>
      simp only [Option.ite_none_right_eq_some, Option.some.injEq] at hstep
      obtain ⟨hfree, rfl⟩ := hstep
      exact .lock t op hpc hfree
    case h_2 => cases hstep
  | test t =>
    simp only [step] at hstep
    split at hstep
    case h_1 op hpc =>
      cases hstep
      exact .test t op hpc
    case h_2 => cases hstep
  | setup t success =>
    simp only [step] at hstep
    split at hstep
    case h_1 pc type privateConnection hpc =>
      cases hstep
      exact .setup t pc type privateConnection success hpc
    case h_2 => cases hstep
  | impl t =>
    simp only [step] at hstep
    split at hstep
    case h_1 pc op hpc =>
      split at hstep
      case isTrue hself =>
        cases hstep
        exact .joinSelf t pc op hpc hself
      case isFalse => exact .impl t pc op s' hpc hstep
    case h_2 => cases hstep
  | returnState t =>
    simp only [step] at hstep
    split at hstep
    case h_1 hpc =>
      cases hstep
      exact .returnState t hpc _
    case h_2 => cases hstep
  | dropBus =>
    cases hstep
    exact .environment _ _ ⟨rfl, rfl, fun stage hat => { hat with }, .inl rfl⟩
      (.inr (Nat.le_refl _))
  | endIo =>
    simp only [step, Option.ite_none_right_eq_some, Option.some.injEq] at hstep
    obtain ⟨⟨hrunning, -⟩, rfl⟩ := hstep
    have hjoinable : Worker.ended.joinable = s.ioThread.joinable := by rw [hrunning]; rfl
    exact .environment _ _ ⟨rfl, rfl, fun stage hat => { hat with
      ioThread := fun joinable hj => hjoinable.trans (hat.ioThread joinable hj) }, .inl rfl⟩
      (.inr (Nat.le_refl _))
  | endDispatch =>
    simp only [step] at hstep
    split at hstep
    case h_1 last hpc =>
      simp only [Option.ite_none_right_eq_some, Option.some.injEq] at hstep
      obtain ⟨⟨hrunning, -⟩, rfl⟩ := hstep
      have hjoinable : Worker.ended.joinable = s.dispatchThread.joinable := by rw [hrunning]; rfl
      exact .environment _ _ ⟨rfl, rfl, fun stage hat => { hat with
        dispatchThread := fun joinable hj => hjoinable.trans (hat.dispatchThread joinable hj) },
        .inr (by rw [hpc]; rfl)⟩ (.inr (Nat.le_refl _))
    case h_2 => cases hstep
  | addWatch | removeWatch | addTimeout | removeTimeout =>
    simp only [step, Option.ite_none_right_eq_some, Option.some.injEq] at hstep
    obtain ⟨hset, rfl⟩ := hstep
    exact .environment _ _ ⟨rfl, rfl, fun stage hat => { hat with
      maps := .inl (hat.maps_of_functionsSet hset) }, .inl rfl⟩ (.inr (Nat.le_refl _))
  | enterSend | sendWithReply success =>
    simp only [step, Option.ite_none_right_eq_some, Option.some.injEq] at hstep
    obtain ⟨-, rfl⟩ := hstep
    exact .environment _ _ ⟨rfl, rfl, fun stage hat => { hat with }, .inl rfl⟩
      (.inr (Nat.le_refl _))
  | emplace =>
    simp only [step, Option.ite_none_right_eq_some, Option.some.injEq] at hstep
    obtain ⟨-, rfl⟩ := hstep
    exact .environment _ _ ⟨rfl, rfl, fun stage hat => { hat with }, .inl rfl⟩ (.inl rfl)
  | answer =>
    simp only [step, Option.ite_none_right_eq_some, Option.some.injEq] at hstep
    obtain ⟨-, rfl⟩ := hstep
    exact .environment _ _ ⟨rfl, rfl, fun stage hat => { hat with }, .inl rfl⟩
      (.inr (Nat.sub_le s.pendingMessages 1))

/-! ## The connection stays in order -/

omit [DecidableEq ι] in
theorem not_stuck_of_threadsStart {s : State ι} {t : Thread ι} {pc : SetupPc} {type : BusType}
    {privateConnection success : Bool} (h : ThreadsStart s (.setup t success))
    (hpc : s.pc t = .setup pc type privateConnection) : pc.next success ≠ .stuck := by
  have hsuccess := h type privateConnection
  rw [hpc] at hsuccess
  cases pc <;> cases success <;> simp [SetupPc.next] at hsuccess ⊢

theorem inOrder_setupStep {s : State ι} {t : Thread ι} {pc : SetupPc} {type : BusType}
    {privateConnection success : Bool} (h : InOrder s (.setup pc))
    (hstart : ThreadsStart s (.setup t success))
    (hpc : s.pc t = .setup pc type privateConnection) :
    InOrder (setupStep s t type privateConnection success pc) (pc.next success) := by
  have hstarted := not_stuck_of_threadsStart hstart hpc
  refine ⟨hstarted, by cases pc <;> cases success <;> exact nofun, ?_⟩
  cases pc with
  | atEpollCreate =>
    -- `conn_state` goes back to `disconnected` without a clear.
    have hzero := h.entries.resolve_left nofun
    cases success with
    | true => exact .inl rfl
    | false => exact .inr hzero
  | atStartIo | atStartDispatch =>
    cases success with
    | true => exact .inl rfl
    | false => exact absurd rfl hstarted
  | _ => cases success <;> exact .inl rfl

theorem inOrder_implStep {s s' : State ι} {t : Thread ι} {op : Op} {pc : ImplPc} {stage : Stage}
    (h : InOrder s stage) (hstage : (Pc.impl pc op).stage = some stage)
    (hstep : implStep s t op pc = some s') : InOrder s' pc.next := by
  refine ⟨by cases pc <;> exact nofun, by cases pc <;> exact nofun, ?_⟩
  cases pc with
  | atBegin | atTestCtx | atCloseCtx => exact .inl rfl
  | atClearPending =>
    cases hstep
    exact .inr rfl
  | atJoinIo | atJoinDispatch =>
    cases hstage
    have hzero := h.entries.resolve_left nofun
    simp only [implStep] at hstep
    split at hstep <;> cases hstep <;> exact .inr hzero
  | _ =>
    cases hstage
    cases hstep
    exact .inr (h.entries.resolve_left nofun)

theorem atStage_joinSelf {s : State ι} {t : Thread ι} {op : Op} {pc : ImplPc} {stage : Stage}
    (h : AtStage s stage) (hstage : (Pc.impl pc op).stage = some stage)
    (hself : s.joinsItself t pc = true) :
    AtStage (s.setPc t (.idle .exception)) .abandoned := by
  cases pc with
  | atJoinIo | atJoinDispatch =>
    cases hstage
    exact { h with
      pollfd := nofun
      timerfd := nofun
      ctx := nofun
      ioThread := nofun
      dispatchThread := nofun
      functionsSet := fun hset => nomatch (h.functionsSet hset).1 }
  | _ => cases hself

/-! ## The invariant is kept -/

/-- A step that leaves the thread that works on the connection alone. -/
theorem stage_of_idle {lax : Prop} {s s' : State ι} {t : Thread ι} {p : Pc}
    (h : InStage lax s) (hstage : ∀ stage, AtStage s stage → AtStage s' stage)
    (hpending : s'.pendingMessages = s.pendingMessages)
    (hpc : s'.pc = Function.update s.pc t p) (hfrom : (s.pc t).stage = none)
    (hto : p.stage = none) : InStage lax s' := by
  obtain ⟨stage, owner, hat, howner, horder⟩ := h
  refine ⟨stage, owner, hstage stage hat, howner.update_idle hpc hfrom hto, ?_⟩
  exact horder.imp_right fun h => { h with entries := hpending ▸ h.entries }

/-- A thread begins to work on a connection on which no other thread does. -/
theorem Owner.take {s s' : State ι} {stage stage' : Stage} {t t' : Thread ι} {p : Pc}
    (h : Owner s stage t) (hworked : stage.worked = none) (hpc : s'.pc = Function.update s.pc t' p)
    (hto : p.stage = stage'.worked) : Owner s' stage' t' := by
  refine ⟨?_, fun t'' hne => ?_⟩
  · rw [hpc, Function.update_self, hto]
  · rw [hpc, Function.update_of_ne hne]
    by_cases heq : t'' = t
    · rw [heq, h.own, hworked]
    · exact h.others t'' heq

theorem holdsMutex_of_closing {p : Pc} (h : p.stage = some .closing) : p.holdsMutex = true := by
  cases p with
  | impl pc op => cases pc <;> first | rfl | cases op <;> cases h
  | _ => cases h

omit [DecidableEq ι] in
/-- When the mutex is held by a thread that does not work on the connection, no thread does
    while the connection is up. -/
theorem Inv.up_of_held {lax : Prop} {s : State ι} {stage : Stage} {t owner : Thread ι}
    (h : Inv lax s)
    (hat : AtStage s stage) (howner : Owner s stage owner) (hconn : s.connState = .connected)
    (hheld : s.connStateMutex = some t) (hidle : (s.pc t).stage = none) : stage = .up := by
  obtain hup | rfl := hat.eq_up hconn
  · exact hup
  · -- A thread at the beginning of `disconnect_impl` holds the mutex.
    have hholds : (s.pc owner).holdsMutex = true := holdsMutex_of_closing howner.own
    have heq : owner = t := Option.some.inj ((h.mutex owner hholds).symm.trans hheld)
    have hown := howner.own
    rw [heq, hidle] at hown
    cases hown

theorem stage_test {lax : Prop} {s : State ι} {t : Thread ι} {op : Op} (h : Inv lax s)
    (hpc : s.pc t = .locked op) : InStage lax (testStep s t op) := by
  have hidle : (s.pc t).stage = none := by rw [hpc]; rfl
  have hheld := h.mutex t (by rw [hpc]; rfl)
  obtain ⟨result, heq⟩ | ⟨type, privateConnection, hdown, heq⟩ | ⟨hup, hop, heq⟩ :=
    testStep_cases s t op <;> rw [heq]
  · exact stage_of_idle h.stage (fun stage hat => { hat with }) rfl rfl hidle rfl
  · obtain ⟨stage, owner, hat, howner, horder⟩ := h.stage
    obtain rfl := hat.eq_down hdown
    refine ⟨.setup .atEpollCreate, t, { hat with connState := rfl }, howner.take rfl rfl rfl, ?_⟩
    exact horder.imp_right fun h => ⟨nofun, nofun, .inr (h.entries.resolve_left nofun)⟩
  · obtain ⟨stage, owner, hat, howner, horder⟩ := h.stage
    obtain rfl := h.up_of_held hat howner hup hheld hidle
    refine ⟨.closing, t, { hat with }, howner.take rfl rfl ?_,
      horder.imp_right fun _ => ⟨nofun, nofun, .inl rfl⟩⟩
    obtain rfl | ⟨rfl, -⟩ := hop <;> rfl

/-- Only the dispatch thread and the I/O thread can join themselves. -/
theorem not_joinsItself_of_idle {s : State ι} {t : Thread ι} {pc : ImplPc} {op : Op}
    (hio : (s.pc .io).isIdle = true) (hdispatcher : (s.pc .dispatcher).stage = none)
    (hpc : s.pc t = .impl pc op) : s.joinsItself t pc ≠ true := by
  intro hself
  cases pc with
  | atJoinIo =>
    simp only [State.joinsItself, Bool.and_eq_true, decide_eq_true_eq] at hself
    rw [← hself.1, hpc] at hio
    cases hio
  | atJoinDispatch =>
    simp only [State.joinsItself, Bool.and_eq_true, decide_eq_true_eq] at hself
    rw [← hself.1, hpc] at hdispatcher
    cases hdispatcher
  | _ => cases hself

theorem stage_step {lax : Prop} {s s' : State ι} {a : Label ι} (h : Inv lax s)
    (hallowed : lax ∨ KeepsOrder s a) (hmoves : Moves s a s') : InStage lax s' := by
  cases hmoves with
  | start t op last hpc _ | lock t op hpc _ | returnState t hpc _ =>
    exact stage_of_idle h.stage (fun stage hat => { hat with }) rfl rfl (by rw [hpc]; rfl) rfl
  | test t op hpc => exact stage_test h hpc
  | setup t pc type privateConnection success hpc =>
    obtain ⟨stage, owner, hat, howner, horder⟩ := h.stage
    obtain ⟨rfl, rfl⟩ := howner.eq_of_stage (by rw [hpc]; rfl)
    obtain ⟨p, hp, hto, -⟩ := setupStep_pc s t type privateConnection success pc
    refine ⟨_, t, atStage_setupStep hat, howner.update_own hp hto, ?_⟩
    obtain hlax | hkeeps := hallowed
    · exact .inl hlax
    · exact horder.imp_right fun h => inOrder_setupStep h hkeeps.threadsStart hpc
  | impl t pc op s' hpc himpl =>
    obtain ⟨stage, owner, hat, howner, horder⟩ := h.stage
    obtain ⟨stage', hstage'⟩ := stage_impl pc op
    obtain ⟨rfl, rfl⟩ := howner.eq_of_stage ((congrArg Pc.stage hpc).trans hstage')
    obtain ⟨p, hp, hto, -⟩ := implStep_pc himpl
    exact ⟨_, t, atStage_implStep hat hstage' himpl, howner.update_own hp hto,
      horder.imp_right fun h => inOrder_implStep h hstage' himpl⟩
  | joinSelf t pc op hpc hself =>
    obtain ⟨stage, owner, hat, howner, -⟩ := h.stage
    obtain ⟨stage', hstage'⟩ := stage_impl pc op
    obtain ⟨rfl, rfl⟩ := howner.eq_of_stage ((congrArg Pc.stage hpc).trans hstage')
    refine ⟨.abandoned, t, atStage_joinSelf hat hstage' hself, howner.update_own rfl rfl, ?_⟩
    obtain hlax | hkeeps := hallowed
    · exact .inl hlax
    · exact absurd hself (not_joinsItself_of_idle h.io hkeeps.dispatcher hpc)
  | environment a s' henv hentries =>
    obtain ⟨stage, owner, hat, howner, horder⟩ := h.stage
    refine ⟨stage, owner, henv.stage stage hat, ⟨henv.pc ▸ howner.own, henv.pc ▸ howner.others⟩, ?_⟩
    obtain hlax | hkeeps := hallowed
    · exact .inl hlax
    · refine horder.imp_right fun h => { h with entries := ?_ }
      obtain rfl | hle := hentries
      · exact .inl (pendingMessages_of_noLateEntry hat howner hkeeps.noLateEntry)
      · exact h.entries.imp_right fun hzero => by omega

/-- The mutex is given up only by the thread that holds it. -/
theorem mutex_of_held {s s' : State ι} {t : Thread ι} {p : Pc}
    (h : ∀ t, (s.pc t).holdsMutex = true → s.connStateMutex = some t)
    (hheld : s.connStateMutex = some t ∨ s.connStateMutex = none)
    (hpc : s'.pc = Function.update s.pc t p)
    (hto : p.holdsMutex = true → s'.connStateMutex = some t) (t' : Thread ι)
    (hholds : (s'.pc t').holdsMutex = true) : s'.connStateMutex = some t' := by
  rw [hpc, Function.update_apply] at hholds
  split at hholds
  case isTrue heq => exact heq ▸ hto hholds
  case isFalse hne =>
    obtain hheld | hheld := hheld <;> have heq := (h t' hholds).symm.trans hheld
    · exact absurd (Option.some.inj heq) hne
    · cases heq

theorem mutex_of_notHeld {s s' : State ι} {t : Thread ι} {p : Pc}
    (h : ∀ t, (s.pc t).holdsMutex = true → s.connStateMutex = some t)
    (hpc : s'.pc = Function.update s.pc t p) (hto : p.holdsMutex = false)
    (hsame : s'.connStateMutex = s.connStateMutex) (t' : Thread ι)
    (hholds : (s'.pc t').holdsMutex = true) : s'.connStateMutex = some t' := by
  rw [hpc, Function.update_apply] at hholds
  split at hholds
  case isTrue => simp [hto] at hholds
  case isFalse => exact hsame.trans (h t' hholds)

theorem mutex_step {lax : Prop} {s s' : State ι} {a : Label ι} (h : Inv lax s)
    (hmoves : Moves s a s') :
    ∀ t, (s'.pc t).holdsMutex = true → s'.connStateMutex = some t := by
  cases hmoves with
  | start t op last hpc _ | returnState t hpc _ => exact mutex_of_notHeld h.mutex rfl rfl rfl
  | lock t op hpc hfree => exact mutex_of_held h.mutex (.inr hfree) rfl fun _ => rfl
  | test t op hpc =>
    have hheld := h.mutex t (by rw [hpc]; rfl)
    obtain ⟨result, heq⟩ | ⟨type, privateConnection, -, heq⟩ | ⟨-, -, heq⟩ :=
      testStep_cases s t op <;> rw [heq]
    · exact mutex_of_held h.mutex (.inl hheld) rfl nofun
    · exact mutex_of_held h.mutex (.inl hheld) rfl fun _ => hheld
    · exact mutex_of_held h.mutex (.inl hheld) rfl fun _ => hheld
  | setup t pc type privateConnection success hpc =>
    have hheld := h.mutex t (by rw [hpc]; rfl)
    obtain ⟨p, hp, -, hmutex⟩ := setupStep_pc s t type privateConnection success pc
    exact mutex_of_held h.mutex (.inl hheld) hp fun hholds => (hmutex hholds).trans hheld
  | impl t pc op s' hpc himpl =>
    obtain ⟨p, hp, -, hnot, hmutex⟩ := implStep_pc himpl
    by_cases hat : pc = .atBegin
    · have hheld := h.mutex t (by rw [hpc, hat]; rfl)
      exact mutex_of_held h.mutex (.inl hheld) hp fun hholds => by simp [hnot] at hholds
    · exact mutex_of_notHeld h.mutex hp hnot (hmutex hat)
  | joinSelf t pc op hpc hself => exact mutex_of_notHeld h.mutex rfl rfl rfl
  | environment a s' henv _ =>
    rw [henv.pc, henv.mutex]
    exact h.mutex

theorem isIdle_update {s : State ι} {t t' : Thread ι} {p : Pc} (hbusy : (s.pc t).isIdle = false)
    (hidle : (s.pc t').isIdle = true) : (Function.update s.pc t p t').isIdle = true := by
  have hne : t' ≠ t := by
    rintro rfl
    simp [hidle] at hbusy
  rwa [Function.update_of_ne hne]

/-- A thread begins an operation only where it may call the library. -/
theorem isIdle_of_moves {s s' : State ι} {a : Label ι} {t : Thread ι} (hmoves : Moves s a s')
    (hidle : (s.pc t).isIdle = true) : (s'.pc t).isIdle = true ∨ s.mayCall t = true := by
  cases hmoves with
  | start t' op last hpc hmay =>
    by_cases heq : t = t'
    · exact .inr (heq ▸ hmay)
    · left
      simpa [State.setPc, Function.update_of_ne heq] using hidle
  | lock t' op hpc _ | returnState t' hpc _ =>
    exact .inl (isIdle_update (by rw [hpc]; rfl) hidle)
  | test t' op hpc =>
    left
    obtain ⟨result, heq⟩ | ⟨type, privateConnection, -, heq⟩ | ⟨-, -, heq⟩ :=
      testStep_cases s t' op <;> rw [heq] <;> exact isIdle_update (by rw [hpc]; rfl) hidle
  | setup t' pc type privateConnection success hpc =>
    obtain ⟨p, hp, -⟩ := setupStep_pc s t' type privateConnection success pc
    rw [hp]
    exact .inl (isIdle_update (by rw [hpc]; rfl) hidle)
  | impl t' pc op s' hpc himpl =>
    obtain ⟨p, hp, -⟩ := implStep_pc himpl
    rw [hp]
    exact .inl (isIdle_update (by rw [hpc]; rfl) hidle)
  | joinSelf t' pc op hpc hself => exact .inl (isIdle_update (by rw [hpc]; rfl) hidle)
  | environment a s' henv _ => exact .inl (henv.pc ▸ hidle)

/-- The dispatch thread does not end while it is in a function of the library. -/
theorem running_of_moves {s s' : State ι} {a : Label ι} (hmoves : Moves s a s')
    (hrunning : s.dispatchThread = .running) (hbusy : (s'.pc .dispatcher).isIdle = false) :
    s'.dispatchThread = .running := by
  cases hmoves with
  | start t op last _ _ | lock t op _ _ | returnState t _ _ => exact hrunning
  | test t op hpc =>
    obtain ⟨result, heq⟩ | ⟨type, privateConnection, -, heq⟩ | ⟨-, -, heq⟩ :=
      testStep_cases s t op <;> rw [heq] <;> exact hrunning
  | setup t pc type privateConnection success hpc =>
    cases pc <;> cases success <;> first | exact hrunning | rfl
  | impl t pc op s' hpc himpl =>
    cases pc with
    | atTestCtx | atCloseCtx | atJoinIo =>
      simp only [implStep] at himpl
      split at himpl <;> cases himpl <;> exact hrunning
    | atJoinDispatch => simp [implStep, hrunning] at himpl
    | _ =>
      cases himpl
      exact hrunning
  | joinSelf t pc op hpc hself => exact hrunning
  | environment a s' henv _ =>
    obtain hsame | hidle := henv.dispatchThread
    · exact hsame.trans hrunning
    · simp [henv.pc, hidle] at hbusy

theorem inv_step {lax : Prop} {s s' : State ι} {a : Label ι} (h : Inv lax s)
    (hallowed : lax ∨ KeepsOrder s a) (hstep : step s a = some s') : Inv lax s' := by
  have hmoves := moves_of_step hstep
  refine ⟨mutex_step h hmoves, stage_step h hallowed hmoves, fun hbusy => ?_, ?_⟩
  · refine running_of_moves hmoves ?_ hbusy
    cases hidle : (s.pc .dispatcher).isIdle with
    | false => exact h.dispatcher hidle
    | true =>
      obtain hstill | hmay := isIdle_of_moves hmoves hidle
      · simp [hstill] at hbusy
      · simpa [State.mayCall] using hmay
  · obtain hidle | hmay := isIdle_of_moves hmoves h.io
    · exact hidle
    · cases hmay

omit [DecidableEq ι] in
theorem inv_initial {lax : Prop} : Inv lax (initial : State ι) where
  mutex _ := nofun
  stage := by
    refine ⟨.down, .io, ?_, ⟨rfl, fun _ _ => rfl⟩, .inr ⟨nofun, nofun, .inr rfl⟩⟩
    exact
      { connState := rfl
        pollfd := known rfl
        timerfd := known rfl
        ctx := known rfl
        ioThread := known rfl
        dispatchThread := known rfl
        functionsSet := nofun
        maps := .inr ⟨rfl, rfl⟩
        fds := fun _ => rfl }
  dispatcher := nofun
  io := rfl

end Ultrabus.Lifecycle
