import Mathlib.Logic.Function.Basic
import Ultrabus.Lib.Transition

/-! # Waking the dispatch thread

`connection::msg_dispatcher`, the threads in which libdbus makes messages available and then
calls `on_dispatch_status` or `on_wakeup_main`, and `disconnect_impl` when it stops the
dispatch thread.  None of the notifying threads takes `dispatch_cond_mutex`.  `ι` names
them. -/

namespace Ultrabus.Dispatcher

/-- Where the dispatch thread is. -/
inductive DispatcherPc where
  | testStop
  | atLock
  | testPredicate
  | atWait
  | blocked
  | woken
  | testInner
  | atDispatch
  | finished
deriving DecidableEq, Repr

/-- A thread that notifies: what it has changed is there before it notifies. -/
inductive NotifierPc where
  | idle
  | atNotify
deriving DecidableEq, Repr

structure State (ι : Type) where
  dispatcher : DispatcherPc
  condMutex : Bool
  -- the messages that wait to be dispatched
  messages : Nat
  stopDispatchThread : Bool
  notifier : ι → NotifierPc
  -- `disconnect_impl` between setting the flag and notifying
  stopper : NotifierPc

inductive Label (ι : Type) where
  | testStop
  | lock
  | testPredicate
  | wait
  | spuriousWakeup
  | relock
  | testInner
  | dispatch
  | makeAvailable (i : ι) (count : Nat)
  | wakeupMain (i : ι)
  | notifyOne (i : ι)
  | setStop
  | notifyStop
deriving DecidableEq, Repr

variable {ι : Type} [DecidableEq ι]

/-- `stop_dispatch_thread || dbus_connection_get_dispatch_status(ctx) !=
    DBUS_DISPATCH_COMPLETE`. -/
def State.hasWork (s : State ι) : Bool := s.stopDispatchThread || s.messages ≠ 0

/-- `dispatch_cond.notify_one ()`: it wakes the dispatch thread if that is blocked by now. -/
def State.notify (s : State ι) : State ι :=
  { s with dispatcher := if s.dispatcher = .blocked then .woken else s.dispatcher }

def step (s : State ι) : Label ι → Option (State ι)
  | .testStop =>
    if s.dispatcher = .testStop then
      some { s with dispatcher := if s.stopDispatchThread then .finished else .atLock }
    else none
  | .lock =>
    if s.dispatcher = .atLock ∧ s.condMutex = false then
      some { s with dispatcher := .testPredicate, condMutex := true }
    else none
  | .testPredicate =>
    if s.dispatcher = .testPredicate then
      some { s with dispatcher := if s.hasWork then .testInner else .atWait }
    else none
  | .wait =>
    -- Releasing the mutex and blocking are one step.
    if s.dispatcher = .atWait then some { s with dispatcher := .blocked, condMutex := false }
    else none
  | .spuriousWakeup =>
    if s.dispatcher = .blocked then some { s with dispatcher := .woken } else none
  | .relock =>
    if s.dispatcher = .woken ∧ s.condMutex = false then
      some { s with dispatcher := .testPredicate, condMutex := true }
    else none
  | .testInner =>
    if s.dispatcher = .testInner then
      if s.stopDispatchThread then some { s with dispatcher := .testStop, condMutex := false }
      else some { s with dispatcher := .atDispatch }
    else none
  | .dispatch =>
    if s.dispatcher = .atDispatch then
      let messages := s.messages - 1
      -- The loop goes on while data remains.
      if messages ≠ 0 then some { s with dispatcher := .testInner, messages := messages }
      else some { s with dispatcher := .testStop, condMutex := false, messages := messages }
    else none
  | .makeAvailable i count =>
    if s.notifier i = .idle then
      some { s with
        messages := s.messages + count
        notifier := Function.update s.notifier i .atNotify }
    else none
  | .wakeupMain i =>
    if s.notifier i = .idle then
      some { s with notifier := Function.update s.notifier i .atNotify }
    else none
  | .notifyOne i =>
    if s.notifier i = .atNotify then
      some { s.notify with notifier := Function.update s.notifier i .idle }
    else none
  | .setStop =>
    if s.stopper = .idle ∧ s.stopDispatchThread = false then
      some { s with stopDispatchThread := true, stopper := .atNotify }
    else none
  | .notifyStop =>
    if s.stopper = .atNotify then some { s.notify with stopper := .idle } else none

def initial : State ι where
  dispatcher := .testStop
  condMutex := false
  messages := 0
  stopDispatchThread := false
  notifier _ := .idle
  stopper := .idle

def system (ι : Type) [DecidableEq ι] : TransitionSystem (State ι) (Label ι) where
  init s := s = initial
  step := step

/-- A notification is still to come. -/
def NotificationPending (s : State ι) : Prop :=
  (∃ i, s.notifier i = .atNotify) ∨ s.stopper = .atNotify

/-- The dispatch thread sleeps on work or on a request to stop, and nothing will wake it. -/
def SleepsOnWork (s : State ι) : Prop :=
  s.dispatcher = .blocked ∧ (s.messages ≠ 0 ∨ s.stopDispatchThread = true) ∧
    ¬ NotificationPending s

/-- No notification is given while the dispatch thread is between an evaluation of the wait
    predicate that came out false and blocking. -/
def NoNotifyBeforeWait (s : State ι) : Label ι → Prop
  | .notifyOne _ => s.dispatcher ≠ .atWait
  | .notifyStop => s.dispatcher ≠ .atWait
  | _ => True

/-! ## Invariant -/

/-- The dispatch thread is blocked or about to be. -/
def State.goesToSleep (s : State ι) : Prop := s.dispatcher = .atWait ∨ s.dispatcher = .blocked

/-- Whoever gives a thread that goes to sleep something to do has not notified it yet. -/
def Inv (s : State ι) : Prop :=
  s.goesToSleep → s.hasWork = true → NotificationPending s

omit [DecidableEq ι] in
theorem not_goesToSleep_notify {s : State ι} (h : s.dispatcher ≠ .atWait) :
    ¬ s.notify.goesToSleep := by
  unfold State.goesToSleep State.notify
  by_cases hblocked : s.dispatcher = .blocked
  · simp [hblocked]
  · simp [hblocked, h]

theorem inv_step {s s' : State ι} {a : Label ι} (h : Inv s) (hallowed : NoNotifyBeforeWait s a)
    (hstep : step s a = some s') : Inv s' := by
  cases a with
  | testPredicate =>
    simp only [step, Option.ite_none_right_eq_some, Option.some.injEq] at hstep
    obtain ⟨-, rfl⟩ := hstep
    intro hsleep hwork
    -- The thread goes to sleep only if there is nothing to do.
    have hidle : s.hasWork = true := hwork
    simp [State.goesToSleep, hidle] at hsleep
  | wait =>
    simp only [step, Option.ite_none_right_eq_some, Option.some.injEq] at hstep
    obtain ⟨hat, rfl⟩ := hstep
    exact fun _ hwork => h (.inl hat) hwork
  | testInner =>
    simp only [step, Option.ite_none_right_eq_some] at hstep
    obtain ⟨-, hstep⟩ := hstep
    intro hsleep
    split at hstep <;> cases hstep <;> simp [State.goesToSleep] at hsleep
  | dispatch =>
    simp only [step, Option.ite_none_right_eq_some] at hstep
    obtain ⟨-, hstep⟩ := hstep
    intro hsleep
    split at hstep <;> cases hstep <;> simp [State.goesToSleep] at hsleep
  | makeAvailable i count =>
    simp only [step, Option.ite_none_right_eq_some, Option.some.injEq] at hstep
    obtain ⟨-, rfl⟩ := hstep
    exact fun _ _ => .inl ⟨i, Function.update_self _ _ _⟩
  | wakeupMain i =>
    simp only [step, Option.ite_none_right_eq_some, Option.some.injEq] at hstep
    obtain ⟨-, rfl⟩ := hstep
    exact fun _ _ => .inl ⟨i, Function.update_self _ _ _⟩
  | notifyOne i =>
    simp only [step, Option.ite_none_right_eq_some, Option.some.injEq] at hstep
    obtain ⟨-, rfl⟩ := hstep
    exact fun hsleep => absurd hsleep (not_goesToSleep_notify hallowed)
  | setStop =>
    simp only [step, Option.ite_none_right_eq_some, Option.some.injEq] at hstep
    obtain ⟨-, rfl⟩ := hstep
    exact fun _ _ => .inr rfl
  | notifyStop =>
    simp only [step, Option.ite_none_right_eq_some, Option.some.injEq] at hstep
    obtain ⟨-, rfl⟩ := hstep
    exact fun hsleep => absurd hsleep (not_goesToSleep_notify hallowed)
  | testStop =>
    simp only [step, Option.ite_none_right_eq_some, Option.some.injEq] at hstep
    obtain ⟨-, rfl⟩ := hstep
    intro hsleep
    cases hstop : s.stopDispatchThread <;> simp [State.goesToSleep, hstop] at hsleep
  | lock | relock | spuriousWakeup =>
    simp only [step, Option.ite_none_right_eq_some, Option.some.injEq] at hstep
    obtain ⟨-, rfl⟩ := hstep
    intro hsleep
    simp [State.goesToSleep] at hsleep

/-- In every run in which no notification is given between the evaluation of the predicate
    and blocking, the dispatch thread never sleeps on work or on a request to stop. -/
theorem not_sleepsOnWork {s : State ι} (h : (system ι).ReachableWhen NoNotifyBeforeWait s) :
    ¬ SleepsOnWork s := by
  have hinv : Inv s := by
    apply h.invariant
    case initial =>
      rintro _ rfl
      intro hsleep
      simp [State.goesToSleep, initial] at hsleep
    case preserved => exact fun _ _ _ => inv_step
  rintro ⟨hblocked, hwork, hnone⟩
  refine hnone (hinv (.inr hblocked) ?_)
  simpa [State.hasWork, or_comm] using hwork

/-- Messages come while the thread is blocked, and it is stopped while it dispatches them. -/
def wokenRun : List (Label Unit) :=
  [.testStop, .lock, .testPredicate, .wait, .makeAvailable () 2, .notifyOne (), .relock,
    .testPredicate, .testInner, .dispatch, .setStop, .testInner, .testStop, .notifyStop]

theorem wokenRun_not_sleepsOnWork :
    ∃ s, (system Unit).run initial wokenRun = some s ∧ ¬ SleepsOnWork s ∧
      s.dispatcher = .finished := by
  have hrun : (system Unit).run initial wokenRun = some _ := rfl
  refine ⟨_, hrun, not_sleepsOnWork (TransitionSystem.reachableWhen_of_run wokenRun rfl ?_ hrun),
    rfl⟩
  simp [wokenRun, TransitionSystem.AllowedRun, system, step, initial, NoNotifyBeforeWait,
    State.notify, State.hasWork]

/-- The request to stop comes right after the evaluation of the predicate. -/
def lostStopRun : List (Label Unit) :=
  [.testStop, .lock, .testPredicate, .setStop, .notifyStop, .wait]

/-- A message that comes right after the evaluation of the predicate. -/
def lostMessageRun : List (Label Unit) :=
  [.testStop, .lock, .testPredicate, .makeAvailable () 1, .notifyOne (), .wait]

theorem lostRuns_sleepOnWork :
    (∃ s, (system Unit).Reachable s ∧ s.stopDispatchThread = true ∧ SleepsOnWork s) ∧
      ∃ s, (system Unit).Reachable s ∧ s.messages = 1 ∧ SleepsOnWork s := by
  have hstop : (system Unit).run initial lostStopRun = some _ := rfl
  have hmessage : (system Unit).run initial lostMessageRun = some _ := rfl
  refine ⟨⟨_, TransitionSystem.reachable_of_run _ rfl hstop, rfl, rfl, .inr rfl, ?_⟩,
    ⟨_, TransitionSystem.reachable_of_run _ rfl hmessage, rfl, rfl, .inl (by decide), ?_⟩⟩
  · rintro (⟨i, hi⟩ | hi) <;> cases hi
  · rintro (⟨i, hi⟩ | hi) <;> cases hi

end Ultrabus.Dispatcher
