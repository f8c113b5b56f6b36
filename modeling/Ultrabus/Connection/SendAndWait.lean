import Ultrabus.Lib.Transition

/-! # Waiting for a reply

One call of `connection::send_and_wait` after its `send` has succeeded: the waiting thread
and the reply callback on the dispatch thread.  They share `reply`, `got_reply`,
`cond_mutex` and `cond`, all local to the call; `ρ` is the type of messages. -/

namespace Ultrabus.SendAndWait

/-- The waiting thread: `while (!got_reply) { std::unique_lock lock (cond_mutex);
    cond.wait (lock); }`. -/
inductive WaiterPc where
  | test
  | atLock
  | atWait
  | blocked
  | woken
  | atUnlock
  | returned
deriving DecidableEq, Repr

/-- The callback: `reply = std::move (resp); got_reply = true; cond.notify_one ();`. -/
inductive CallbackPc where
  | atMove
  | atSet
  | atNotify
  | finished
deriving DecidableEq, Repr

structure State (ρ : Type) where
  waiter : WaiterPc
  callback : CallbackPc
  reply : Option ρ
  gotReply : Bool
  condMutex : Bool
deriving DecidableEq, Repr

inductive Label (ρ : Type) where
  | test
  | lock
  | wait
  | spuriousWakeup
  | relock
  | unlock
  | moveReply (resp : ρ)
  | setGotReply
  | notifyOne
deriving DecidableEq, Repr

variable {ρ : Type}

def step (s : State ρ) : Label ρ → Option (State ρ)
  | .test =>
    if s.waiter = .test then
      some { s with waiter := if s.gotReply then .returned else .atLock }
    else none
  | .lock =>
    if s.waiter = .atLock ∧ s.condMutex = false then
      some { s with waiter := .atWait, condMutex := true }
    else none
  | .wait =>
    -- Releasing the mutex and blocking are one step.
    if s.waiter = .atWait then some { s with waiter := .blocked, condMutex := false } else none
  | .spuriousWakeup =>
    if s.waiter = .blocked then some { s with waiter := .woken } else none
  | .relock =>
    if s.waiter = .woken ∧ s.condMutex = false then
      some { s with waiter := .atUnlock, condMutex := true }
    else none
  | .unlock =>
    if s.waiter = .atUnlock then some { s with waiter := .test, condMutex := false } else none
  | .moveReply resp =>
    if s.callback = .atMove then some { s with callback := .atSet, reply := some resp } else none
  | .setGotReply =>
    if s.callback = .atSet then some { s with callback := .atNotify, gotReply := true } else none
  | .notifyOne =>
    -- A notification reaches a thread that is blocked by now and no other.
    if s.callback = .atNotify then
      some { s with
        callback := .finished
        waiter := if s.waiter = .blocked then .woken else s.waiter }
    else none

def initial : State ρ where
  waiter := .test
  callback := .atMove
  reply := none
  gotReply := false
  condMutex := false

def system (ρ : Type) : TransitionSystem (State ρ) (Label ρ) where
  init s := s = initial
  step := step

/-- The thread sleeps on a reply that it has, and nothing will wake it. -/
def SleepsOnReply (s : State ρ) : Prop :=
  s.gotReply = true ∧ s.callback = .finished ∧ s.waiter = .blocked

/-- The notification is not given while the waiting thread is between a test of
    `got_reply` that read false and blocking. -/
def NoNotifyBeforeWait (s : State ρ) : Label ρ → Prop
  | .notifyOne => s.waiter ≠ .atLock ∧ s.waiter ≠ .atWait
  | _ => True

/-! ## All runs -/

/-- What the flag and the reply say about the callback. -/
structure FlagInv (s : State ρ) : Prop where
  flag : s.gotReply = true ↔ s.callback = .atNotify ∨ s.callback = .finished
  reply : s.reply.isSome ↔ s.callback ≠ .atMove
  returned : s.waiter = .returned → s.gotReply = true

theorem flagInv_step {s s' : State ρ} {a : Label ρ} (h : FlagInv s) (hstep : step s a = some s') :
    FlagInv s' := by
  obtain ⟨hflag, hreply, hreturned⟩ := h
  cases a with
  | test =>
    simp only [step, Option.ite_none_right_eq_some, Option.some.injEq] at hstep
    obtain ⟨-, rfl⟩ := hstep
    exact ⟨hflag, hreply, fun h => by cases hgot : s.gotReply <;> simp_all⟩
  | notifyOne =>
    simp only [step, Option.ite_none_right_eq_some, Option.some.injEq] at hstep
    obtain ⟨hat, rfl⟩ := hstep
    exact ⟨by simp [hflag, hat], by simpa [hat] using hreply, fun _ => hflag.mpr (.inl hat)⟩
  | _ =>
    simp only [step, Option.ite_none_right_eq_some, Option.some.injEq] at hstep
    obtain ⟨hat, rfl⟩ := hstep
    constructor <;> simp_all

theorem flagInv_initial : FlagInv (initial : State ρ) := by
  constructor <;> simp [initial]

theorem flagInv_of_reachable {s : State ρ} (h : (system ρ).Reachable s) : FlagInv s := by
  apply h.invariant
  case initial =>
    rintro _ rfl
    exact flagInv_initial
  case preserved => exact fun _ _ _ => flagInv_step

/-- `send_and_wait` returns only a reply that the callback has moved to it. -/
theorem reply_of_returned {s : State ρ} (h : (system ρ).Reachable s) (hpc : s.waiter = .returned) :
    s.reply.isSome := by
  obtain ⟨hflag, hreply, hreturned⟩ := flagInv_of_reachable h
  refine hreply.mpr fun hmove => ?_
  rcases hflag.mp (hreturned hpc) with h | h <;> simp [hmove] at h

/-! ## Runs without the lost wakeup -/

/-- Once the notification is given, the waiting thread is not on its way to block. -/
structure Inv (s : State ρ) : Prop where
  flag : FlagInv s
  awake : s.callback = .finished → s.waiter ≠ .atLock ∧ s.waiter ≠ .atWait ∧ s.waiter ≠ .blocked

theorem inv_step {s s' : State ρ} {a : Label ρ} (h : Inv s) (hallowed : NoNotifyBeforeWait s a)
    (hstep : step s a = some s') : Inv s' := by
  obtain ⟨hflag, hawake⟩ := h
  refine ⟨flagInv_step hflag hstep, ?_⟩
  cases a with
  | test =>
    simp only [step, Option.ite_none_right_eq_some, Option.some.injEq] at hstep
    obtain ⟨-, rfl⟩ := hstep
    intro hfinished
    -- The flag is set by then, so that the test does not lead to the wait.
    have hgot : s.gotReply = true := hflag.flag.mpr (.inr hfinished)
    simp [hgot]
  | notifyOne =>
    simp only [step, Option.ite_none_right_eq_some, Option.some.injEq] at hstep
    obtain ⟨-, rfl⟩ := hstep
    obtain ⟨hlock, hwait⟩ := hallowed
    intro _
    -- A thread that is blocked is woken; any other is not about to block.
    by_cases hblocked : s.waiter = .blocked
    · simp [hblocked]
    · simp [hblocked, hlock, hwait]
  | _ =>
    simp only [step, Option.ite_none_right_eq_some, Option.some.injEq] at hstep
    obtain ⟨hat, rfl⟩ := hstep
    intro hfinished
    simp_all

/-- In every run in which the notification is not given between the test and the wait,
    `send_and_wait` never sleeps on a reply that it has. -/
theorem not_sleepsOnReply {s : State ρ} (h : (system ρ).ReachableWhen NoNotifyBeforeWait s) :
    ¬ SleepsOnReply s := by
  have hinv : Inv s := by
    apply h.invariant
    case initial =>
      rintro _ rfl
      exact ⟨flagInv_initial, by simp [initial]⟩
    case preserved => exact fun _ _ _ => inv_step
  rintro ⟨-, hfinished, hblocked⟩
  exact (hinv.awake hfinished).2.2 hblocked

/-- The reply comes while the thread is blocked; the notification wakes it. -/
def wokenRun : List (Label Unit) :=
  [.test, .lock, .wait, .moveReply (), .setGotReply, .notifyOne]

theorem wokenRun_not_sleepsOnReply :
    ∃ s, (system Unit).run initial wokenRun = some s ∧ ¬ SleepsOnReply s := by
  have hrun : (system Unit).run initial wokenRun = some _ := rfl
  refine ⟨_, hrun, not_sleepsOnReply (TransitionSystem.reachableWhen_of_run _ rfl ?_ hrun)⟩
  simp [wokenRun, TransitionSystem.AllowedRun, system, step, initial, NoNotifyBeforeWait]

/-- The reply comes right after the test. -/
def lostWakeupRun : List (Label Unit) :=
  [.test, .moveReply (), .setGotReply, .notifyOne, .lock, .wait]

theorem lostWakeupRun_sleepsOnReply :
    ∃ s, (system Unit).Reachable s ∧ SleepsOnReply s := by
  have hrun : (system Unit).run initial lostWakeupRun = some _ := rfl
  exact ⟨_, TransitionSystem.reachable_of_run _ rfl hrun, rfl, rfl, rfl⟩

end Ultrabus.SendAndWait
