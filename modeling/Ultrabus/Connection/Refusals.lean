import Ultrabus.Connection.Timers
import Ultrabus.Connection.Watches

/-! # Watches and timeouts that are refused

`on_add_watch` and `on_add_timeout` change their container before the system call that can
fail.  `on_add_watch` takes back what it did; `on_add_timeout` does not. -/

namespace Ultrabus

namespace Timers

variable {η : Type}

/-- `connection::on_add_timeout`, and what `timerfd_settime` makes of the call. -/
def addTimeout (s : State η) (timeout : η) (interval : Nat) (enabled : Bool) (now : Timespec)
    (settime : Bool) : State η × Bool :=
  if !enabled then (s, true)
  else
    let repeatMsec := if interval = 0 then 1 else interval
    let abs := incAbsTime now repeatMsec
    let (timers, activateTimer) := emplaceTimer ⟨timeout, abs, repeatMsec⟩ s.timers
    if activateTimer then
      if settime then ({ s with timers := timers, timerfd := .settime abs }, true)
      else ({ s with timers := timers }, false)
    else ({ s with timers := timers }, true)

/-- Where `timerfd_settime` succeeds the timeout is added. -/
theorem addTimeout_of_settime (s : State η) (timeout : η) (interval : Nat) (enabled : Bool)
    (now : Timespec) : addTimeout s timeout interval enabled now true =
      (onAddTimeout s timeout interval enabled now, true) := by
  cases enabled with
  | false => rfl
  | true =>
    simp only [addTimeout, onAddTimeout, Bool.not_true, Bool.false_eq_true, if_false, if_true]
    cases (emplaceTimer ⟨timeout, incAbsTime now (if interval = 0 then 1 else interval),
      if interval = 0 then 1 else interval⟩ s.timers).2 <;> rfl

/-- The new entry is at the front unless there is one that is not later. -/
theorem emplaceTimer_front_iff (entry : TimerEntry η) (timers : List (TimerEntry η)) :
    (emplaceTimer entry timers).2 = false ↔
      ∃ front, timers.head? = some front ∧ front.absTime.NotLater entry.absTime := by
  cases timers with
  | nil => simp [emplaceTimer]
  | cons front rest =>
    simp only [emplaceTimer, List.head?_cons, Option.some.injEq, exists_eq_left',
      Timespec.NotLater]
    split
    case isTrue hless => simp [hless]
    case isFalse hless => simp [hless]

theorem length_emplaceTimer (entry : TimerEntry η) (timers : List (TimerEntry η)) :
    (emplaceTimer entry timers).1.length = timers.length + 1 := by
  induction timers with
  | nil => rfl
  | cons e rest ih =>
    simp only [emplaceTimer]
    split
    case isTrue => rfl
    case isFalse => simp [ih]

/-- Where `timerfd_settime` fails for an entry that is now the front, the entry stays. -/
theorem addTimeout_unset_iff (s : State η) (timeout : η) (interval : Nat) (now : Timespec) :
    ((addTimeout s timeout interval true now false).2 = false →
      (addTimeout s timeout interval true now false).1.timers = s.timers) ↔
    ∃ front, s.timers.head? = some front ∧
      front.absTime.NotLater (incAbsTime now (if interval = 0 then 1 else interval)) := by
  let entry : TimerEntry η := ⟨timeout, incAbsTime now (if interval = 0 then 1 else interval),
    if interval = 0 then 1 else interval⟩
  have hrun : addTimeout s timeout interval true now false =
      if (emplaceTimer entry s.timers).2 then
        ({ s with timers := (emplaceTimer entry s.timers).1 }, false)
      else ({ s with timers := (emplaceTimer entry s.timers).1 }, true) := rfl
  have hlength := length_emplaceTimer entry s.timers
  rw [hrun, ← emplaceTimer_front_iff entry s.timers]
  cases (emplaceTimer entry s.timers).2 with
  | false => simp
  | true =>
    simp only [if_true, true_implies, reduceCtorEq, iff_false]
    intro hsame
    rw [hsame] at hlength
    omega

end Timers

namespace Watches

variable {ω : Type} [LinearOrder ω]

/-- What `erase` leaves does not depend on what was emplaced for the same watch. -/
theorem eraseWatch_emplace (watch : ω) (events : UInt32) (entries : Entries ω) :
    eraseWatch watch (OrderedMap.emplace addressLess watch events entries) =
      eraseWatch watch entries := by
  induction entries with
  | nil => simp [OrderedMap.emplace, eraseWatch]
  | cons entry rest ih =>
    simp only [OrderedMap.emplace]
    split
    · simp only [eraseWatch, List.filter_cons] at ih ⊢
      rw [ih]
    · split
      · simp [eraseWatch]
      · rfl

theorem eraseWatch_eq_self_iff (watch : ω) (entries : Entries ω) :
    eraseWatch watch entries = entries ↔ ∀ entry ∈ entries, entry.1 ≠ watch := by
  simp [eraseWatch, List.filter_eq_self]

end Watches

namespace Refusals

variable {ω η : Type} [LinearOrder ω]

/-- The containers of the connection. -/
structure State (ω η : Type) where
  watches : Watches.State ω
  timeouts : Timers.State η

/-- A call of `on_add_watch` or `on_add_timeout`, with the outcome of the system call. -/
inductive Add (ω η : Type) where
  | addWatch (watch : ω) (enabled epollCtl : Bool)
  | addTimeout (timeout : η) (interval : Nat) (enabled : Bool) (now : Timers.Timespec)
    (settime : Bool)

def Add.run (info : Watches.Info ω) (s : State ω η) : Add ω η → State ω η × Bool
  | .addWatch watch enabled epollCtl =>
    let (watches, added) := Watches.onAddWatch info s.watches watch enabled epollCtl
    ({ s with watches := watches }, added)
  | .addTimeout timeout interval enabled now settime =>
    let (timeouts, added) := Timers.addTimeout s.timeouts timeout interval enabled now settime
    ({ s with timeouts := timeouts }, added)

/-- If the call returns false then `fd_map` and `timers` are what they were. -/
def LeavesNoTrace (info : Watches.Info ω) (s : State ω η) (add : Add ω η) : Prop :=
  (add.run info s).2 = false →
    (add.run info s).1.watches.fdMap = s.watches.fdMap ∧
      (add.run info s).1.timeouts.timers = s.timeouts.timers

/-- A watch is refused only while it is not in `fd_map`, and a timeout not at all: the timer
    descriptor does not have to be set for it, or can be. -/
def TakenBack (info : Watches.Info ω) (s : State ω η) : Add ω η → Prop
  | .addWatch watch _ epollCtl => epollCtl = false →
    ∀ entries, s.watches.fdMap (info.unixFd watch) = some entries →
      ∀ entry ∈ entries, entry.1 ≠ watch
  | .addTimeout _ interval enabled now settime => settime = false → enabled = true →
    ∃ front, s.timeouts.timers.head? = some front ∧
      front.absTime.NotLater (Timers.incAbsTime now (if interval = 0 then 1 else interval))

theorem addWatch_leavesNoTrace_iff (info : Watches.Info ω) (s : State ω η) (watch : ω)
    (enabled epollCtl : Bool) :
    LeavesNoTrace info s (.addWatch watch enabled epollCtl) ↔
      TakenBack info s (.addWatch watch enabled epollCtl) := by
  simp only [LeavesNoTrace, TakenBack, Add.run, Watches.onAddWatch]
  cases hfd : s.watches.fdMap (info.unixFd watch) with
  | none => cases epollCtl <;> simp
  | some entries =>
    cases epollCtl with
    | true => simp
    | false =>
      simp only [Bool.false_eq_true, if_false, true_implies, and_true, Option.some.injEq,
        forall_eq', Watches.State.set, Watches.eraseWatch_emplace]
      rw [← Watches.eraseWatch_eq_self_iff, Function.update_eq_iff]
      simp [hfd]

theorem addTimeout_leavesNoTrace_iff (info : Watches.Info ω) (s : State ω η) (timeout : η)
    (interval : Nat) (enabled : Bool) (now : Timers.Timespec) (settime : Bool) :
    LeavesNoTrace info s (.addTimeout timeout interval enabled now settime) ↔
      TakenBack info s (.addTimeout timeout interval enabled now settime) := by
  simp only [LeavesNoTrace, TakenBack, Add.run]
  cases settime with
  | true => simp [Timers.addTimeout_of_settime]
  | false =>
    cases enabled with
    | false => simp [Timers.addTimeout]
    | true =>
      simpa only [true_and, true_implies] using
        Timers.addTimeout_unset_iff s.timeouts timeout interval now

/-- For every state of the containers and every outcome of the system calls, a call that returns
    false leaves no trace exactly if it is a watch that was not there before, or no timeout
    that the timer descriptor has to be set for. -/
theorem leavesNoTrace_iff (info : Watches.Info ω) (s : State ω η) (add : Add ω η) :
    LeavesNoTrace info s add ↔ TakenBack info s add := by
  cases add with
  | addWatch watch enabled epollCtl =>
    exact addWatch_leavesNoTrace_iff info s watch enabled epollCtl
  | addTimeout timeout interval enabled now settime =>
    exact addTimeout_leavesNoTrace_iff info s timeout interval enabled now settime

/-- The timer descriptor cannot be set for the first timeout, which stays in `timers`. -/
theorem not_leavesNoTrace :
    ¬ LeavesNoTrace Watches.socket
      (⟨⟨fun _ => none, fun _ => none⟩, ⟨⟨5, 0⟩, [], ⟨none, false⟩, [], none, []⟩⟩ : State Nat Nat)
      (.addTimeout 0 25 true ⟨5, 0⟩ false) := by
  intro h
  have hsame := (h rfl).2
  cases hsame

end Refusals

end Ultrabus
