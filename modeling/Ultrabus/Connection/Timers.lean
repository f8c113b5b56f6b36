import Mathlib.Data.List.Sort
import Ultrabus.Lib.Transition

/-! # Timeouts of a connection

The list `timers`, the timer descriptor that is armed for its front, and the thread in
`io_handler`: batches of events from `epoll_wait`, `on_timerfd_event`, and the timeout
functions that libdbus calls from any thread.  The functions under `timer_mutex` are one
step each.  `η` is the type of `DBusTimeout*`. -/

namespace Ultrabus.Timers

/-! ## Time stamps -/

structure Timespec where
  sec : Int
  nsec : Int
deriving DecidableEq, Repr

def millisecondsInASecond : Nat := 1000
def nanosecondsInASecond : Int := 1000000000
def nanosecondsInAMilliseconds : Int := 1000000

namespace Timespec

/-- `timespec_less_t`. -/
def less (lhs rhs : Timespec) : Bool :=
  if lhs.sec ≠ rhs.sec then lhs.sec < rhs.sec else lhs.nsec < rhs.nsec

/-- The first time stamp is not after the second. -/
def NotLater (a b : Timespec) : Prop := less b a = false

theorem notLater_iff (a b : Timespec) :
    NotLater a b ↔ a.sec < b.sec ∨ (a.sec = b.sec ∧ a.nsec ≤ b.nsec) := by
  unfold NotLater less
  split
  · simp only [decide_eq_false_iff_not]
    omega
  · simp only [decide_eq_false_iff_not]
    omega

theorem NotLater.trans {a b c : Timespec} (hab : NotLater a b) (hbc : NotLater b c) :
    NotLater a c := by
  rw [notLater_iff] at *
  omega

instance (a b : Timespec) : Decidable (NotLater a b) :=
  inferInstanceAs (Decidable (less b a = false))

end Timespec

/-- `while (msec >= milliseconds_in_a_second)`: each turn takes a second off `msec`, so
    that `msec` turns are enough. -/
def incSeconds : Nat → Timespec → Nat → Timespec × Nat
  | 0, abs, msec => (abs, msec)
  | turns + 1, abs, msec =>
    if msec ≥ millisecondsInASecond then
      incSeconds turns { abs with sec := abs.sec + 1 } (msec - millisecondsInASecond)
    else (abs, msec)

def incAbsTime (abs : Timespec) (msec : Nat) : Timespec :=
  let (abs, msec) := incSeconds msec abs msec
  let nsec := abs.nsec + msec * nanosecondsInAMilliseconds
  if nsec ≥ nanosecondsInASecond then ⟨abs.sec + 1, nsec - nanosecondsInASecond⟩
  else ⟨abs.sec, nsec⟩

/-! ## The timer descriptor -/

/-- A `timerfd`: the time it will expire at, and whether an expiry is still to be read. -/
structure Timerfd where
  armed : Option Timespec
  unread : Bool
deriving DecidableEq, Repr

/-- `timerfd_settime` with no interval: zero disarms; an unread expiry is cancelled. -/
def Timerfd.settime (value : Timespec) : Timerfd where
  armed := if value = ⟨0, 0⟩ then none else some value
  unread := false

/-! ## State -/

structure TimerEntry (η : Type) where
  handle : η
  absTime : Timespec
  repeatMsec : Nat
deriving DecidableEq, Repr

/-- An event of a batch; the timer event has its `EPOLLIN` bit. -/
inductive Event where
  | socket
  | timer (epollin : Bool)
deriving DecidableEq, Repr

/-- One call of `dbus_timeout_handle`: the time the entry was due and the clock. -/
structure Handled (η : Type) where
  handle : η
  due : Timespec
  now : Timespec
deriving DecidableEq, Repr

structure State (η : Type) where
  clock : Timespec
  timers : List (TimerEntry η)
  timerfd : Timerfd
  -- the events of the current batch that are not handled yet
  batch : List Event
  -- the timeout that `on_timerfd_event` is about to handle, with the time it was due
  calling : Option (η × Timespec)
  handled : List (Handled η)
deriving DecidableEq, Repr

variable {η : Type}

/-! ## Functions under `timer_mutex` -/

def compareTimerEntry (lhs rhs : TimerEntry η) : Bool := lhs.absTime.less rhs.absTime

/-- `std::list::sort (compare_timer_entry)`, which is stable. -/
def sortTimers (timers : List (TimerEntry η)) : List (TimerEntry η) :=
  timers.insertionSort fun a b => compareTimerEntry b a = false

/-- Insertion in front of the first later entry; true when that is the front of the list. -/
def emplaceTimer (entry : TimerEntry η) : List (TimerEntry η) → List (TimerEntry η) × Bool
  | [] => ([entry], true)
  | e :: rest =>
    if entry.absTime.less e.absTime then (entry :: e :: rest, true)
    else (e :: (emplaceTimer entry rest).1, false)

/-- `connection::on_add_timeout`; `now` is the clock as read before the mutex is locked. -/
def onAddTimeout (s : State η) (timeout : η) (interval : Nat) (enabled : Bool) (now : Timespec) :
    State η :=
  if !enabled then s
  else
    let repeatMsec := if interval = 0 then 1 else interval
    let abs := incAbsTime now repeatMsec
    let (timers, activateTimer) := emplaceTimer ⟨timeout, abs, repeatMsec⟩ s.timers
    { s with timers := timers, timerfd := if activateTimer then .settime abs else s.timerfd }

def onRemoveTimeout [DecidableEq η] (s : State η) (timeout : η) : State η :=
  match s.timers.findIdx? (·.handle = timeout) with
  | none => s
  | some pos =>
    let timers := s.timers.eraseIdx pos
    match timers with
    | [] => { s with timers := timers, timerfd := .settime ⟨0, 0⟩ }
    | front :: _ =>
      { s with
        timers := timers
        timerfd := if pos = 0 then .settime front.absTime else s.timerfd }

def onToggledTimeout [DecidableEq η] (s : State η) (timeout : η) (interval : Nat) (enabled : Bool)
    (now : Timespec) : State η :=
  if enabled then onAddTimeout s timeout interval enabled now else onRemoveTimeout s timeout

/-- `connection::on_timerfd_event` up to the call of `dbus_timeout_handle`.  Whether the
    read found an expiry is not looked at. -/
def onTimerfdEvent (s : State η) (epollin : Bool) : State η :=
  if !epollin then s
  else
    let timerfd := { s.timerfd with unread := false }
    match s.timers with
    | [] => { s with timerfd := timerfd }
    | t :: rest =>
      let timers := sortTimers ({ t with absTime := incAbsTime t.absTime t.repeatMsec } :: rest)
      { s with
        timers := timers
        timerfd :=
          match timers with
          | front :: _ => .settime front.absTime
          | [] => timerfd
        calling := some (t.handle, t.absTime) }

/-! ## Runs -/

inductive Label (η : Type) where
  | tick (now : Timespec)
  | expire
  | epollWait (batch : List Event)
  | handleSocket
  | timerEvent
  | handleTimeout
  | addTimeout (timeout : η) (interval : Nat) (enabled : Bool) (now : Timespec)
  | removeTimeout (timeout : η)
  | toggledTimeout (timeout : η) (interval : Nat) (enabled : Bool) (now : Timespec)
deriving DecidableEq, Repr

def step [DecidableEq η] (s : State η) : Label η → Option (State η)
  | .tick now => if s.clock.NotLater now then some { s with clock := now } else none
  | .expire =>
    match s.timerfd.armed with
    | some t =>
      if t.NotLater s.clock then some { s with timerfd := ⟨none, true⟩ } else none
    | none => none
  | .epollWait batch =>
    -- The timer event is in a batch only if the descriptor is readable, and once.
    if s.batch = [] ∧ s.calling = none ∧ (.timer true ∈ batch → s.timerfd.unread = true) ∧
        batch.countP (· ≠ .socket) ≤ 1 then
      some { s with batch := batch }
    else none
  | .handleSocket =>
    match s.batch with
    | .socket :: rest => if s.calling = none then some { s with batch := rest } else none
    | _ => none
  | .timerEvent =>
    match s.batch with
    | .timer epollin :: rest =>
      if s.calling = none then some (onTimerfdEvent { s with batch := rest } epollin) else none
    | _ => none
  | .handleTimeout =>
    match s.calling with
    | some (handle, due) =>
      some { s with calling := none, handled := s.handled ++ [⟨handle, due, s.clock⟩] }
    | none => none
  | .addTimeout timeout interval enabled now =>
    if now.NotLater s.clock then some (onAddTimeout s timeout interval enabled now) else none
  | .removeTimeout timeout => some (onRemoveTimeout s timeout)
  | .toggledTimeout timeout interval enabled now =>
    if now.NotLater s.clock then some (onToggledTimeout s timeout interval enabled now) else none

def initial : State η where
  clock := ⟨0, 0⟩
  timers := []
  timerfd := ⟨none, false⟩
  batch := []
  calling := none
  handled := []

def system (η : Type) [DecidableEq η] : TransitionSystem (State η) (Label η) where
  init s := ∃ clock, s = { (initial : State η) with clock := clock }
  step := step

/-- No timeout has been handled before it was due. -/
def NoneEarly (s : State η) : Prop := ∀ call ∈ s.handled, call.due.NotLater call.now

/-- `on_timerfd_event` finds an expiry to read whenever there is a timeout to handle. -/
def ReadSucceeds (s : State η) : Label η → Prop
  | .timerEvent =>
    s.batch.head? = some (.timer true) → s.timers ≠ [] → s.timerfd.unread = true
  | _ => True

/-! ## Invariant -/

/-- The descriptor is armed for the front of the list, and an unread expiry means that
    the front is due. -/
structure FrontInv (clock : Timespec) (timers : List (TimerEntry η)) (timerfd : Timerfd) : Prop
    where
  armed : ∀ t, timerfd.armed = some t → ∃ front rest, timers = front :: rest ∧ front.absTime = t
  unread : timerfd.unread = true →
    ∃ front rest, timers = front :: rest ∧ front.absTime.NotLater clock

structure Inv (s : State η) : Prop where
  front : FrontInv s.clock s.timers s.timerfd
  calling : ∀ handle due, s.calling = some (handle, due) → due.NotLater s.clock
  noneEarly : NoneEarly s

theorem frontInv_settime {clock : Timespec} {front : TimerEntry η} {rest : List (TimerEntry η)} :
    FrontInv clock (front :: rest) (.settime front.absTime) where
  armed t ht := by
    simp only [Timerfd.settime] at ht
    split at ht
    · cases ht
    · exact ⟨front, rest, rfl, Option.some.inj ht⟩
  unread h := by simp [Timerfd.settime] at h

theorem frontInv_disarmed {clock : Timespec} {timers : List (TimerEntry η)} :
    FrontInv clock timers (.settime ⟨0, 0⟩) where
  armed t ht := by simp [Timerfd.settime] at ht
  unread h := by simp [Timerfd.settime] at h

theorem FrontInv.of_same_front {clock : Timespec} {front : TimerEntry η}
    {rest rest' : List (TimerEntry η)} {timerfd : Timerfd}
    (h : FrontInv clock (front :: rest) timerfd) : FrontInv clock (front :: rest') timerfd where
  armed t ht := by
    obtain ⟨f, r, heq, habs⟩ := h.armed t ht
    cases heq
    exact ⟨front, rest', rfl, habs⟩
  unread hu := by
    obtain ⟨f, r, heq, habs⟩ := h.unread hu
    cases heq
    exact ⟨front, rest', rfl, habs⟩

theorem FrontInv.tick {clock now : Timespec} {timers : List (TimerEntry η)} {timerfd : Timerfd}
    (h : FrontInv clock timers timerfd) (hnow : clock.NotLater now) :
    FrontInv now timers timerfd where
  armed := h.armed
  unread hu := by
    obtain ⟨front, rest, heq, hdue⟩ := h.unread hu
    exact ⟨front, rest, heq, hdue.trans hnow⟩

/-! ## One lemma for each function -/

/-- A new entry goes to the front, or the front stays. -/
theorem emplaceTimer_front (entry : TimerEntry η) (timers : List (TimerEntry η)) :
    ((emplaceTimer entry timers).2 = true ∧ (emplaceTimer entry timers).1 = entry :: timers) ∨
    ((emplaceTimer entry timers).2 = false ∧ ∃ front rest rest', timers = front :: rest ∧
      (emplaceTimer entry timers).1 = front :: rest') := by
  cases timers with
  | nil => exact .inl ⟨rfl, rfl⟩
  | cons e rest =>
    simp only [emplaceTimer]
    split
    · exact .inl ⟨rfl, rfl⟩
    · exact .inr ⟨rfl, e, rest, _, rfl, rfl⟩

theorem inv_onAddTimeout {s : State η} (h : Inv s) (timeout : η) (interval : Nat) (enabled : Bool)
    (now : Timespec) : Inv (onAddTimeout s timeout interval enabled now) := by
  cases enabled with
  | false => simpa [onAddTimeout] using h
  | true =>
    refine ⟨?_, h.calling, h.noneEarly⟩
    simp only [onAddTimeout, Bool.not_true, Bool.false_eq_true, if_false]
    generalize hentry : TimerEntry.mk timeout _ _ = entry
    rcases emplaceTimer_front entry s.timers with
      ⟨hfront, htimers⟩ | ⟨hfront, front, rest, rest', hs, htimers⟩
    · -- The descriptor is armed for the new front.
      simp only [hfront, htimers, if_true]
      subst hentry
      exact frontInv_settime
    · simp only [hfront, htimers, Bool.false_eq_true, if_false]
      exact (hs ▸ h.front).of_same_front

theorem inv_onRemoveTimeout [DecidableEq η] {s : State η} (h : Inv s) (timeout : η) :
    Inv (onRemoveTimeout s timeout) := by
  unfold onRemoveTimeout
  split
  case h_1 => exact h
  case h_2 pos _ =>
    dsimp only
    split
    case h_1 heq =>
      -- The last entry is gone and the descriptor is disarmed.
      exact ⟨heq ▸ frontInv_disarmed, h.calling, h.noneEarly⟩
    case h_2 front rest heq =>
      refine ⟨?_, h.calling, h.noneEarly⟩
      rw [heq]
      cases pos with
      | zero => exact frontInv_settime
      | succ pos =>
        -- The entry is not the front one.
        cases hs : s.timers with
        | nil => simp [hs] at heq
        | cons e timers =>
          rw [hs, List.eraseIdx_cons_succ, List.cons.injEq] at heq
          exact heq.1 ▸ (hs ▸ h.front).of_same_front

theorem inv_onToggledTimeout [DecidableEq η] {s : State η} (h : Inv s) (timeout : η)
    (interval : Nat) (enabled : Bool) (now : Timespec) :
    Inv (onToggledTimeout s timeout interval enabled now) := by
  unfold onToggledTimeout
  split
  · exact inv_onAddTimeout h timeout interval enabled now
  · exact inv_onRemoveTimeout h timeout

/-- With an expiry to read, the front entry is due when it is taken for handling. -/
theorem inv_onTimerfdEvent {s : State η} (h : Inv s) {epollin : Bool}
    (hread : epollin = true → s.timers ≠ [] → s.timerfd.unread = true) :
    Inv (onTimerfdEvent s epollin) := by
  unfold onTimerfdEvent
  cases epollin with
  | false => simpa using h
  | true =>
    simp only [Bool.not_true, Bool.false_eq_true, if_false]
    split
    case h_1 heq =>
      -- Without an entry nothing is armed.
      refine ⟨⟨fun t ht => ?_, by simp⟩, h.calling, h.noneEarly⟩
      obtain ⟨front, rest, hs, -⟩ := h.front.armed t ht
      simp [heq] at hs
    case h_2 t rest heq =>
      -- The expiry that is read was that of the front entry.
      have hdue : t.absTime.NotLater s.clock := by
        obtain ⟨front, rest', hs, hdue⟩ := h.front.unread (hread rfl (by simp [heq]))
        rw [heq] at hs
        cases hs
        exact hdue
      refine ⟨?_, fun handle due hcalling => ?_, h.noneEarly⟩
      · dsimp only
        split
        case h_1 front timers hsorted => exact hsorted ▸ frontInv_settime
        case h_2 hsorted =>
          -- Sorting does not lose the entry.
          have hlength := congrArg List.length hsorted
          rw [sortTimers, List.length_insertionSort] at hlength
          simp at hlength
      · cases hcalling
        exact hdue

/-! ## Runs in which every timer event has an expiry -/

theorem inv_step [DecidableEq η] {s s' : State η} {a : Label η} (h : Inv s)
    (hallowed : ReadSucceeds s a) (hstep : step s a = some s') : Inv s' := by
  cases a with
  | tick now =>
    simp only [step, Option.ite_none_right_eq_some, Option.some.injEq] at hstep
    obtain ⟨hnow, rfl⟩ := hstep
    exact ⟨h.front.tick hnow, fun handle due hc => (h.calling handle due hc).trans hnow,
      h.noneEarly⟩
  | expire =>
    simp only [step] at hstep
    split at hstep
    case h_1 t harmed =>
      simp only [Option.ite_none_right_eq_some, Option.some.injEq] at hstep
      obtain ⟨hdue, rfl⟩ := hstep
      -- The time that has come is the one of the front entry.
      refine ⟨⟨by simp, fun _ => ?_⟩, h.calling, h.noneEarly⟩
      obtain ⟨front, rest, hs, habs⟩ := h.front.armed t harmed
      exact ⟨front, rest, hs, habs ▸ hdue⟩
    case h_2 => cases hstep
  | epollWait batch =>
    simp only [step, Option.ite_none_right_eq_some, Option.some.injEq] at hstep
    obtain ⟨-, rfl⟩ := hstep
    exact ⟨h.front, h.calling, h.noneEarly⟩
  | handleSocket =>
    simp only [step] at hstep
    split at hstep
    case h_1 =>
      simp only [Option.ite_none_right_eq_some, Option.some.injEq] at hstep
      obtain ⟨-, rfl⟩ := hstep
      exact ⟨h.front, h.calling, h.noneEarly⟩
    case h_2 => cases hstep
  | timerEvent =>
    simp only [step] at hstep
    split at hstep
    case h_1 epollin rest hbatch =>
      simp only [Option.ite_none_right_eq_some, Option.some.injEq] at hstep
      obtain ⟨-, rfl⟩ := hstep
      refine inv_onTimerfdEvent (s := { s with batch := rest })
        ⟨h.front, h.calling, h.noneEarly⟩ fun hin hne => ?_
      exact hallowed (by simp [hbatch, hin]) hne
    case h_2 => cases hstep
  | handleTimeout =>
    simp only [step] at hstep
    split at hstep
    case h_1 handle due hcalling =>
      cases hstep
      refine ⟨h.front, by simp, fun call hcall => ?_⟩
      rcases List.mem_append.mp hcall with hcall | hcall
      · exact h.noneEarly call hcall
      · rw [List.mem_singleton] at hcall
        exact hcall ▸ h.calling handle due hcalling
    case h_2 => cases hstep
  | addTimeout timeout interval enabled now =>
    simp only [step, Option.ite_none_right_eq_some, Option.some.injEq] at hstep
    exact hstep.2 ▸ inv_onAddTimeout h timeout interval enabled now
  | removeTimeout timeout =>
    simp only [step, Option.some.injEq] at hstep
    exact hstep ▸ inv_onRemoveTimeout h timeout
  | toggledTimeout timeout interval enabled now =>
    simp only [step, Option.ite_none_right_eq_some, Option.some.injEq] at hstep
    exact hstep.2 ▸ inv_onToggledTimeout h timeout interval enabled now

/-- In every run in which `on_timerfd_event` finds an expiry to read whenever there is a
    timeout to handle, no timeout is handled before it is due. -/
theorem noneEarly_of_readSucceeds [DecidableEq η] {s : State η}
    (h : (system η).ReachableWhen ReadSucceeds s) : NoneEarly s := by
  have hinv : Inv s := by
    apply h.invariant
    case initial =>
      rintro _ ⟨clock, rfl⟩
      exact ⟨⟨by simp [initial], by simp [initial]⟩, by simp [initial],
        by simp [NoneEarly, initial]⟩
    case preserved => exact fun _ _ _ => inv_step
  exact hinv.noneEarly

/-- Two timeouts; the first one expires and is handled. -/
def dueRun : List (Label Nat) :=
  [.addTimeout 1 100 true ⟨0, 0⟩, .addTimeout 2 900 true ⟨0, 0⟩, .tick ⟨0, 100000000⟩, .expire,
    .epollWait [.socket, .timer true], .handleSocket, .timerEvent, .handleTimeout]

theorem dueRun_noneEarly :
    ∃ s, (system Nat).run initial dueRun = some s ∧ NoneEarly s ∧
      s.handled = [⟨1, ⟨0, 100000000⟩, ⟨0, 100000000⟩⟩] := by
  have hrun : (system Nat).run initial dueRun = some _ := rfl
  refine ⟨_, hrun, noneEarly_of_readSucceeds ?_, rfl⟩
  refine TransitionSystem.reachableWhen_of_run _ ⟨⟨0, 0⟩, rfl⟩ ?_ hrun
  exact ⟨trivial, trivial, trivial, trivial, trivial, trivial, fun _ _ => rfl, trivial, trivial⟩

/-- The same, but the reply of the first timeout is read from the socket in the batch that
    has the timer event, and libdbus removes the timeout. -/
def staleEventRun : List (Label Nat) :=
  [.addTimeout 1 100 true ⟨0, 0⟩, .addTimeout 2 900 true ⟨0, 0⟩, .tick ⟨0, 100000000⟩, .expire,
    .epollWait [.socket, .timer true], .removeTimeout 1, .handleSocket, .timerEvent,
    .handleTimeout]

/-- The second timeout, due after 900 ms, is handled after 100 ms. -/
theorem staleEventRun_early :
    ∃ s, (system Nat).Reachable s ∧
      s.handled = [⟨2, ⟨0, 900000000⟩, ⟨0, 100000000⟩⟩] ∧ ¬ NoneEarly s := by
  have hrun : (system Nat).run initial staleEventRun = some _ := rfl
  refine ⟨_, TransitionSystem.reachable_of_run _ ⟨⟨0, 0⟩, rfl⟩ hrun, ?_, ?_⟩
  · rfl
  · intro h
    exact absurd (h ⟨2, ⟨0, 900000000⟩, ⟨0, 100000000⟩⟩ (by decide)) (by decide)

end Ultrabus.Timers
