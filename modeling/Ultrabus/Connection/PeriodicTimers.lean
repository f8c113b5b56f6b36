import Ultrabus.Connection.TimerList

/-! # Periods of timeouts

The runs of `Connection.Timers` next to a record of what should have happened: when a timeout was
added or enabled, and how often it has been taken for handling since then.  libdbus adds a timeout
once before it removes it, and a toggle turns its enabled state round.

A timeout is due after one interval, then after two, and so on, whatever the clock says when it is
handled: a thread that was kept busy catches up, one call for each period that it has missed. -/

namespace Ultrabus.PeriodicTimers

open Timers

/-- A timeout since it was added or enabled. -/
structure Timer where
  start : Timespec
  repeatMsec : Nat
  -- how often it was taken for handling
  calls : Nat
deriving DecidableEq

def Timer.period (t : Timer) : Int := t.repeatMsec * nanosecondsInAMilliseconds

/-- The periods that are over. -/
def Timer.periods (t : Timer) (clock : Timespec) : Nat :=
  ((clock.nanoseconds - t.start.nanoseconds) / t.period).toNat

structure State (η : Type) where
  conn : Timers.State η
  -- the timeouts that are added and not removed, with whether they are enabled
  added : η → Option Bool
  running : η → Option Timer

variable {η : Type}

section Runs

variable [DecidableEq η]

namespace State

variable (s : State η)

/-- What libdbus promises, and that the clock has normalized times. -/
def promised : Label η → Bool
  | .tick now => now.Normalized
  | .addTimeout timeout _ _ now => s.added timeout = none ∧ now.Normalized
  | .removeTimeout timeout => s.added timeout ≠ none
  | .toggledTimeout timeout _ enabled now => s.added timeout = some (!enabled) ∧ now.Normalized
  | _ => true

def addedAfter : Label η → η → Option Bool
  | .addTimeout timeout _ enabled _ => Function.update s.added timeout (some enabled)
  | .removeTimeout timeout => Function.update s.added timeout none
  | .toggledTimeout timeout _ enabled _ => Function.update s.added timeout (some enabled)
  | _ => s.added

def set (timeout : η) (interval : Nat) (enabled : Bool) (now : Timespec) : η → Option Timer :=
  Function.update s.running timeout
    (if enabled then some ⟨now, if interval = 0 then 1 else interval, 0⟩ else none)

/-- The front entry is taken for handling. -/
def take : η → Option Timer :=
  match s.conn.timers with
  | [] => s.running
  | front :: _ =>
    Function.update s.running front.handle
      ((s.running front.handle).map fun t => { t with calls := t.calls + 1 })

def runningAfter : Label η → η → Option Timer
  | .addTimeout timeout interval enabled now => s.set timeout interval enabled now
  | .removeTimeout timeout => Function.update s.running timeout none
  | .toggledTimeout timeout interval enabled now => s.set timeout interval enabled now
  | .timerEvent => if s.conn.batch.head? = some (.timer true) then s.take else s.running
  | _ => s.running

def step (label : Label η) : Option (State η) :=
  if s.promised label then
    (Timers.step s.conn label).map fun conn => ⟨conn, s.addedAfter label, s.runningAfter label⟩
  else none

end State

def system (η : Type) [DecidableEq η] : TransitionSystem (State η) (Label η) where
  init s := ∃ clock : Timespec, clock.Normalized ∧
    s = ⟨{ (Timers.initial : Timers.State η) with clock := clock }, fun _ => none, fun _ => none⟩
  step := State.step

end Runs

/-! ## On schedule -/

theorem notLater_iff_nanoseconds {a b : Timespec} (ha : a.Normalized) (hb : b.Normalized) :
    a.NotLater b ↔ a.nanoseconds ≤ b.nanoseconds := by
  rw [Timespec.notLater_iff]
  simp only [Timespec.Normalized, Timespec.nanoseconds, nanosecondsInASecond] at *
  omega

/-- The entry waits for the end of the first period that no call was for. -/
structure OnSchedule (clock : Timespec) (entry : TimerEntry η) (t : Timer) : Prop where
  repeatMsec : entry.repeatMsec = t.repeatMsec
  positive : 0 < t.repeatMsec
  normalized : entry.absTime.Normalized
  due : entry.absTime.nanoseconds = t.start.nanoseconds + (t.calls + 1) * t.period
  notEarly : t.start.nanoseconds + t.calls * t.period ≤ clock.nanoseconds

theorem OnSchedule.later {clock clock' : Timespec} {entry : TimerEntry η} {t : Timer}
    (h : OnSchedule clock entry t) (hlater : clock.nanoseconds ≤ clock'.nanoseconds) :
    OnSchedule clock' entry t :=
  { h with notEarly := h.notEarly.trans hlater }

theorem Timer.period_pos {t : Timer} (h : 0 < t.repeatMsec) : 0 < t.period := by
  simp only [Timer.period, nanosecondsInAMilliseconds]
  omega

/-- An entry on schedule has been handled for as many periods as are over, if it is not due. -/
theorem OnSchedule.calls {clock : Timespec} {entry : TimerEntry η} {t : Timer}
    (h : OnSchedule clock entry t) :
    t.calls ≤ t.periods clock ∧
      (clock.nanoseconds < entry.absTime.nanoseconds → t.calls = t.periods clock) := by
  have hpos := Timer.period_pos h.positive
  have hcalls : (t.calls : Int) ≤ (clock.nanoseconds - t.start.nanoseconds) / t.period := by
    rw [Int.le_ediv_iff_mul_le hpos]
    have := h.notEarly
    omega
  refine ⟨by rw [Timer.periods]; omega, fun hnot => ?_⟩
  have hover : (clock.nanoseconds - t.start.nanoseconds) / t.period < t.calls + 1 := by
    rw [Int.ediv_lt_iff_lt_mul hpos]
    have := h.due
    omega
  rw [Timer.periods]
  omega

structure Inv (s : State η) : Prop where
  conn : Timers.Inv s.conn
  clock : s.conn.clock.Normalized
  sorted : SortedTimers s.conn.timers
  nodup : (s.conn.timers.map (·.handle)).Nodup
  entries : ∀ entry ∈ s.conn.timers, ∃ t, s.running entry.handle = some t ∧
    OnSchedule s.conn.clock entry t
  running : ∀ timeout t, s.running timeout = some t →
    ∃ entry ∈ s.conn.timers, entry.handle = timeout
  enabled : ∀ timeout, s.added timeout ≠ some true → s.running timeout = none

section Steps

variable {s : State η} {timeout : η} {now : Timespec}

/-- A step that neither the list nor the record sees. -/
theorem Inv.frame (h : Inv s) {conn : Timers.State η} (hconn : Timers.Inv conn)
    (htimers : conn.timers = s.conn.timers) (hclock : conn.clock.Normalized)
    (hlater : s.conn.clock.NotLater conn.clock) : Inv { s with conn := conn } where
  conn := hconn
  clock := hclock
  sorted := htimers ▸ h.sorted
  nodup := htimers ▸ h.nodup
  entries entry hentry := by
    obtain ⟨t, ht, hschedule⟩ := h.entries entry (htimers ▸ hentry)
    exact ⟨t, ht, hschedule.later ((notLater_iff_nanoseconds h.clock hclock).mp hlater)⟩
  running timeout t ht := by
    obtain ⟨entry, hentry, heq⟩ := h.running timeout t ht
    exact ⟨entry, htimers ▸ hentry, heq⟩
  enabled := h.enabled

/-- No entry is for a timeout that does not run. -/
theorem Inv.handle_ne (h : Inv s) (hnone : s.running timeout = none) {entry : TimerEntry η}
    (hentry : entry ∈ s.conn.timers) : entry.handle ≠ timeout := by
  rintro rfl
  obtain ⟨t, ht, -⟩ := h.entries entry hentry
  cases hnone.symm.trans ht

theorem clock_onTimerfdEvent (c : Timers.State η) (epollin : Bool) :
    (onTimerfdEvent c epollin).clock = c.clock := by
  unfold onTimerfdEvent
  repeat' split
  all_goals rfl

theorem timers_onTimerfdEvent {c : Timers.State η} {t : TimerEntry η} {rest : List (TimerEntry η)}
    (h : c.timers = t :: rest) :
    (onTimerfdEvent c true).timers =
      sortTimers ({ t with absTime := incAbsTime t.absTime t.repeatMsec } :: rest) := by
  simp [onTimerfdEvent, h]

/-- An entry that is due goes on to the end of the next period. -/
theorem OnSchedule.next {clock : Timespec} {entry : TimerEntry η} {t : Timer}
    (h : OnSchedule clock entry t) (hdue : entry.absTime.nanoseconds ≤ clock.nanoseconds) :
    OnSchedule clock { entry with absTime := incAbsTime entry.absTime entry.repeatMsec }
      { t with calls := t.calls + 1 } := by
  obtain ⟨hnormalized, hnano⟩ := incAbsTime_spec h.normalized entry.repeatMsec
  have hnow := h.due
  have hnext : ((t.calls + 1 : Nat) : Int) * t.period = t.calls * t.period + t.period := by
    rw [Int.natCast_add, Int.add_mul]
    simp
  constructor
  case repeatMsec => exact h.repeatMsec
  case positive => exact h.positive
  case normalized => exact hnormalized
  case due =>
    rw [hnano, hnow, h.repeatMsec]
    simp only [Timer.period, Int.natCast_add, Int.add_mul]
    omega
  case notEarly =>
    rw [hnow] at hdue
    exact hdue

variable [DecidableEq η]

theorem Inv.start (h : Inv s) (hnone : s.running timeout = none) (interval : Nat)
    (hnow : now.Normalized) (hlater : now.NotLater s.conn.clock) :
    Inv ⟨onAddTimeout s.conn timeout interval true now,
      Function.update s.added timeout (some true), s.set timeout interval true now⟩ := by
  have hrepeat : 0 < if interval = 0 then 1 else interval := by
    split <;> omega
  have hconn := inv_onAddTimeout h.conn timeout interval true now
  simp only [onAddTimeout, Bool.not_true, Bool.false_eq_true, if_false, State.set, if_true]
    at hconn ⊢
  generalize (if interval = 0 then 1 else interval) = repeatMsec at *
  obtain ⟨hnormalized, hnano⟩ := incAbsTime_spec hnow repeatMsec
  generalize hentry : TimerEntry.mk timeout (incAbsTime now repeatMsec) repeatMsec = entry at *
  have hperm := emplaceTimer_perm entry s.conn.timers
  have hhandle : entry.handle = timeout := by rw [← hentry]
  constructor
  case conn => exact hconn
  case clock => exact h.clock
  case sorted => exact sorted_emplaceTimer h.sorted
  case nodup =>
    refine ((hperm.map _).nodup_iff).mpr (List.nodup_cons.mpr ⟨fun hmem => ?_, h.nodup⟩)
    obtain ⟨other, hother, heq⟩ := List.mem_map.mp hmem
    exact h.handle_ne hnone hother (heq.trans hhandle)
  case entries =>
    intro e he
    dsimp only at he ⊢
    obtain rfl | he := List.mem_cons.mp (hperm.mem_iff.mp he)
    · refine ⟨⟨now, repeatMsec, 0⟩, by rw [hhandle, Function.update_self], ?_⟩
      have hnotEarly := (notLater_iff_nanoseconds hnow h.clock).mp hlater
      subst hentry
      refine ⟨rfl, hrepeat, hnormalized, ?_, ?_⟩
      · rw [hnano]
        simp [Timer.period]
      · simpa using hnotEarly
    · rw [Function.update_of_ne (h.handle_ne hnone he)]
      exact h.entries e he
  case running =>
    intro other t ht
    dsimp only at ht
    by_cases heq : other = timeout
    · exact ⟨entry, hperm.mem_iff.mpr List.mem_cons_self, heq ▸ hhandle⟩
    · rw [Function.update_of_ne heq] at ht
      obtain ⟨e, he, hsame⟩ := h.running other t ht
      exact ⟨e, hperm.mem_iff.mpr (List.mem_cons_of_mem entry he), hsame⟩
  case enabled =>
    intro other hother
    dsimp only at hother ⊢
    by_cases heq : other = timeout
    · subst heq
      simp at hother
    · rw [Function.update_of_ne heq] at hother ⊢
      exact h.enabled other hother

theorem clock_onRemoveTimeout (c : Timers.State η) (timeout : η) :
    (onRemoveTimeout c timeout).clock = c.clock := by
  unfold onRemoveTimeout
  dsimp only
  repeat' split
  all_goals rfl

/-- The one entry of the timeout goes. -/
theorem onRemoveTimeout_timers {c : Timers.State η} (hnodup : (c.timers.map (·.handle)).Nodup)
    (timeout : η) :
    (onRemoveTimeout c timeout).timers.Sublist c.timers ∧
      ∀ entry, entry ∈ (onRemoveTimeout c timeout).timers ↔
        entry ∈ c.timers ∧ entry.handle ≠ timeout := by
  obtain ⟨hnone, heq⟩ | ⟨pos, hpos, htimers, -⟩ := onRemoveTimeout_cases c timeout
  · rw [heq]
    refine ⟨.refl _, fun entry => ⟨fun hentry => ⟨hentry, ?_⟩, And.left⟩⟩
    rw [List.findIdx?_eq_none_iff] at hnone
    simpa using hnone entry hentry
  · obtain ⟨hlt, hhandle, -⟩ := List.findIdx?_eq_some_iff_getElem.mp hpos
    simp only [decide_eq_true_eq] at hhandle
    have hperm := List.getElem_cons_eraseIdx_perm hlt
    have hothers := ((hperm.map (·.handle)).nodup_iff).mpr hnodup
    rw [List.map_cons, List.nodup_cons, hhandle] at hothers
    rw [htimers]
    refine ⟨List.eraseIdx_sublist _ _, fun entry => ⟨fun hentry => ⟨?_, ?_⟩, ?_⟩⟩
    · exact (List.eraseIdx_sublist _ _).mem hentry
    · rintro rfl
      exact hothers.1 (List.mem_map_of_mem hentry)
    · rintro ⟨hentry, hne⟩
      obtain rfl | hentry := List.mem_cons.mp (hperm.mem_iff.mpr hentry)
      · exact absurd hhandle hne
      · exact hentry

/-- The entry of a timeout is taken out of the list. -/
theorem Inv.stop (h : Inv s) (timeout : η) (enabled : Option Bool) :
    Inv ⟨onRemoveTimeout s.conn timeout, Function.update s.added timeout enabled,
      Function.update s.running timeout none⟩ := by
  obtain ⟨hsub, hmem⟩ := onRemoveTimeout_timers h.nodup timeout
  have hclock := clock_onRemoveTimeout s.conn timeout
  constructor
  case conn => exact inv_onRemoveTimeout h.conn timeout
  case clock => exact hclock ▸ h.clock
  case sorted => exact h.sorted.sublist hsub
  case nodup => exact h.nodup.sublist (hsub.map _)
  case entries =>
    intro entry hentry
    dsimp only at hentry ⊢
    obtain ⟨hold, hne⟩ := (hmem entry).mp hentry
    rw [Function.update_of_ne hne, hclock]
    exact h.entries entry hold
  case running =>
    intro other t ht
    dsimp only at ht
    by_cases heq : other = timeout
    · rw [heq, Function.update_self] at ht
      cases ht
    · rw [Function.update_of_ne heq] at ht
      obtain ⟨entry, hentry, hsame⟩ := h.running other t ht
      exact ⟨entry, (hmem entry).mpr ⟨hentry, hsame ▸ heq⟩, hsame⟩
  case enabled =>
    intro other hother
    dsimp only at hother ⊢
    by_cases heq : other = timeout
    · rw [heq, Function.update_self]
    · rw [Function.update_of_ne heq] at hother ⊢
      exact h.enabled other hother

/-- The front entry is taken for handling: a period that is over, and the entry goes on to the
    end of the next one. -/
theorem Inv.take (h : Inv s) {batch : List Event}
    (hread : s.conn.timers ≠ [] → s.conn.timerfd.unread = true) :
    Inv ⟨onTimerfdEvent { s.conn with batch := batch } true, s.added, s.take⟩ := by
  have hconn : Timers.Inv (onTimerfdEvent { s.conn with batch := batch } true) :=
    inv_onTimerfdEvent (s := { s.conn with batch := batch })
      ⟨h.conn.front, h.conn.calling, h.conn.noneEarly⟩ fun _ => hread
  have hclock : (onTimerfdEvent { s.conn with batch := batch } true).clock = s.conn.clock :=
    clock_onTimerfdEvent { s.conn with batch := batch } true
  cases hs : s.conn.timers with
  | nil =>
    have hempty : (onTimerfdEvent { s.conn with batch := batch } true).timers = [] := by
      simp [onTimerfdEvent, hs]
    have htake : s.take = s.running := by simp [State.take, hs]
    rw [htake]
    exact h.frame hconn (hempty.trans hs.symm) (hclock ▸ h.clock) (by
      rw [hclock, notLater_iff_nanoseconds h.clock h.clock])
  | cons t rest =>
    have htimers := timers_onTimerfdEvent (c := { s.conn with batch := batch }) hs
    have hperm := sortTimers_perm ({ t with absTime := incAbsTime t.absTime t.repeatMsec } :: rest)
    have htake : s.take = Function.update s.running t.handle
        ((s.running t.handle).map fun t => { t with calls := t.calls + 1 }) := by
      simp [State.take, hs]
    have hnodup := h.nodup
    rw [hs, List.map_cons, List.nodup_cons] at hnodup
    obtain ⟨timer, htimer, hschedule⟩ := h.entries t (hs ▸ List.mem_cons_self)
    have hdue : t.absTime.nanoseconds ≤ s.conn.clock.nanoseconds := by
      obtain ⟨front, rest', hfront, hnotLater⟩ := h.conn.front.unread (hread (by simp [hs]))
      obtain ⟨rfl, rfl⟩ := List.cons.inj (hs.symm.trans hfront)
      exact (notLater_iff_nanoseconds hschedule.normalized h.clock).mp hnotLater
    constructor
    case conn => exact hconn
    case clock => exact hclock ▸ h.clock
    case sorted => exact htimers ▸ sorted_sortTimers _
    case nodup =>
      rw [htimers]
      exact ((hperm.map (·.handle)).nodup_iff).mpr (List.nodup_cons.mpr hnodup)
    case entries =>
      intro entry hentry
      dsimp only at hentry ⊢
      rw [htimers] at hentry
      rw [hclock, htake]
      obtain rfl | hentry := List.mem_cons.mp (hperm.mem_iff.mp hentry)
      · refine ⟨{ timer with calls := timer.calls + 1 }, ?_, hschedule.next hdue⟩
        dsimp only
        rw [Function.update_self, htimer]
        rfl
      · have hne : entry.handle ≠ t.handle := fun heq =>
          hnodup.1 (List.mem_map.mpr ⟨entry, hentry, heq⟩)
        rw [Function.update_of_ne hne]
        exact h.entries entry (hs ▸ List.mem_cons_of_mem t hentry)
    case running =>
      intro timeout found hfound
      have hsome : ∃ old, s.running timeout = some old := by
        dsimp only at hfound
        rw [htake] at hfound
        by_cases heq : timeout = t.handle
        · exact ⟨timer, heq ▸ htimer⟩
        · rw [Function.update_of_ne heq] at hfound
          exact ⟨found, hfound⟩
      obtain ⟨old, hold⟩ := hsome
      obtain ⟨entry, hentry, hsame⟩ := h.running timeout old hold
      rw [hs] at hentry
      dsimp only
      rw [htimers]
      obtain rfl | hentry := List.mem_cons.mp hentry
      · exact ⟨_, hperm.mem_iff.mpr List.mem_cons_self, hsame⟩
      · exact ⟨entry, hperm.mem_iff.mpr (List.mem_cons_of_mem _ hentry), hsame⟩
    case enabled =>
      intro timeout hnot
      have hnone := h.enabled timeout hnot
      dsimp only
      rw [htake]
      by_cases heq : timeout = t.handle
      · rw [heq, htimer] at hnone
        cases hnone
      · rw [Function.update_of_ne heq]
        exact hnone

theorem Inv.step {s' : State η} {label : Label η} (h : Inv s)
    (hallowed : ReadSucceeds s.conn label) (hstep : s.step label = some s') : Inv s' := by
  simp only [State.step, Option.ite_none_right_eq_some, Option.map_eq_some_iff] at hstep
  obtain ⟨hpromised, conn, hconn, rfl⟩ := hstep
  have hinv : Timers.Inv conn := inv_step h.conn hallowed hconn
  have hstay : s.conn.clock.NotLater s.conn.clock :=
    (notLater_iff_nanoseconds h.clock h.clock).mpr le_rfl
  cases label with
  | tick now =>
    simp only [Timers.step, Option.ite_none_right_eq_some, Option.some.injEq] at hconn
    obtain ⟨hlater, rfl⟩ := hconn
    exact h.frame hinv rfl (by simpa [State.promised] using hpromised) hlater
  | expire =>
    simp only [Timers.step] at hconn
    split at hconn
    case h_1 =>
      simp only [Option.ite_none_right_eq_some, Option.some.injEq] at hconn
      obtain ⟨-, rfl⟩ := hconn
      exact h.frame hinv rfl h.clock hstay
    case h_2 => cases hconn
  | epollWait batch =>
    simp only [Timers.step, Option.ite_none_right_eq_some, Option.some.injEq] at hconn
    obtain ⟨-, rfl⟩ := hconn
    exact h.frame hinv rfl h.clock hstay
  | handleSocket =>
    simp only [Timers.step] at hconn
    split at hconn
    case h_1 =>
      simp only [Option.ite_none_right_eq_some, Option.some.injEq] at hconn
      obtain ⟨-, rfl⟩ := hconn
      exact h.frame hinv rfl h.clock hstay
    case h_2 => cases hconn
  | timerEvent =>
    simp only [Timers.step] at hconn
    split at hconn
    case h_1 epollin rest hbatch =>
      simp only [Option.ite_none_right_eq_some, Option.some.injEq] at hconn
      obtain ⟨-, rfl⟩ := hconn
      cases epollin with
      | true =>
        have htake : s.runningAfter .timerEvent = s.take := by simp [State.runningAfter, hbatch]
        rw [htake]
        exact h.take (hallowed (by rw [hbatch]; rfl))
      | false =>
        have hnot : s.runningAfter .timerEvent = s.running := by
          simp [State.runningAfter, hbatch]
        rw [hnot]
        exact h.frame hinv rfl h.clock hstay
    case h_2 => cases hconn
  | handleTimeout =>
    simp only [Timers.step] at hconn
    split at hconn
    case h_1 =>
      cases hconn
      exact h.frame hinv rfl h.clock hstay
    case h_2 => cases hconn
  | addTimeout timeout interval enabled now =>
    simp only [Timers.step, Option.ite_none_right_eq_some, Option.some.injEq] at hconn
    obtain ⟨hlater, rfl⟩ := hconn
    simp only [State.promised, decide_eq_true_eq] at hpromised
    have hnone : s.running timeout = none := h.enabled timeout (by simp [hpromised.1])
    cases enabled with
    | true => exact h.start hnone interval hpromised.2 hlater
    | false =>
      -- A timeout that is not enabled does not run.
      have hset : s.set timeout interval false now = s.running := by
        rw [State.set, if_neg Bool.false_ne_true, ← hnone, Function.update_eq_self]
      simp only [State.addedAfter, State.runningAfter, hset]
      refine ⟨hinv, h.clock, h.sorted, h.nodup, h.entries, h.running, fun other hother => ?_⟩
      by_cases heq : other = timeout
      · exact heq ▸ hnone
      · dsimp only at hother
        rw [Function.update_of_ne heq] at hother
        exact h.enabled other hother
  | removeTimeout timeout =>
    obtain rfl := Option.some.inj hconn
    exact h.stop timeout none
  | toggledTimeout timeout interval enabled now =>
    simp only [Timers.step, Option.ite_none_right_eq_some, Option.some.injEq] at hconn
    obtain ⟨hlater, rfl⟩ := hconn
    simp only [State.promised, decide_eq_true_eq] at hpromised
    cases enabled with
    | true =>
      have hnone : s.running timeout = none := h.enabled timeout (by simp [hpromised.1])
      exact h.start hnone interval hpromised.2 hlater
    | false => exact h.stop timeout (some false)

end Steps

/-! ## Runs -/

theorem inv_initial {clock : Timespec} (hclock : clock.Normalized) :
    Inv (⟨{ (Timers.initial : Timers.State η) with clock := clock }, fun _ => none,
      fun _ => none⟩ : State η) where
  conn := ⟨⟨by simp [Timers.initial], by simp [Timers.initial]⟩, by simp [Timers.initial],
    by simp [NoneEarly, Timers.initial]⟩
  clock := hclock
  sorted := .nil
  nodup := .nil
  entries := nofun
  running := nofun
  enabled _ _ := rfl

/-- In every run in which `on_timerfd_event` finds an expiry to read whenever there is a timeout
    to handle, a timeout has never been handled more often than its periods are over, and exactly
    that often whenever no timeout is due. -/
theorem periods_of_reachable [DecidableEq η] {s : State η}
    (h : (system η).ReachableWhen (fun s => ReadSucceeds s.conn) s) {timeout : η} {t : Timer}
    (ht : s.running timeout = some t) :
    t.calls ≤ t.periods s.conn.clock ∧
      ((∀ front ∈ s.conn.timers.head?, s.conn.clock.less front.absTime) →
        t.calls = t.periods s.conn.clock) := by
  have hinv : Inv s := by
    apply h.invariant
    case initial =>
      rintro _ ⟨clock, hclock, rfl⟩
      exact inv_initial hclock
    case preserved => exact fun _ _ _ => Inv.step
  obtain ⟨entry, hentry, rfl⟩ := hinv.running timeout t ht
  obtain ⟨t', ht', hschedule⟩ := hinv.entries entry hentry
  obtain rfl := Option.some.inj (ht.symm.trans ht')
  refine ⟨hschedule.calls.1, fun hnone => hschedule.calls.2 ?_⟩
  -- The front is not later than the entry.
  cases hs : s.conn.timers with
  | nil => simp [hs] at hentry
  | cons front rest =>
    have hfront : front.absTime.NotLater entry.absTime := by
      have hsorted := hinv.sorted
      rw [hs] at hsorted hentry
      obtain rfl | hentry := List.mem_cons.mp hentry
      · exact (notLater_iff_nanoseconds hschedule.normalized hschedule.normalized).mpr le_rfl
      · exact (List.pairwise_cons.mp hsorted).1 entry hentry
    have hless := hnone front (by simp [hs])
    by_contra hdue
    have hlate := (notLater_iff_nanoseconds hschedule.normalized hinv.clock).mpr (not_lt.mp hdue)
    exact Bool.false_ne_true ((hfront.trans hlate).symm.trans hless)

/-- The thread is busy for three and a half periods; then it catches up. -/
def busyRun : List (Label Nat) :=
  let handle : List (Label Nat) :=
    [.expire, .epollWait [.timer true], .timerEvent, .handleTimeout]
  [.addTimeout 1 100 true ⟨0, 950000000⟩, .tick ⟨1, 300000000⟩] ++ handle ++ handle ++ handle

def busyStart : State Nat :=
  ⟨{ (Timers.initial : Timers.State Nat) with clock := ⟨0, 950000000⟩ }, fun _ => none,
    fun _ => none⟩

theorem busyRun_ends :
    ((system Nat).run busyStart busyRun).map
        (fun s => (s.conn.clock, s.conn.timers, s.running 1)) =
      some (⟨1, 300000000⟩, [⟨1, ⟨1, 350000000⟩, 100⟩], some ⟨⟨0, 950000000⟩, 100, 3⟩) := by
  decide

theorem busyRun_allowed :
    (system Nat).AllowedRun (fun s => ReadSucceeds s.conn) busyStart busyRun :=
  ⟨trivial, trivial, trivial, trivial, fun _ _ => rfl, trivial, trivial, trivial, fun _ _ => rfl,
    trivial, trivial, trivial, fun _ _ => rfl, trivial, trivial⟩

theorem busyRun_periods :
    ∃ s t, (system Nat).run busyStart busyRun = some s ∧ s.running 1 = some t ∧ t.calls = 3 ∧
      t.calls = t.periods s.conn.clock := by
  obtain ⟨s, hrun, hends⟩ := Option.map_eq_some_iff.mp busyRun_ends
  obtain ⟨hclock, htimers, hrunning⟩ := Prod.mk.inj hends |>.imp_right Prod.mk.inj
  have hreachable : (system Nat).ReachableWhen (fun s => ReadSucceeds s.conn) s :=
    TransitionSystem.reachableWhen_of_run busyRun ⟨⟨0, 950000000⟩, by decide, rfl⟩
      busyRun_allowed hrun
  refine ⟨s, _, hrun, hrunning, rfl, (periods_of_reachable hreachable hrunning).2 ?_⟩
  rw [htimers, hclock]
  decide

end Ultrabus.PeriodicTimers
