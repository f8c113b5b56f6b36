import Mathlib.Data.List.Perm.Basic
import Ultrabus.Connection.Timers

/-! # The timer list and its descriptor

`on_add_timeout`, `on_remove_timeout`, `on_toggled_timeout` and `on_timerfd_event` in any
order, next to what libdbus knows: which timeouts it has added and not removed, and which of
them are enabled.  A timeout is added once before it is removed, and a toggle turns its
enabled state round.

Nothing here depends on the expiry of the descriptor, so that its `armed` is what the last
`timerfd_settime` has programmed. -/

namespace Ultrabus.Timers

variable {η : Type}

/-! ## Normalized times -/

/-- The time stamps that `clock_gettime` returns. -/
def Timespec.Normalized (t : Timespec) : Prop :=
  0 ≤ t.sec ∧ 0 ≤ t.nsec ∧ t.nsec < nanosecondsInASecond

instance (t : Timespec) : Decidable t.Normalized := inferInstanceAs (Decidable (_ ∧ _ ∧ _))

/-- The time since the origin of the clock. -/
def Timespec.nanoseconds (t : Timespec) : Int := t.sec * nanosecondsInASecond + t.nsec

theorem incSeconds_spec {turns msec : Nat} (hturns : msec ≤ turns) (abs : Timespec) :
    (incSeconds turns abs msec).1.nsec = abs.nsec ∧
      (incSeconds turns abs msec).2 < millisecondsInASecond ∧
      (incSeconds turns abs msec).1.sec * millisecondsInASecond + (incSeconds turns abs msec).2 =
        abs.sec * millisecondsInASecond + msec := by
  induction turns generalizing abs msec with
  | zero =>
    obtain rfl : msec = 0 := by omega
    exact ⟨rfl, Nat.zero_lt_succ _, rfl⟩
  | succ turns ih =>
    simp only [incSeconds]
    split
    case isTrue h =>
      simp only [millisecondsInASecond] at h ih ⊢
      obtain ⟨hnsec, hlt, hsum⟩ :=
        @ih (msec - 1000) (by omega) { abs with sec := abs.sec + 1 }
      refine ⟨hnsec, hlt, ?_⟩
      simp only at hsum
      omega
    case isFalse h =>
      exact ⟨rfl, by omega, rfl⟩

theorem incAbsTime_nanoseconds {abs : Timespec}
    (h : 0 ≤ abs.nsec ∧ abs.nsec < nanosecondsInASecond) (msec : Nat) :
    (0 ≤ (incAbsTime abs msec).nsec ∧ (incAbsTime abs msec).nsec < nanosecondsInASecond) ∧
      (incAbsTime abs msec).nanoseconds =
        abs.nanoseconds + msec * nanosecondsInAMilliseconds := by
  obtain ⟨hkeep, hrest, hsum⟩ := incSeconds_spec (Nat.le_refl msec) abs
  simp only [incAbsTime]
  generalize incSeconds msec abs msec = result at *
  obtain ⟨t, rest⟩ := result
  dsimp only at *
  split
  all_goals
    simp only [Timespec.nanoseconds, nanosecondsInASecond, nanosecondsInAMilliseconds,
      millisecondsInASecond] at *
    omega

/-- `inc_abs_time` adds the milliseconds and keeps the time normalized. -/
theorem incAbsTime_spec {abs : Timespec} (h : abs.Normalized) (msec : Nat) :
    (incAbsTime abs msec).Normalized ∧
      (incAbsTime abs msec).nanoseconds =
        abs.nanoseconds + msec * nanosecondsInAMilliseconds := by
  obtain ⟨hnsec, hnano⟩ := incAbsTime_nanoseconds h.2 msec
  refine ⟨⟨?_, hnsec⟩, hnano⟩
  simp only [Timespec.Normalized, Timespec.nanoseconds, nanosecondsInASecond,
    nanosecondsInAMilliseconds] at *
  omega

theorem Timespec.Normalized.nanoseconds_nonneg {t : Timespec} (h : t.Normalized) :
    0 ≤ t.nanoseconds := by
  obtain ⟨hsec, hnsec, -⟩ := h
  simp only [nanoseconds, nanosecondsInASecond]
  omega

/-- A time at which a timeout can be due: `timerfd_settime` does not take it for zero. -/
def Timespec.Due (t : Timespec) : Prop := t.Normalized ∧ 0 < t.nanoseconds

theorem due_incAbsTime {abs : Timespec} (h : abs.Normalized) {msec : Nat} (hmsec : 0 < msec) :
    (incAbsTime abs msec).Due := by
  obtain ⟨hnormalized, hnano⟩ := incAbsTime_spec h msec
  refine ⟨hnormalized, ?_⟩
  have hnonneg := h.nanoseconds_nonneg
  simp only [nanosecondsInAMilliseconds] at hnano
  omega

theorem armed_settime {t : Timespec} (h : t.Due) : (Timerfd.settime t).armed = some t := by
  have hne : t ≠ ⟨0, 0⟩ := by
    rintro rfl
    exact absurd h.2 (by decide)
  simp only [Timerfd.settime, if_neg hne]

/-! ## Orders of the list -/

theorem Timespec.notLater_of_less {a b : Timespec} (h : a.less b = true) : a.NotLater b := by
  rw [notLater_iff]
  simp only [less] at h
  split at h <;> simp only [decide_eq_true_eq] at h <;> omega

theorem Timespec.NotLater.total (a b : Timespec) : a.NotLater b ∨ b.NotLater a := by
  rw [notLater_iff, notLater_iff]
  omega

/-- The list is sorted by absolute time. -/
def SortedTimers (timers : List (TimerEntry η)) : Prop :=
  timers.Pairwise fun a b => a.absTime.NotLater b.absTime

/-- Inserting an entry. -/
theorem emplaceTimer_perm (entry : TimerEntry η) (timers : List (TimerEntry η)) :
    (emplaceTimer entry timers).1.Perm (entry :: timers) := by
  induction timers with
  | nil => exact .refl _
  | cons e rest ih =>
    simp only [emplaceTimer]
    split
    · exact .refl _
    · exact (ih.cons e).trans (.swap entry e rest)

theorem sorted_emplaceTimer {entry : TimerEntry η} {timers : List (TimerEntry η)}
    (h : SortedTimers timers) : SortedTimers (emplaceTimer entry timers).1 := by
  induction timers with
  | nil => exact List.pairwise_singleton _ _
  | cons e rest ih =>
    obtain ⟨hfront, hrest⟩ := List.pairwise_cons.mp h
    simp only [emplaceTimer]
    split
    case isTrue hless =>
      -- Everything from here on is later than the new entry.
      have hle := Timespec.notLater_of_less hless
      refine List.pairwise_cons.mpr ⟨fun other hother => ?_, h⟩
      obtain rfl | hother := List.mem_cons.mp hother
      · exact hle
      · exact hle.trans (hfront other hother)
    case isFalse hless =>
      refine List.pairwise_cons.mpr ⟨fun other hother => ?_, ih hrest⟩
      obtain rfl | hother := List.mem_cons.mp ((emplaceTimer_perm entry rest).mem_iff.mp hother)
      · exact Bool.eq_false_iff.mpr hless
      · exact hfront other hother

theorem sortTimers_perm (timers : List (TimerEntry η)) : (sortTimers timers).Perm timers :=
  List.perm_insertionSort _ _

theorem sorted_sortTimers (timers : List (TimerEntry η)) : SortedTimers (sortTimers timers) := by
  have : Std.Total fun a b : TimerEntry η => compareTimerEntry b a = false :=
    ⟨fun a b => Timespec.NotLater.total a.absTime b.absTime⟩
  have : IsTrans (TimerEntry η) fun a b => compareTimerEntry b a = false :=
    ⟨fun _ _ _ => Timespec.NotLater.trans⟩
  exact List.pairwise_insertionSort (fun a b => compareTimerEntry b a = false) timers

/-! ## What each function keeps -/

/-- What there is to say of the list and the descriptor alone. -/
structure ListInv (c : Timers.State η) : Prop where
  sorted : SortedTimers c.timers
  due : ∀ entry ∈ c.timers, entry.absTime.Due ∧ 0 < entry.repeatMsec
  programmed : c.timerfd.armed = c.timers.head?.map (·.absTime)

theorem listInv_onAddTimeout {c : Timers.State η} (h : ListInv c) (timeout : η) (interval : Nat)
    {now : Timespec} (hnow : now.Normalized) :
    ListInv (onAddTimeout c timeout interval true now) := by
  simp only [onAddTimeout, Bool.not_true, Bool.false_eq_true, if_false]
  have hrepeat : 0 < if interval = 0 then 1 else interval := by
    split <;> omega
  generalize (if interval = 0 then 1 else interval) = repeatMsec at *
  have hdue := due_incAbsTime hnow hrepeat
  generalize hentry : TimerEntry.mk timeout (incAbsTime now repeatMsec) repeatMsec = entry
  have hperm := emplaceTimer_perm entry c.timers
  refine ⟨sorted_emplaceTimer h.sorted, fun e he => ?_, ?_⟩
  · obtain rfl | he := List.mem_cons.mp (hperm.mem_iff.mp he)
    · subst hentry
      exact ⟨hdue, hrepeat⟩
    · exact h.due e he
  · rcases emplaceTimer_front entry c.timers with
      ⟨hfront, htimers⟩ | ⟨hfront, front, rest, rest', hs, htimers⟩
    · -- The new entry is the front, and the descriptor is set for it.
      subst hentry
      simp only [hfront, htimers, if_true, List.head?_cons, Option.map_some]
      exact armed_settime hdue
    · have hprogrammed := h.programmed
      simp only [hs, List.head?_cons] at hprogrammed
      simp only [hfront, htimers, Bool.false_eq_true, if_false, List.head?_cons, hprogrammed]

/-- What `on_timerfd_event` does with the front entry. -/
theorem onTimerfdEvent_cases (c : Timers.State η) (epollin : Bool) :
    ((onTimerfdEvent c epollin).timers = c.timers ∧
      (onTimerfdEvent c epollin).timerfd.armed = c.timerfd.armed) ∨
    ∃ t rest front rest', c.timers = t :: rest ∧
      sortTimers ({ t with absTime := incAbsTime t.absTime t.repeatMsec } :: rest) =
        front :: rest' ∧
      (onTimerfdEvent c epollin).timers = front :: rest' ∧
      (onTimerfdEvent c epollin).timerfd = .settime front.absTime := by
  unfold onTimerfdEvent
  cases epollin with
  | false => exact .inl ⟨rfl, rfl⟩
  | true =>
    cases htimers : c.timers with
    | nil => exact .inl ⟨rfl, rfl⟩
    | cons t rest =>
      right
      cases hsort : sortTimers
          ({ t with absTime := incAbsTime t.absTime t.repeatMsec } :: rest) with
      | nil =>
        -- Sorting does not lose the entry.
        have hlength := (sortTimers_perm
          ({ t with absTime := incAbsTime t.absTime t.repeatMsec } :: rest)).length_eq
        rw [hsort] at hlength
        cases hlength
      | cons front rest' =>
        refine ⟨t, rest, front, rest', rfl, hsort, ?_, ?_⟩
        · simp only [Bool.not_true, Bool.false_eq_true, if_false, hsort]
        · simp only [Bool.not_true, Bool.false_eq_true, if_false, hsort]

theorem listInv_onTimerfdEvent {c : Timers.State η} (h : ListInv c) (epollin : Bool) :
    ListInv (onTimerfdEvent c epollin) := by
  obtain ⟨htimers, harmed⟩ | ⟨t, rest, front, rest', hs, hsort, htimers, htimerfd⟩ :=
    onTimerfdEvent_cases c epollin
  · exact ⟨htimers ▸ h.sorted, htimers ▸ h.due, harmed.trans (htimers ▸ h.programmed)⟩
  · have hdue : ∀ e ∈ front :: rest', e.absTime.Due ∧ 0 < e.repeatMsec := by
      intro e he
      rw [← hsort, (sortTimers_perm _).mem_iff] at he
      obtain rfl | he := List.mem_cons.mp he
      · obtain ⟨habs, hrepeat⟩ := h.due t (hs ▸ List.mem_cons_self)
        exact ⟨due_incAbsTime habs.1 hrepeat, hrepeat⟩
      · exact h.due e (hs ▸ List.mem_cons_of_mem t he)
    refine ⟨htimers ▸ hsort ▸ sorted_sortTimers _, htimers ▸ hdue, ?_⟩
    rw [htimers, htimerfd]
    exact armed_settime (hdue front List.mem_cons_self).1

variable [DecidableEq η]

theorem countP_onAddTimeout (c : Timers.State η) (timeout other : η) (interval : Nat)
    (now : Timespec) :
    (onAddTimeout c timeout interval true now).timers.countP (·.handle = other) =
      c.timers.countP (·.handle = other) + if timeout = other then 1 else 0 := by
  simp only [onAddTimeout, Bool.not_true, Bool.false_eq_true, if_false]
  rw [(emplaceTimer_perm _ c.timers).countP_eq, List.countP_cons]
  simp only [decide_eq_true_eq]

/-- What `on_remove_timeout` does with the first entry of the timeout. -/
theorem onRemoveTimeout_cases (c : Timers.State η) (timeout : η) :
    (c.timers.findIdx? (·.handle = timeout) = none ∧ onRemoveTimeout c timeout = c) ∨
    ∃ pos, c.timers.findIdx? (·.handle = timeout) = some pos ∧
      (onRemoveTimeout c timeout).timers = c.timers.eraseIdx pos ∧
      ((c.timers.eraseIdx pos = [] ∧ (onRemoveTimeout c timeout).timerfd = .settime ⟨0, 0⟩) ∨
      ∃ front rest, c.timers.eraseIdx pos = front :: rest ∧
        (onRemoveTimeout c timeout).timerfd =
          if pos = 0 then .settime front.absTime else c.timerfd) := by
  unfold onRemoveTimeout
  cases hpos : c.timers.findIdx? (·.handle = timeout) with
  | none => exact .inl ⟨rfl, rfl⟩
  | some pos =>
    refine .inr ⟨pos, rfl, ?_⟩
    dsimp only
    cases htimers : c.timers.eraseIdx pos with
    | nil => exact ⟨rfl, .inl ⟨rfl, rfl⟩⟩
    | cons front rest => exact ⟨rfl, .inr ⟨front, rest, rfl, rfl⟩⟩

theorem listInv_onRemoveTimeout {c : Timers.State η} (h : ListInv c) (timeout : η) :
    ListInv (onRemoveTimeout c timeout) := by
  obtain ⟨-, heq⟩ | ⟨pos, -, htimers, htimerfd⟩ := onRemoveTimeout_cases c timeout
  · rw [heq]
    exact h
  · have hsub := List.eraseIdx_sublist c.timers pos
    have hdue := fun e he => h.due e (hsub.mem he)
    refine ⟨htimers ▸ h.sorted.sublist hsub, htimers ▸ hdue, ?_⟩
    rw [htimers]
    obtain ⟨hempty, htimerfd⟩ | ⟨front, rest, hcons, htimerfd⟩ := htimerfd
    · -- The last entry is gone.
      rw [hempty, htimerfd]
      rfl
    · rw [hcons] at hdue ⊢
      rw [htimerfd]
      cases pos with
      | zero => exact armed_settime (hdue front List.mem_cons_self).1
      | succ pos =>
        -- The front entry is the same as before.
        have hprogrammed := h.programmed
        cases hs : c.timers with
        | nil => simp [hs] at hcons
        | cons e timers =>
          rw [hs, List.eraseIdx_cons_succ, List.cons.injEq] at hcons
          rw [hs] at hprogrammed
          rw [← hcons.1]
          exact hprogrammed

/-- One entry of the timeout goes, if there is one. -/
theorem countP_onRemoveTimeout (c : Timers.State η) (timeout other : η) :
    (onRemoveTimeout c timeout).timers.countP (·.handle = other) =
      c.timers.countP (·.handle = other) - if timeout = other then 1 else 0 := by
  obtain ⟨hnone, heq⟩ | ⟨pos, hpos, htimers, -⟩ := onRemoveTimeout_cases c timeout
  · rw [heq]
    split
    case isTrue hsame =>
      have hzero : c.timers.countP (·.handle = other) = 0 := by
        rw [List.countP_eq_zero]
        intro e he
        rw [List.findIdx?_eq_none_iff] at hnone
        simpa [hsame] using hnone e he
      omega
    case isFalse => rfl
  · obtain ⟨hlt, hhandle, -⟩ := List.findIdx?_eq_some_iff_getElem.mp hpos
    have hcount := (List.getElem_cons_eraseIdx_perm hlt).countP_eq fun e => e.handle = other
    simp only [List.countP_cons, decide_eq_true_eq] at hhandle hcount
    rw [hhandle] at hcount
    rw [htimers]
    omega

/-- Every timeout keeps its entries. -/
theorem countP_onTimerfdEvent (c : Timers.State η) (epollin : Bool) (timeout : η) :
    (onTimerfdEvent c epollin).timers.countP (·.handle = timeout) =
      c.timers.countP (·.handle = timeout) := by
  obtain ⟨htimers, -⟩ | ⟨t, rest, front, rest', hs, hsort, htimers, -⟩ :=
    onTimerfdEvent_cases c epollin
  · rw [htimers]
  · rw [htimers, ← hsort, (sortTimers_perm _).countP_eq, hs, List.countP_cons, List.countP_cons]

end Ultrabus.Timers

namespace Ultrabus.TimerList

open Timers

variable {η : Type} [DecidableEq η]

/-! ## Runs -/

structure State (η : Type) where
  conn : Timers.State η
  -- the timeouts that are added and not removed, with whether they are enabled
  added : η → Option Bool

inductive Label (η : Type) where
  | addTimeout (timeout : η) (interval : Nat) (enabled : Bool) (now : Timespec)
  | removeTimeout (timeout : η)
  | toggledTimeout (timeout : η) (interval : Nat) (now : Timespec)
  | timerfdEvent (epollin : Bool)
deriving DecidableEq, Repr

def step (s : State η) : Label η → Option (State η)
  | .addTimeout timeout interval enabled now =>
    if s.added timeout = none ∧ now.Normalized then
      some {
        conn := onAddTimeout s.conn timeout interval enabled now
        added := Function.update s.added timeout (some enabled) }
    else none
  | .removeTimeout timeout =>
    if s.added timeout ≠ none then
      some {
        conn := onRemoveTimeout s.conn timeout
        added := Function.update s.added timeout none }
    else none
  | .toggledTimeout timeout interval now =>
    match s.added timeout with
    | some enabled =>
      if now.Normalized then
        some {
          conn := onToggledTimeout s.conn timeout interval (!enabled) now
          added := Function.update s.added timeout (some (!enabled)) }
      else none
    | none => none
  | .timerfdEvent epollin => some { s with conn := onTimerfdEvent s.conn epollin }

def initial : State η where
  conn := Timers.initial
  added _ := none

def system (η : Type) [DecidableEq η] : TransitionSystem (State η) (Label η) where
  init s := s = initial
  step := step

/-- The list is sorted, it has one entry for every timeout that is added and enabled and no
    other, all times are normalized, and the descriptor is programmed for the front entry,
    or disarmed if there is none. -/
structure InStep (s : State η) : Prop where
  sorted : SortedTimers s.conn.timers
  entries : ∀ timeout, s.conn.timers.countP (·.handle = timeout) =
    if s.added timeout = some true then 1 else 0
  normalized : ∀ entry ∈ s.conn.timers, entry.absTime.Normalized
  programmed : s.conn.timerfd.armed = s.conn.timers.head?.map (·.absTime)

/-! ## Runs keep the list and the descriptor in step -/

structure Inv (s : State η) : Prop where
  list : ListInv s.conn
  entries : ∀ timeout, s.conn.timers.countP (·.handle = timeout) =
    if s.added timeout = some true then 1 else 0

theorem inv_initial : Inv (initial : State η) where
  list := ⟨List.Pairwise.nil, fun _ he => absurd he List.not_mem_nil, rfl⟩
  entries _ := rfl

/-- An added timeout that is not enabled has no entry, and gets one. -/
theorem Inv.onAddTimeout {s : State η} (h : Inv s) {timeout : η}
    (hnot : s.added timeout ≠ some true) (interval : Nat) {now : Timespec}
    (hnow : now.Normalized) :
    Inv ⟨Timers.onAddTimeout s.conn timeout interval true now,
      Function.update s.added timeout (some true)⟩ where
  list := listInv_onAddTimeout h.list timeout interval hnow
  entries other := by
    have hentries := h.entries other
    simp only [countP_onAddTimeout, hentries]
    by_cases hsame : other = timeout
    · subst hsame
      simp [hnot]
    · simp [hsame, Ne.symm hsame]

/-- A timeout that is removed or disabled loses its entry. -/
theorem Inv.onRemoveTimeout {s : State η} (h : Inv s) (timeout : η) {enabled : Option Bool}
    (hnot : enabled ≠ some true) :
    Inv ⟨Timers.onRemoveTimeout s.conn timeout, Function.update s.added timeout enabled⟩ where
  list := listInv_onRemoveTimeout h.list timeout
  entries other := by
    have hentries := h.entries other
    simp only [countP_onRemoveTimeout, hentries]
    by_cases hsame : other = timeout
    · subst hsame
      simp only [if_true, Function.update_self, if_neg hnot]
      split <;> rfl
    · simp [hsame, Ne.symm hsame]

theorem inv_step {s s' : State η} {a : Label η} (h : Inv s) (hstep : step s a = some s') :
    Inv s' := by
  cases a with
  | addTimeout timeout interval enabled now =>
    simp only [step, Option.ite_none_right_eq_some, Option.some.injEq] at hstep
    obtain ⟨⟨hnone, hnow⟩, rfl⟩ := hstep
    cases enabled with
    | true => exact h.onAddTimeout (by simp [hnone]) interval hnow
    | false =>
      -- A timeout that is not enabled is left out.
      refine ⟨h.list, fun other => ?_⟩
      have hentries := h.entries other
      by_cases hsame : other = timeout
      · subst hsame
        simpa [hnone, onAddTimeout] using hentries
      · simpa [hsame, onAddTimeout] using hentries
  | removeTimeout timeout =>
    simp only [step, Option.ite_none_right_eq_some, Option.some.injEq] at hstep
    obtain ⟨-, rfl⟩ := hstep
    exact h.onRemoveTimeout timeout (by simp)
  | toggledTimeout timeout interval now =>
    simp only [step] at hstep
    split at hstep
    case h_1 enabled hadded =>
      simp only [Option.ite_none_right_eq_some, Option.some.injEq] at hstep
      obtain ⟨hnow, rfl⟩ := hstep
      cases enabled with
      | false => exact h.onAddTimeout (by simp [hadded]) interval hnow
      | true => exact h.onRemoveTimeout timeout (by simp)
    case h_2 => cases hstep
  | timerfdEvent epollin =>
    obtain rfl := Option.some.inj hstep
    refine ⟨listInv_onTimerfdEvent h.list epollin, fun timeout => ?_⟩
    rw [countP_onTimerfdEvent]
    exact h.entries timeout

/-- In every run the list and the descriptor are in step. -/
theorem inStep_of_reachable {s : State η} (h : (system η).Reachable s) : InStep s := by
  have hinv : Inv s := by
    apply h.invariant
    case initial =>
      rintro _ rfl
      exact inv_initial
    case preserved => exact fun _ _ _ => inv_step
  obtain ⟨⟨hsorted, hdue, hprogrammed⟩, hentries⟩ := hinv
  exact ⟨hsorted, hentries, fun e he => (hdue e he).1.1, hprogrammed⟩

/-- Two timeouts that are due at the same time; the first one fires, and the second one is
    disabled. -/
def tieRun : List (Label Nat) :=
  [.addTimeout 1 300 true ⟨5, 700000000⟩, .addTimeout 2 300 true ⟨5, 700000000⟩,
    .timerfdEvent true, .toggledTimeout 2 300 ⟨6, 0⟩]

theorem tieRun_inStep :
    ∃ s, (system Nat).run initial tieRun = some s ∧ InStep s ∧
      s.conn.timerfd.armed = some ⟨6, 300000000⟩ := by
  have hrun : (system Nat).run initial tieRun = some _ := rfl
  exact ⟨_, hrun, inStep_of_reachable (TransitionSystem.reachable_of_run _ rfl hrun), rfl⟩

end Ultrabus.TimerList
