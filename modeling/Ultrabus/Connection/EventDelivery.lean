import Ultrabus.Connection.Watches
import Ultrabus.Lib.Flags

/-! # Delivery of events

`handle_epoll_result` offers the events of a descriptor to its watches, one after the other.
Every watch takes out of the events what its mask has, and hangups and errors whatever its
mask is, also when it is disabled and the events are not handed to it. -/

namespace Ultrabus.Watches

def epollErr : UInt32 := 8
def epollHup : UInt32 := 16
def dbusWatchError : UInt32 := 4
def dbusWatchHangup : UInt32 := 8

def epollEventsToDbusEvents (epollEvents : UInt32) : UInt32 :=
  (if epollEvents &&& epollIn ≠ 0 then dbusWatchReadable else 0) |||
    (if epollEvents &&& epollOut ≠ 0 then dbusWatchWritable else 0) |||
    (if epollEvents &&& epollErr ≠ 0 then dbusWatchError else 0) |||
    (if epollEvents &&& epollHup ≠ 0 then dbusWatchHangup else 0)

variable {ω : Type}

/-- `connection::handle_io_watch_event`: the call of `dbus_watch_handle`, if there is one, and
    what is left of the events. -/
def handleIoWatchEvent (enabled : ω → Bool) (watch : ω) (events eventMask : UInt32) :
    Option (ω × UInt32) × UInt32 :=
  let triggered := events &&& (eventMask ||| epollHup ||| epollErr)
  if triggered = 0 then (none, events)
  else
    let dbusEvents := epollEventsToDbusEvents triggered
    if dbusEvents = 0 then (none, events)
    else (if enabled watch then some (watch, dbusEvents) else none, events &&& ~~~triggered)

/-- The loop of `connection::handle_epoll_result` over the watches of a descriptor: all calls of
    `dbus_watch_handle`. -/
def handleEvents (enabled : ω → Bool) : UInt32 → Entries ω → List (ω × UInt32)
  | _, [] => []
  | events, (watch, eventMask) :: rest =>
    let (call, events) := handleIoWatchEvent enabled watch events eventMask
    call.toList ++ handleEvents enabled events rest

/-- What `epoll` reports of a descriptor and libdbus wants to know. -/
inductive Event where
  | readable | writable | error | hangup
deriving DecidableEq, Repr

namespace Event

def epoll : Event → UInt32
  | .readable => epollIn
  | .writable => epollOut
  | .error => epollErr
  | .hangup => epollHup

def dbus : Event → UInt32
  | .readable => dbusWatchReadable
  | .writable => dbusWatchWritable
  | .error => dbusWatchError
  | .hangup => dbusWatchHangup

/-- A watch with the flags wants the event: every watch does when it is an error or a hangup. -/
def AskedBy (flags : UInt32) : Event → Prop
  | .readable => flags &&& dbusWatchReadable ≠ 0
  | .writable => flags &&& dbusWatchWritable ≠ 0
  | .error | .hangup => True

/-- A watch with the mask takes the event out of the reported ones. -/
def TakenBy (eventMask : UInt32) (e : Event) : Prop :=
  (eventMask ||| epollHup ||| epollErr) &&& e.epoll ≠ 0

instance (eventMask : UInt32) (e : Event) : Decidable (e.TakenBy eventMask) :=
  inferInstanceAs (Decidable (_ ≠ _))

end Event

/-- Every reported event that some enabled watch asked for is handed to one that did. -/
def NoEventLost (info : Info ω) (enabled : ω → Bool) (events : UInt32) (entries : Entries ω) :
    Prop :=
  ∀ e : Event, events &&& e.epoll ≠ 0 →
    (∃ entry ∈ entries, enabled entry.1 = true ∧ e.AskedBy (info.flags entry.1)) →
      ∃ call ∈ handleEvents enabled events entries,
        call.2 &&& e.dbus ≠ 0 ∧ enabled call.1 = true ∧ e.AskedBy (info.flags call.1)

/-- The first watch whose mask takes an event that some enabled watch asked for is itself
    enabled and asked for it. -/
def FirstTakerAsks (info : Info ω) (enabled : ω → Bool) (events : UInt32) (entries : Entries ω) :
    Prop :=
  ∀ e : Event, events &&& e.epoll ≠ 0 →
    (∃ entry ∈ entries, enabled entry.1 = true ∧ e.AskedBy (info.flags entry.1)) →
      ∃ entry, entries.find? (fun entry => e.TakenBy entry.2) = some entry ∧
        enabled entry.1 = true ∧ e.AskedBy (info.flags entry.1)

/-! ## Flags -/

theorem Event.epoll_isFlag (e : Event) : e.epoll.IsFlag := by
  cases e with
  | readable => exact ⟨0, by omega, rfl⟩
  | writable => exact ⟨2, by omega, rfl⟩
  | error => exact ⟨3, by omega, rfl⟩
  | hangup => exact ⟨4, by omega, rfl⟩

theorem Event.dbus_isFlag (e : Event) : e.dbus.IsFlag := by
  cases e with
  | readable => exact ⟨0, by omega, rfl⟩
  | writable => exact ⟨1, by omega, rfl⟩
  | error => exact ⟨2, by omega, rfl⟩
  | hangup => exact ⟨3, by omega, rfl⟩

theorem ite_and_ne_zero (c : Prop) [Decidable c] (x flag : UInt32) :
    (if c then x else 0) &&& flag ≠ 0 ↔ c ∧ x &&& flag ≠ 0 := by
  by_cases h : c
  · simp [h]
  · simp [h]

theorem Event.dbus_and_dbus_iff (e e' : Event) : e.dbus &&& e'.dbus ≠ 0 ↔ e = e' := by
  cases e <;> cases e' <;> decide

/-- The conversion keeps each event apart from the others. -/
theorem epollEventsToDbusEvents_iff (e : Event) (epollEvents : UInt32) :
    epollEventsToDbusEvents epollEvents &&& e.dbus ≠ 0 ↔ epollEvents &&& e.epoll ≠ 0 := by
  have hparts : epollEventsToDbusEvents epollEvents =
      (if epollEvents &&& Event.readable.epoll ≠ 0 then Event.readable.dbus else 0) |||
        (if epollEvents &&& Event.writable.epoll ≠ 0 then Event.writable.dbus else 0) |||
        (if epollEvents &&& Event.error.epoll ≠ 0 then Event.error.dbus else 0) |||
        (if epollEvents &&& Event.hangup.epoll ≠ 0 then Event.hangup.dbus else 0) := rfl
  simp only [hparts, e.dbus_isFlag.or_iff, ite_and_ne_zero, Event.dbus_and_dbus_iff]
  cases e with
  | readable => simp
  | writable => simp
  | error => simp
  | hangup => simp

/-! ## The loop -/

section Loop

variable (enabled : ω → Bool)

theorem triggered_iff (e : Event) (events eventMask : UInt32) :
    (events &&& (eventMask ||| epollHup ||| epollErr)) &&& e.epoll ≠ 0 ↔
      events &&& e.epoll ≠ 0 ∧ e.TakenBy eventMask := by
  rw [e.epoll_isFlag.and_iff, Event.TakenBy]

/-- One watch takes what it takes out of the events, and gets it if it is enabled. -/
theorem handleIoWatchEvent_iff (e : Event) (P : ω → Prop) (watch : ω)
    (events eventMask : UInt32) :
    ((∃ call, (handleIoWatchEvent enabled watch events eventMask).1 = some call ∧
        call.2 &&& e.dbus ≠ 0 ∧ P call.1) ↔
      (events &&& e.epoll ≠ 0 ∧ e.TakenBy eventMask) ∧ enabled watch = true ∧ P watch) ∧
    ((handleIoWatchEvent enabled watch events eventMask).2 &&& e.epoll ≠ 0 ↔
      events &&& e.epoll ≠ 0 ∧ ¬ e.TakenBy eventMask) := by
  have htriggered := triggered_iff e events eventMask
  have hconverted := epollEventsToDbusEvents_iff e
    (events &&& (eventMask ||| epollHup ||| epollErr))
  simp only [handleIoWatchEvent]
  generalize events &&& (eventMask ||| epollHup ||| epollErr) = triggered at *
  have hleft : events &&& e.epoll ≠ 0 ∧ ¬ e.TakenBy eventMask ↔
      events &&& e.epoll ≠ 0 ∧ ¬ triggered &&& e.epoll ≠ 0 := by
    rw [htriggered]
    tauto
  rw [← htriggered, hleft, ← e.epoll_isFlag.sdiff_iff]
  by_cases hhas : triggered &&& e.epoll ≠ 0
  · have hnone : triggered ≠ 0 := by
      rintro rfl
      simp at hhas
    have hdbus : epollEventsToDbusEvents triggered ≠ 0 := by
      intro hzero
      rw [← hconverted, hzero] at hhas
      simp at hhas
    rw [if_neg hnone, if_neg hdbus]
    refine ⟨?_, Iff.rfl⟩
    cases enabled watch with
    | false => simp
    | true => simp [hhas, hconverted.mpr hhas]
  · -- Nothing of the event is taken, whether the watch takes others or not.
    have hkept : events &&& e.epoll ≠ 0 ↔ (events &&& ~~~triggered) &&& e.epoll ≠ 0 := by
      rw [e.epoll_isFlag.sdiff_iff]
      exact (and_iff_left hhas).symm
    rw [hconverted.symm] at hhas
    split_ifs
    · exact ⟨by simp [hconverted.symm, hhas], hkept⟩
    · exact ⟨by simp [hconverted.symm, hhas], hkept⟩
    · exact ⟨by simp [hconverted.symm, hhas], Iff.rfl⟩
    · exact ⟨by simp [hconverted.symm, hhas], Iff.rfl⟩

/-- An event is handed to the first watch that takes it, if that one is enabled, and to no
    other. -/
theorem handleEvents_iff (e : Event) (P : ω → Prop) (events : UInt32) (entries : Entries ω) :
    (∃ call ∈ handleEvents enabled events entries, call.2 &&& e.dbus ≠ 0 ∧ P call.1) ↔
      events &&& e.epoll ≠ 0 ∧ ∃ entry,
        entries.find? (fun entry => e.TakenBy entry.2) = some entry ∧
          enabled entry.1 = true ∧ P entry.1 := by
  induction entries generalizing events with
  | nil => simp [handleEvents]
  | cons entry rest ih =>
    obtain ⟨watch, eventMask⟩ := entry
    obtain ⟨hcall, hleft⟩ := handleIoWatchEvent_iff enabled e P watch events eventMask
    have hrest := ih (handleIoWatchEvent enabled watch events eventMask).2
    have hcalls : handleEvents enabled events ((watch, eventMask) :: rest) =
        (handleIoWatchEvent enabled watch events eventMask).1.toList ++
          handleEvents enabled (handleIoWatchEvent enabled watch events eventMask).2 rest := rfl
    simp only [hcalls, List.mem_append, Option.mem_toList, or_and_right, exists_or]
    rw [hcall, hrest, hleft, List.find?_cons]
    by_cases htaken : e.TakenBy eventMask
    · simp [htaken]
    · simp [htaken]

/-- The event is handed to a watch that wants it exactly if the first one that takes it does. -/
theorem delivered_iff (info : Info ω) {e : Event} {events : UInt32}
    (hevent : events &&& e.epoll ≠ 0) (entries : Entries ω) :
    (∃ call ∈ handleEvents enabled events entries,
        call.2 &&& e.dbus ≠ 0 ∧ enabled call.1 = true ∧ e.AskedBy (info.flags call.1)) ↔
      ∃ entry, entries.find? (fun entry => e.TakenBy entry.2) = some entry ∧
        enabled entry.1 = true ∧ e.AskedBy (info.flags entry.1) := by
  rw [handleEvents_iff enabled e
    (fun watch => enabled watch = true ∧ e.AskedBy (info.flags watch))]
  simp only [hevent, ne_eq, not_false_eq_true, true_and, and_self_left]

end Loop

/-- For any watches, in any order, enabled or not and with any masks, and for any events:
    handling the events loses none that an enabled watch asked for exactly if the first watch
    that takes it is such a watch. -/
theorem noEventLost_iff (info : Info ω) (enabled : ω → Bool) (events : UInt32)
    (entries : Entries ω) :
    NoEventLost info enabled events entries ↔ FirstTakerAsks info enabled events entries := by
  constructor
  · intro h e hevent hasked
    exact (delivered_iff enabled info hevent entries).mp (h e hevent hasked)
  · intro h e hevent hasked
    exact (delivered_iff enabled info hevent entries).mpr (h e hevent hasked)

/-! ## Masks that are up to date -/

theorem takenBy_fdEvents_iff (e : Event) (flags : UInt32) (enabled : Bool) :
    e.TakenBy (fdEvents flags enabled) ↔
      (e = .error ∨ e = .hangup) ∨ enabled = true ∧ e.AskedBy flags := by
  have hhup : epollHup = Event.hangup.epoll := rfl
  have herr : epollErr = Event.error.epoll := rfl
  have hin : epollIn = Event.readable.epoll := rfl
  have hout : epollOut = Event.writable.epoll := rfl
  have hparts : ∀ e' : Event, e'.epoll &&& e.epoll ≠ 0 ↔ e' = e := by
    intro e'
    cases e' <;> cases e <;> decide
  simp only [Event.TakenBy, fdEvents, e.epoll_isFlag.or_iff, ite_and_ne_zero, hhup, herr, hin, hout,
    hparts]
  cases e with
  | readable => cases enabled <;> simp [Event.AskedBy]
  | writable => cases enabled <;> simp [Event.AskedBy]
  | error => simp
  | hangup => simp

theorem Event.askedBy_of_urgent {e : Event} (he : e = .error ∨ e = .hangup) (flags : UInt32) :
    e.AskedBy flags := by
  obtain rfl | rfl := he <;> trivial

/-- The first watch takes the errors and the hangups. -/
theorem find?_of_urgent {info : Info ω} {enabled : ω → Bool} {entries : Entries ω}
    (hmasks : ∀ entry ∈ entries, entry.2 = fdEvents (info.flags entry.1) (enabled entry.1))
    {e : Event} (he : e = .error ∨ e = .hangup) :
    entries.find? (fun entry => e.TakenBy entry.2) = entries.head? := by
  cases entries with
  | nil => rfl
  | cons top rest =>
    have htaken : e.TakenBy top.2 := by
      rw [hmasks top List.mem_cons_self, takenBy_fdEvents_iff]
      exact .inl he
    simp [htaken]

/-- Where every mask is that of the flags of its watch, or 0 if the watch is disabled, only errors
    and hangups can be lost, and they are if the first watch is disabled and another is not. -/
theorem noEventLost_of_masks {info : Info ω} {enabled : ω → Bool} {entries : Entries ω}
    (hmasks : ∀ entry ∈ entries, entry.2 = fdEvents (info.flags entry.1) (enabled entry.1))
    (events : UInt32) :
    NoEventLost info enabled events entries ↔
      ∀ e : Event, (e = .error ∨ e = .hangup) → events &&& e.epoll ≠ 0 →
        (∃ entry ∈ entries, enabled entry.1 = true) →
          ∃ entry, entries.head? = some entry ∧ enabled entry.1 = true := by
  constructor
  · intro h e he hevent henabled
    have hwanted := Event.askedBy_of_urgent he
    obtain ⟨entry, hmem, hentry⟩ := henabled
    have hdelivered := h e hevent ⟨entry, hmem, hentry, hwanted _⟩
    obtain ⟨first, hfirst, hon, -⟩ := (delivered_iff enabled info hevent entries).mp hdelivered
    rw [find?_of_urgent hmasks he] at hfirst
    exact ⟨first, hfirst, hon⟩
  · intro h e hevent hasked
    rw [delivered_iff enabled info hevent]
    obtain ⟨entry, hmem, hon, hwanted⟩ := hasked
    by_cases he : e = .error ∨ e = .hangup
    · obtain ⟨first, hfirst, hfirstOn⟩ := h e he hevent ⟨entry, hmem, hon⟩
      rw [← find?_of_urgent hmasks he] at hfirst
      exact ⟨first, hfirst, hfirstOn, Event.askedBy_of_urgent he _⟩
    · -- Only a watch that asked for it takes the event.
      have htaken : e.TakenBy entry.2 := by
        rw [hmasks entry hmem, takenBy_fdEvents_iff]
        exact .inr ⟨hon, hwanted⟩
      cases hfind : entries.find? (fun entry => e.TakenBy entry.2) with
      | none =>
        have hnone := List.find?_eq_none.mp hfind entry hmem
        simp [htaken] at hnone
      | some taker =>
        have htakes := List.find?_some hfind
        rw [decide_eq_true_eq, hmasks taker (List.mem_of_find?_eq_some hfind),
          takenBy_fdEvents_iff] at htakes
        exact ⟨taker, rfl, htakes.resolve_left he⟩

/-- A watch at a lower address that is disabled takes the hangup from the one that is enabled. -/
theorem hangup_lost :
    ∃ b, (system socket).Reachable b ∧ b.added 1 = some false ∧ b.added 2 = some true ∧
      b.conn.fdMap 7 = some [(1, 0), (2, epollOut)] ∧
      ¬ NoEventLost socket (fun watch => watch = 2) epollHup [(1, 0), (2, epollOut)] := by
  have hrun : (system socket).run initial [.addWatch 1 false, .addWatch 2 true] = some _ := rfl
  refine ⟨_, TransitionSystem.reachable_of_run _ rfl hrun, rfl, rfl, rfl, fun h => ?_⟩
  have hcalls : handleEvents (fun watch : Nat => watch = 2) epollHup
      [(1, 0), (2, epollOut)] = [] := by
    decide
  have hlost := h .hangup (by decide) ⟨(2, epollOut), by decide, by decide, trivial⟩
  simp [hcalls] at hlost

end Ultrabus.Watches
