import Ultrabus.Lib.Transition
import Ultrabus.Message.Iter

/-! # Name signals of the message bus

`connection::on_signal` on the dispatch thread: while the unique name of the daemon is
not known, each signal starts a `GetNameOwner` lookup of its own and is handled by the
callback of the lookup.  The callbacks stay installed, and the lookups are answered in
the order of the requests, with the name of the daemon. -/

namespace Ultrabus.NameSignals

/-- The fields of a signal that are looked at. -/
structure Signal where
  interface : Bytes
  path : Bytes
  sender : Bytes
  name : Bytes
  body : List Wire

/-- `msg.get_args` into some strings. -/
def getStringArgs : Nat → List Wire → Option (List Bytes)
  | 0, _ => some []
  | n + 1, .basic (.string s) :: rest => (getStringArgs n rest).map (s :: ·)
  | n + 1, .basic (.objectPath s) :: rest => (getStringArgs n rest).map (s :: ·)
  | n + 1, .basic (.signature s) :: rest => (getStringArgs n rest).map (s :: ·)
  | _ + 1, _ => none

/-- A call of one of the three callbacks. -/
inductive Invocation where
  | ownerChanged (name oldOwner newOwner : Bytes)
  | lost (name : Bytes) (acquired : Bool)
  | acquired (name : Bytes) (acquired : Bool)
deriving DecidableEq, Repr

structure Callbacks where
  nameOwnerChanged : Bool
  nameLost : Bool
  nameAcquired : Bool
deriving DecidableEq, Repr

structure State where
  uniqueBusName : Bytes
  -- the signals whose lookup is not answered, oldest first
  lookups : List Signal
  invocations : List Invocation
  -- all signals so far
  arrivals : List Signal

/-- `connection::on_signal_impl`; true is returned exactly with an invocation. -/
def onSignalImpl (callbacks : Callbacks) (uniqueBusName : Bytes) (msg : Signal) :
    Option Invocation :=
  if msg.sender ≠ uniqueBusName then none
  else if msg.name = text "NameOwnerChanged" ∧ callbacks.nameOwnerChanged then
    match getStringArgs 3 msg.body with
    | some [name, oldOwner, newOwner] => some (.ownerChanged name oldOwner newOwner)
    | _ => none
  else if msg.name = text "NameLost" ∧ callbacks.nameLost then
    match getStringArgs 1 msg.body with
    | some [name] => some (.lost name false)
    | _ => none
  else if msg.name = text "NameAcquired" ∧ callbacks.nameAcquired then
    match getStringArgs 1 msg.body with
    | some [name] => some (.acquired name true)
    | _ => none
  else none

/-- The signals that `on_signal` does not hand back at once. -/
def concerns (callbacks : Callbacks) (msg : Signal) : Bool :=
  msg.interface = text "org.freedesktop.DBus" && msg.path = text "/org/freedesktop/DBus" &&
    (callbacks.nameOwnerChanged || callbacks.nameLost || callbacks.nameAcquired)

def onSignal (callbacks : Callbacks) (s : State) (msg : Signal) : State :=
  if !concerns callbacks msg then s
  else if s.uniqueBusName = [] then { s with lookups := s.lookups ++ [msg] }
  else
    { s with
      invocations := s.invocations ++ (onSignalImpl callbacks s.uniqueBusName msg).toList }

/-- The callback of the lookup that was started for `msg`. -/
def onLookupReply (callbacks : Callbacks) (s : State) (msg : Signal) (owner : Bytes) : State :=
  { s with
    uniqueBusName := owner
    invocations := s.invocations ++ (onSignalImpl callbacks owner msg).toList }

inductive Label where
  | signal (msg : Signal)
  | lookupReply

variable (callbacks : Callbacks) (daemon : Bytes)

def step (s : State) : Label → Option State
  | .signal msg => some { onSignal callbacks s msg with arrivals := s.arrivals ++ [msg] }
  | .lookupReply =>
    match s.lookups with
    | [] => none
    | msg :: rest => some (onLookupReply callbacks { s with lookups := rest } msg daemon)

def initial : State where
  uniqueBusName := []
  lookups := []
  invocations := []
  arrivals := []

def system : TransitionSystem State Label where
  init s := s = initial
  step := step callbacks daemon

/-- What the direct path makes of a signal once the name of the daemon is known. -/
def direct (msg : Signal) : Option Invocation :=
  if concerns callbacks msg then onSignalImpl callbacks daemon msg else none

/-- When no lookup is outstanding, the callbacks have been invoked as the direct path alone
    would have invoked them. -/
def DeliveredInOrder (s : State) : Prop :=
  s.lookups = [] → s.invocations = s.arrivals.filterMap (direct callbacks daemon)

/-- No signal for an installed callback takes the direct path while the lookup of an
    earlier one is outstanding. -/
def NoOvertaking (s : State) : Label → Prop
  | .signal msg =>
    s.uniqueBusName ≠ [] → (direct callbacks daemon msg).isSome →
      s.lookups.filterMap (direct callbacks daemon) = []
  | .lookupReply => True

/-! ## Invariant -/

/-- The invocations so far, followed by those that the outstanding lookups will make, are
    the ones of the direct path. -/
structure Inv (s : State) : Prop where
  known : s.uniqueBusName = [] ∨ s.uniqueBusName = daemon
  lookups : ∀ msg ∈ s.lookups, concerns callbacks msg = true
  order : s.invocations ++ s.lookups.filterMap (direct callbacks daemon) =
    s.arrivals.filterMap (direct callbacks daemon)

variable {callbacks daemon}

theorem inv_signal {s : State} (h : Inv callbacks daemon s) (msg : Signal)
    (hallowed : NoOvertaking callbacks daemon s (.signal msg)) :
    Inv callbacks daemon { onSignal callbacks s msg with arrivals := s.arrivals ++ [msg] } := by
  cases hconcerns : concerns callbacks msg with
  | false =>
    have hnone : direct callbacks daemon msg = none := by simp [direct, hconcerns]
    have hs : onSignal callbacks s msg = s := by simp [onSignal, hconcerns]
    rw [hs]
    exact ⟨h.known, h.lookups, by simp [h.order, hnone]⟩
  | true =>
    by_cases hunknown : s.uniqueBusName = []
    · -- The signal waits for its own lookup, behind the earlier ones.
      have hs : onSignal callbacks s msg = { s with lookups := s.lookups ++ [msg] } := by
        simp [onSignal, hconcerns, hunknown]
      rw [hs]
      refine ⟨.inl hunknown, fun m hm => ?_, ?_⟩
      · rcases List.mem_append.mp hm with hm | hm
        · exact h.lookups m hm
        · rw [List.mem_singleton] at hm
          exact hm ▸ hconcerns
      · simp only [List.filterMap_append, ← List.append_assoc, h.order]
    · -- The signal is handled at once.
      have hname : s.uniqueBusName = daemon := h.known.resolve_left hunknown
      have hs : onSignal callbacks s msg =
          { s with invocations := s.invocations ++ (direct callbacks daemon msg).toList } := by
        simp [onSignal, hconcerns, hname ▸ hunknown, direct, hname]
      rw [hs]
      refine ⟨.inr hname, h.lookups, ?_⟩
      -- A signal without an invocation may overtake, one with an invocation may not.
      cases hd : direct callbacks daemon msg with
      | none => simp [h.order, hd]
      | some invocation =>
        have hwaiting := hallowed hunknown (by simp [hd])
        have horder := h.order
        rw [hwaiting, List.append_nil] at horder
        simp [hwaiting, horder, hd]

theorem inv_lookupReply {s : State} (h : Inv callbacks daemon s) {msg : Signal}
    {rest : List Signal} (hlookups : s.lookups = msg :: rest) :
    Inv callbacks daemon (onLookupReply callbacks { s with lookups := rest } msg daemon) := by
  have hconcerns := h.lookups msg (hlookups ▸ List.mem_cons_self)
  have hdirect : direct callbacks daemon msg = onSignalImpl callbacks daemon msg := by
    simp [direct, hconcerns]
  refine ⟨.inr rfl, fun m hm => h.lookups m (hlookups ▸ List.mem_cons_of_mem _ hm), ?_⟩
  -- The oldest lookup makes the first of the invocations that are still to come.
  have horder := h.order
  rw [hlookups, List.filterMap_cons, hdirect] at horder
  simp only [onLookupReply]
  rw [← horder]
  cases onSignalImpl callbacks daemon msg <;> simp

theorem inv_step {s s' : State} {a : Label} (h : Inv callbacks daemon s)
    (hallowed : NoOvertaking callbacks daemon s a) (hstep : step callbacks daemon s a = some s') :
    Inv callbacks daemon s' := by
  cases a with
  | signal msg => exact Option.some.inj hstep ▸ inv_signal h msg hallowed
  | lookupReply =>
    simp only [step] at hstep
    split at hstep
    case h_1 => cases hstep
    case h_2 msg rest hlookups => exact Option.some.inj hstep ▸ inv_lookupReply h hlookups

/-- In every run in which no signal overtakes one that waits for its lookup, the name
    callbacks are invoked in the order of the signals, none lost and none twice. -/
theorem deliveredInOrder_of_noOvertaking {s : State}
    (h : (system callbacks daemon).ReachableWhen (NoOvertaking callbacks daemon) s) :
    DeliveredInOrder callbacks daemon s := by
  have hinv : Inv callbacks daemon s := by
    apply h.invariant
    case initial =>
      rintro _ rfl
      exact ⟨.inl rfl, by simp [initial], by simp [initial]⟩
    case preserved => exact fun _ _ _ => inv_step
  intro hlookups
  have horder := hinv.order
  rwa [hlookups, List.filterMap_nil, List.append_nil] at horder

/-- A `NameAcquired` signal of the daemon. -/
def acquiredSignal (name : Bytes) : Signal where
  interface := text "org.freedesktop.DBus"
  path := text "/org/freedesktop/DBus"
  sender := text "org.freedesktop.DBus"
  name := text "NameAcquired"
  body := [.basic (.string name)]

def allInstalled : Callbacks := ⟨true, true, true⟩

/-- Two signals before the first reply, and a third after both. -/
def orderedRun : List Label :=
  [.signal (acquiredSignal (text "a")), .signal (acquiredSignal (text "b")), .lookupReply,
    .lookupReply, .signal (acquiredSignal (text "c"))]

theorem orderedRun_deliveredInOrder :
    ∃ s, (system allInstalled (text "org.freedesktop.DBus")).run initial orderedRun = some s ∧
      DeliveredInOrder allInstalled (text "org.freedesktop.DBus") s := by
  have hrun : (system allInstalled (text "org.freedesktop.DBus")).run initial orderedRun =
    some _ := rfl
  refine ⟨_, hrun, deliveredInOrder_of_noOvertaking ?_⟩
  refine TransitionSystem.reachableWhen_of_run _ rfl ?_ hrun
  exact ⟨fun h => absurd rfl h, fun h => absurd rfl h, trivial, trivial, fun _ _ => rfl, trivial⟩

/-- The third signal arrives between the two replies. -/
def overtakingRun : List Label :=
  [.signal (acquiredSignal (text "a")), .signal (acquiredSignal (text "b")), .lookupReply,
    .signal (acquiredSignal (text "c")), .lookupReply]

/-- The callback is invoked for the third signal before the second. -/
theorem overtakingRun_not_deliveredInOrder :
    ∃ s, (system allInstalled (text "org.freedesktop.DBus")).Reachable s ∧
      s.invocations = [.acquired (text "a") true, .acquired (text "c") true,
        .acquired (text "b") true] ∧
      ¬ DeliveredInOrder allInstalled (text "org.freedesktop.DBus") s := by
  have hrun : (system allInstalled (text "org.freedesktop.DBus")).run initial overtakingRun =
    some _ := rfl
  refine ⟨_, TransitionSystem.reachable_of_run _ rfl hrun, rfl, fun h => ?_⟩
  exact absurd (h rfl) (by decide)

end Ultrabus.NameSignals
