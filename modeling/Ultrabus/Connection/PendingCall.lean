import Mathlib.Logic.Function.Basic
import Ultrabus.Lib.Transition

/-! # Sending a message with a reply callback

Any number of threads in `connection::send`, the thread that reads replies and the
dispatch thread that completes pending calls and runs `connection::on_pending_call`.
The connection is up throughout.  A call is named by an element of `κ`; its pending call
is a `DBusPendingCall*` of its own, so `pending_messages` is a function on calls. -/

namespace Ultrabus.PendingCall

/-- Where a thread is in `connection::send`. -/
inductive ClientPc where
  | idle
  | atLock
  | locked
  | sent
  | notifySet
  | inserted
  | returned (result : Bool)
deriving DecidableEq, Repr

/-- One call of `send` and the state libdbus keeps for it. -/
structure Call where
  pc : ClientPc
  -- the `reply_cb` is not empty
  hasCallback : Bool
  replyRead : Bool
  completed : Bool
  -- `dbus_pending_call_set_notify` has been called
  hasNotify : Bool
  -- how often the callback has been run
  runs : Nat
deriving DecidableEq, Repr

/-- Where the dispatch thread is: in `msg_dispatcher` or in `on_pending_call`. -/
inductive DispatchPc (κ : Type) where
  | idle
  | atLock (c : κ)
  | locked (c : κ)
  | found (c : κ) (callback : Bool)
deriving DecidableEq, Repr

inductive Thread (κ : Type) where
  | client (c : κ)
  | dispatcher
deriving DecidableEq, Repr

structure State (κ : Type) where
  call : κ → Call
  -- the entries, with whether the stored callback is not empty
  pendingMessages : κ → Option Bool
  pendingMutex : Option (Thread κ)
  dispatch : DispatchPc κ

inductive Label (κ : Type) where
  | enter (c : κ) (hasCallback : Bool)
  | lock (c : κ)
  | sendWithReply (c : κ) (result : Bool)
  | setNotify (c : κ)
  | emplace (c : κ)
  | unlock (c : κ)
  | readReply (c : κ)
  | complete (c : κ)
  | lockPending
  | findEntry
  | runCallback
deriving DecidableEq, Repr

variable {κ : Type} [DecidableEq κ]

def State.setCall (s : State κ) (c : κ) (call : Call) : State κ :=
  { s with call := Function.update s.call c call }

/-- The steps of `send`, of the thread that reads replies and of the dispatch thread. -/
def step (s : State κ) : Label κ → Option (State κ)
  | .enter c hasCallback =>
    if (s.call c).pc = .idle then
      some (s.setCall c { s.call c with pc := .atLock, hasCallback := hasCallback })
    else none
  | .lock c =>
    if (s.call c).pc = .atLock ∧ s.pendingMutex = none then
      some { s.setCall c { s.call c with pc := .locked } with
        pendingMutex := some (.client c) }
    else none
  | .sendWithReply c result =>
    if (s.call c).pc = .locked then
      -- On failure the lock is released by the return.
      if result then some (s.setCall c { s.call c with pc := .sent })
      else some { s.setCall c { s.call c with pc := .returned false } with pendingMutex := none }
    else none
  | .setNotify c =>
    if (s.call c).pc = .sent then
      some (s.setCall c { s.call c with pc := .notifySet, hasNotify := true })
    else none
  | .emplace c =>
    if (s.call c).pc = .notifySet then
      some { s.setCall c { s.call c with pc := .inserted } with
        pendingMessages := Function.update s.pendingMessages c (some (s.call c).hasCallback) }
    else none
  | .unlock c =>
    if (s.call c).pc = .inserted then
      some { s.setCall c { s.call c with pc := .returned true } with pendingMutex := none }
    else none
  | .readReply c =>
    -- The message is in the outgoing queue once `send_with_reply` has succeeded.
    if (s.call c).pc ∈ [.sent, .notifySet, .inserted, .returned true] ∧
        (s.call c).replyRead = false then
      some (s.setCall c { s.call c with replyRead := true })
    else none
  | .complete c =>
    -- The notify function that is set at this moment is invoked.
    if (s.call c).replyRead = true ∧ (s.call c).completed = false ∧ s.dispatch = .idle then
      some { s.setCall c { s.call c with completed := true } with
        dispatch := if (s.call c).hasNotify then .atLock c else .idle }
    else none
  | .lockPending =>
    match s.dispatch with
    | .atLock c =>
      if s.pendingMutex = none then
        some { s with pendingMutex := some .dispatcher, dispatch := .locked c }
      else none
    | _ => none
  | .findEntry =>
    match s.dispatch with
    | .locked c =>
      match s.pendingMessages c with
      | none => some { s with pendingMutex := none, dispatch := .idle }
      | some callback =>
        some { s with
          pendingMessages := Function.update s.pendingMessages c none
          pendingMutex := none
          dispatch := .found c callback }
    | _ => none
  | .runCallback =>
    match s.dispatch with
    | .found c callback =>
      some { s.setCall c { s.call c with
          runs := if callback then (s.call c).runs + 1 else (s.call c).runs } with
        dispatch := .idle }
    | _ => none

def initial : State κ where
  call _ := ⟨.idle, false, false, false, false, 0⟩
  pendingMessages _ := none
  pendingMutex := none
  dispatch := .idle

def system (κ : Type) [DecidableEq κ] : TransitionSystem (State κ) (Label κ) where
  init s := s = initial
  step := step

/-- The notification of `c` has been invoked and is not done. -/
def Notified (s : State κ) (c : κ) : Prop :=
  s.dispatch = .atLock c ∨ s.dispatch = .locked c ∨ ∃ callback, s.dispatch = .found c callback

/-- Every pending call that is completed, with no notification still to come, has been
    taken out of `pending_messages` and its callback has been run once; no callback is
    ever run twice. -/
def Delivered (s : State κ) : Prop :=
  ∀ c, (s.call c).runs ≤ 1 ∧
    ((s.call c).pc = .returned true → (s.call c).completed = true → ¬ Notified s c →
      s.pendingMessages c = none ∧ (s.call c).runs = if (s.call c).hasCallback then 1 else 0)

/-- libdbus completes a pending call only after its notify function has been set. -/
def NotifyBeforeCompletion (s : State κ) : Label κ → Prop
  | .complete c => (s.call c).hasNotify = true
  | _ => True

/-! ## The life of one call -/

inductive Stage where
  | away
  | atLock
  | locked
  | found (callback : Bool)
deriving DecidableEq, Repr

/-- All that concerns one call. -/
structure View where
  call : Call
  entry : Option Bool
  -- the call's thread holds `pending_mutex`
  holds : Bool
  stage : Stage

def DispatchPc.stage (d : DispatchPc κ) (c : κ) : Stage :=
  match d with
  | .idle => .away
  | .atLock c' => if c' = c then .atLock else .away
  | .locked c' => if c' = c then .locked else .away
  | .found c' callback => if c' = c then .found callback else .away

def heldBy (mutex : Option (Thread κ)) (c : κ) : Bool :=
  match mutex with
  | some (.client c') => c' = c
  | _ => false

def State.view (s : State κ) (c : κ) : View :=
  ⟨s.call c, s.pendingMessages c, heldBy s.pendingMutex c, s.dispatch.stage c⟩

/-- The part of `send` that is run with the lock held and before the notify function. -/
def ClientPc.holdsLock : ClientPc → Bool
  | .locked | .sent => true
  | _ => false

/-- The phases of a call whose notify function is set in time. -/
inductive Life : View → Prop where
  | sending {pc : ClientPc} {cb read : Bool} :
      pc ∈ [.idle, .atLock, .locked, .sent, .returned false] →
      Life ⟨⟨pc, cb, read, false, false, 0⟩, none, pc.holdsLock, .away⟩
  | notified {cb read done : Bool} :
      Life ⟨⟨.notifySet, cb, read, done, true, 0⟩, none, true, if done then .atLock else .away⟩
  | inserted {cb read done : Bool} :
      Life ⟨⟨.inserted, cb, read, done, true, 0⟩, some cb, true, if done then .atLock else .away⟩
  | waiting {cb read : Bool} :
      Life ⟨⟨.returned true, cb, read, false, true, 0⟩, some cb, false, .away⟩
  | dispatched {cb read : Bool} {stage : Stage} : stage = .atLock ∨ stage = .locked →
      Life ⟨⟨.returned true, cb, read, true, true, 0⟩, some cb, false, stage⟩
  | found {cb read : Bool} :
      Life ⟨⟨.returned true, cb, read, true, true, 0⟩, none, false, .found cb⟩
  | finished {cb read : Bool} :
      Life ⟨⟨.returned true, cb, read, true, true, if cb then 1 else 0⟩, none, false, .away⟩

/-- Every call is in one of its phases, and the dispatch thread holds the lock exactly
    while it looks up an entry. -/
structure Inv (s : State κ) : Prop where
  life : ∀ c, Life (s.view c)
  dispatcher : (∃ c, s.dispatch = .locked c) ↔ s.pendingMutex = some .dispatcher

theorem inv_initial : Inv (initial : State κ) where
  life c := .sending (by simp)
  dispatcher := by simp [initial]

/-- A step about `c` that leaves the other calls as they are keeps the invariant when it
    takes `c` to one of its phases. -/
theorem Inv.update {s s' : State κ} (h : Inv s) (c : κ)
    (hframe : ∀ c', c' ≠ c → s'.view c' = s.view c') (hlife : Life (s'.view c))
    (hdispatcher : (∃ c, s'.dispatch = .locked c) ↔ s'.pendingMutex = some .dispatcher) :
    Inv s' where
  life c' := by
    by_cases hc : c' = c
    · exact hc ▸ hlife
    · exact hframe c' hc ▸ h.life c'
  dispatcher := hdispatcher

theorem heldBy_iff {mutex : Option (Thread κ)} {c : κ} :
    heldBy mutex c = true ↔ mutex = some (.client c) := by
  rcases mutex with - | - | - <;> simp [heldBy]

theorem Inv.phase {s : State κ} (h : Inv s) (c : κ) :
    ∃ call entry holds stage, s.call c = call ∧ s.pendingMessages c = entry ∧
      heldBy s.pendingMutex c = holds ∧ s.dispatch.stage c = stage ∧
      Life ⟨call, entry, holds, stage⟩ :=
  ⟨_, _, _, _, rfl, rfl, rfl, rfl, h.life c⟩

theorem step_enter {s : State κ} (h : Inv s) {c : κ} (hasCallback : Bool)
    (hpc : (s.call c).pc = .idle) :
    Inv (s.setCall c { s.call c with pc := .atLock, hasCallback := hasCallback }) := by
  refine h.update c (fun c' hc => by simp [State.view, State.setCall, hc]) ?_ h.dispatcher
  obtain ⟨_, _, _, _, hcall, hentry, hholds, hstage, hlife⟩ := h.phase c
  cases hlife with
  | sending _ =>
    simp only [hcall] at hpc
    simpa [State.view, State.setCall, hcall, hentry, hholds, hstage, hpc, ClientPc.holdsLock]
      using @Life.sending .atLock _ _ (by simp)
  | _ => simp [hcall] at hpc

theorem step_lock {s : State κ} (h : Inv s) {c : κ} (hpc : (s.call c).pc = .atLock)
    (hfree : s.pendingMutex = none) :
    Inv { s.setCall c { s.call c with pc := .locked } with pendingMutex := some (.client c) } := by
  refine h.update c (fun c' hc => ?_) ?_ ?_
  · -- The mutex was free, so that no other call has held it.
    simp [State.view, State.setCall, hc, hfree, heldBy, hc.symm]
  · obtain ⟨_, _, _, _, hcall, hentry, hholds, hstage, hlife⟩ := h.phase c
    cases hlife with
    | sending _ =>
      simpa [State.view, State.setCall, hcall, hentry, hstage, heldBy, ClientPc.holdsLock]
        using @Life.sending .locked _ _ (by simp)
    | _ => simp [hcall] at hpc
  · simpa [hfree, State.setCall] using h.dispatcher

theorem heldBy_none_of_heldBy {mutex : Option (Thread κ)} {c c' : κ} (hc : c' ≠ c)
    (h : heldBy mutex c = true) : heldBy mutex c' = heldBy none c' := by
  rw [heldBy_iff] at h
  simp [h, heldBy, hc.symm]

theorem not_dispatcher_of_heldBy {s : State κ} {c : κ} (h : Inv s)
    (hheld : heldBy s.pendingMutex c = true) : ¬ ∃ c, s.dispatch = .locked c := by
  rw [h.dispatcher, heldBy_iff.mp hheld]
  simp

theorem step_sendWithReply {s : State κ} (h : Inv s) {c : κ} (hpc : (s.call c).pc = .locked) :
    Inv (s.setCall c { s.call c with pc := .sent }) ∧
    Inv { s.setCall c { s.call c with pc := .returned false } with pendingMutex := none } := by
  obtain ⟨_, _, _, _, hcall, hentry, hholds, hstage, hlife⟩ := h.phase c
  cases hlife with
  | sending _ =>
    simp only [hcall] at hpc
    have hheld : heldBy s.pendingMutex c = true := by simp [hholds, hpc, ClientPc.holdsLock]
    constructor
    · -- Sent: the lock is kept until the entry is inserted.
      refine h.update c (fun c' hc => by simp [State.view, State.setCall, hc]) ?_ h.dispatcher
      simpa [State.view, State.setCall, hcall, hentry, hheld, hstage, ClientPc.holdsLock]
        using @Life.sending .sent _ _ (by simp)
    · -- Not sent: the lock is given up by the return.
      refine h.update c (fun c' hc => ?_) ?_ ?_
      · simp [State.view, State.setCall, hc, heldBy_none_of_heldBy hc hheld]
      · simpa [State.view, State.setCall, hcall, hentry, hstage, heldBy, ClientPc.holdsLock]
          using @Life.sending (.returned false) _ _ (by simp)
      · simpa [State.setCall] using not_dispatcher_of_heldBy h hheld
  | _ => simp [hcall] at hpc

theorem step_setNotify {s : State κ} (h : Inv s) {c : κ} (hpc : (s.call c).pc = .sent) :
    Inv (s.setCall c { s.call c with pc := .notifySet, hasNotify := true }) := by
  refine h.update c (fun c' hc => by simp [State.view, State.setCall, hc]) ?_ h.dispatcher
  obtain ⟨_, _, _, _, hcall, hentry, hholds, hstage, hlife⟩ := h.phase c
  cases hlife with
  | sending _ =>
    simp only [hcall] at hpc
    simpa [State.view, State.setCall, hcall, hentry, hholds, hstage, hpc, ClientPc.holdsLock]
      using @Life.notified _ _ false
  | _ => simp [hcall] at hpc

theorem step_emplace {s : State κ} (h : Inv s) {c : κ} (hpc : (s.call c).pc = .notifySet) :
    Inv { s.setCall c { s.call c with pc := .inserted } with
      pendingMessages := Function.update s.pendingMessages c (some (s.call c).hasCallback) } := by
  refine h.update c (fun c' hc => by simp [State.view, State.setCall, hc]) ?_ h.dispatcher
  obtain ⟨_, _, _, _, hcall, hentry, hholds, hstage, hlife⟩ := h.phase c
  cases hlife with
  | notified => simpa [State.view, State.setCall, hcall, hholds, hstage] using Life.inserted
  | sending hmem => simp [hcall] at hpc; simp [hpc] at hmem
  | _ => simp [hcall] at hpc

theorem step_unlock {s : State κ} (h : Inv s) {c : κ} (hpc : (s.call c).pc = .inserted) :
    Inv { s.setCall c { s.call c with pc := .returned true } with pendingMutex := none } := by
  obtain ⟨_, _, _, _, hcall, hentry, hholds, hstage, hlife⟩ := h.phase c
  cases hlife with
  | @inserted _ _ done =>
    refine h.update c (fun c' hc => ?_) ?_ ?_
    · simp [State.view, State.setCall, hc, heldBy_none_of_heldBy hc hholds]
    · -- The notification of a completed call may be waiting for the lock.
      cases done with
      | false => simpa [State.view, State.setCall, hcall, hentry, hstage, heldBy] using Life.waiting
      | true =>
        simpa [State.view, State.setCall, hcall, hentry, hstage, heldBy]
          using Life.dispatched (.inl rfl)
    · simpa [State.setCall] using not_dispatcher_of_heldBy h hholds
  | sending hmem => simp [hcall] at hpc; simp [hpc] at hmem
  | _ => simp [hcall] at hpc

theorem step_readReply {s : State κ} (h : Inv s) (c : κ) :
    Inv (s.setCall c { s.call c with replyRead := true }) := by
  refine h.update c (fun c' hc => by simp [State.view, State.setCall, hc]) ?_ h.dispatcher
  obtain ⟨_, _, _, _, hcall, hentry, hholds, hstage, hlife⟩ := h.phase c
  cases hlife <;>
    simp only [State.view, State.setCall, Function.update_self, hcall, hentry, hholds, hstage] <;>
    constructor <;> assumption

theorem step_complete {s : State κ} (h : Inv s) {c : κ} (hnotify : (s.call c).hasNotify = true)
    (hnot : (s.call c).completed = false) (hidle : s.dispatch = .idle) :
    Inv { s.setCall c { s.call c with completed := true } with
      dispatch := if (s.call c).hasNotify then .atLock c else .idle } := by
  refine h.update c (fun c' hc => ?_) ?_ ?_
  · simp [State.view, State.setCall, hc, hnotify, hidle, DispatchPc.stage, hc.symm]
  · obtain ⟨_, _, _, _, hcall, hentry, hholds, hstage, hlife⟩ := h.phase c
    -- While the call is being sent it has no notify function.
    cases hlife with
    | sending _ => simp [hcall] at hnotify
    | notified =>
      simpa [State.view, State.setCall, hcall, hentry, hholds, DispatchPc.stage]
        using @Life.notified _ _ true
    | inserted =>
      simpa [State.view, State.setCall, hcall, hentry, hholds, DispatchPc.stage]
        using @Life.inserted _ _ true
    | waiting =>
      simpa [State.view, State.setCall, hcall, hentry, hholds, DispatchPc.stage]
        using Life.dispatched (.inl rfl)
    | _ => simp [hcall] at hnot
  · have hnone := h.dispatcher
    simp only [hidle, reduceCtorEq, exists_false, false_iff] at hnone
    simp [hnotify, hnone, State.setCall]

theorem step_lockPending {s : State κ} (h : Inv s) {c : κ} (hat : s.dispatch = .atLock c)
    (hfree : s.pendingMutex = none) :
    Inv { s with pendingMutex := some .dispatcher, dispatch := .locked c } := by
  refine h.update c (fun c' hc => ?_) ?_ (by simp)
  · simp [State.view, hfree, heldBy, hat, DispatchPc.stage, hc.symm]
  · obtain ⟨_, _, _, _, hcall, hentry, hholds, hstage, hlife⟩ := h.phase c
    simp only [hat, DispatchPc.stage, if_true] at hstage
    simp only [hfree, heldBy] at hholds
    -- A call that has not returned from `send` would hold the lock.
    cases hlife with
    | dispatched _ =>
      simpa [State.view, hcall, hentry, heldBy, DispatchPc.stage] using Life.dispatched (.inr rfl)
    | notified => cases hholds
    | inserted => cases hholds
    | _ => cases hstage

theorem step_findEntry {s : State κ} (h : Inv s) {c : κ} (hat : s.dispatch = .locked c) :
    ∃ callback, s.pendingMessages c = some callback ∧
      Inv { s with
        pendingMessages := Function.update s.pendingMessages c none
        pendingMutex := none
        dispatch := .found c callback } := by
  have hmutex := h.dispatcher.mp ⟨c, hat⟩
  obtain ⟨_, _, _, _, hcall, hentry, hholds, hstage, hlife⟩ := h.phase c
  simp only [hat, DispatchPc.stage, if_true] at hstage
  simp only [hmutex, heldBy] at hholds
  -- The dispatch thread holds the lock, so that the entry has been inserted.
  cases hlife with
  | dispatched _ =>
    refine ⟨_, hentry, h.update c (fun c' hc => ?_) ?_ (by simp)⟩
    · simp [State.view, hc, hmutex, heldBy, hat, DispatchPc.stage, hc.symm]
    · simpa [State.view, hcall, heldBy, DispatchPc.stage] using Life.found
  | notified => cases hholds
  | inserted => cases hholds
  | _ => cases hstage

theorem step_runCallback {s : State κ} (h : Inv s) {c : κ} {callback : Bool}
    (hat : s.dispatch = .found c callback) :
    Inv { s.setCall c { s.call c with
        runs := if callback then (s.call c).runs + 1 else (s.call c).runs } with
      dispatch := .idle } := by
  have hnone := h.dispatcher
  simp only [hat, reduceCtorEq, exists_false, false_iff] at hnone
  refine h.update c (fun c' hc => ?_) ?_ (by simpa [State.setCall] using hnone)
  · simp [State.view, State.setCall, hc, hat, DispatchPc.stage, hc.symm]
  · obtain ⟨_, _, _, _, hcall, hentry, hholds, hstage, hlife⟩ := h.phase c
    simp only [hat, DispatchPc.stage, if_true] at hstage
    cases hlife with
    | found =>
      cases hstage
      simpa [State.view, State.setCall, hcall, hentry, hholds, DispatchPc.stage]
        using Life.finished
    | @notified _ _ done => cases done <;> cases hstage
    | @inserted _ _ done => cases done <;> cases hstage
    | dispatched hlock => rcases hlock with rfl | rfl <;> cases hstage
    | _ => cases hstage

theorem inv_step {s s' : State κ} {a : Label κ} (h : Inv s) (hallowed : NotifyBeforeCompletion s a)
    (hstep : step s a = some s') : Inv s' := by
  cases a with
  | enter c hasCallback =>
    simp only [step, Option.ite_none_right_eq_some, Option.some.injEq] at hstep
    exact hstep.2 ▸ step_enter h hasCallback hstep.1
  | lock c =>
    simp only [step, Option.ite_none_right_eq_some, Option.some.injEq] at hstep
    exact hstep.2 ▸ step_lock h hstep.1.1 hstep.1.2
  | sendWithReply c result =>
    simp only [step, Option.ite_none_right_eq_some] at hstep
    obtain ⟨hsent, hfailed⟩ := step_sendWithReply h hstep.1
    cases result with
    | true => exact Option.some.inj hstep.2 ▸ hsent
    | false => exact Option.some.inj hstep.2 ▸ hfailed
  | setNotify c =>
    simp only [step, Option.ite_none_right_eq_some, Option.some.injEq] at hstep
    exact hstep.2 ▸ step_setNotify h hstep.1
  | emplace c =>
    simp only [step, Option.ite_none_right_eq_some, Option.some.injEq] at hstep
    exact hstep.2 ▸ step_emplace h hstep.1
  | unlock c =>
    simp only [step, Option.ite_none_right_eq_some, Option.some.injEq] at hstep
    exact hstep.2 ▸ step_unlock h hstep.1
  | readReply c =>
    simp only [step, Option.ite_none_right_eq_some, Option.some.injEq] at hstep
    exact hstep.2 ▸ step_readReply h c
  | complete c =>
    simp only [step, Option.ite_none_right_eq_some, Option.some.injEq] at hstep
    exact hstep.2 ▸ step_complete h hallowed hstep.1.2.1 hstep.1.2.2
  | lockPending =>
    simp only [step] at hstep
    split at hstep
    · rename_i c hat
      simp only [Option.ite_none_right_eq_some, Option.some.injEq] at hstep
      exact hstep.2 ▸ step_lockPending h hat hstep.1
    · cases hstep
  | findEntry =>
    simp only [step] at hstep
    split at hstep
    · rename_i c hat
      obtain ⟨callback, hentry, hinv⟩ := step_findEntry h hat
      rw [hentry] at hstep
      exact Option.some.inj hstep ▸ hinv
    · cases hstep
  | runCallback =>
    simp only [step] at hstep
    split at hstep
    · rename_i c callback hat
      exact Option.some.inj hstep ▸ step_runCallback h hat
    · cases hstep

theorem notified_iff {s : State κ} {c : κ} : Notified s c ↔ s.dispatch.stage c ≠ .away := by
  unfold Notified DispatchPc.stage
  cases s.dispatch <;> simp

theorem delivered_of_inv {s : State κ} (h : Inv s) : Delivered s := by
  intro c
  obtain ⟨_, _, _, _, hcall, hentry, _, hstage, hlife⟩ := h.phase c
  rw [notified_iff, hcall, hentry, hstage]
  -- A call that has returned and is completed is on its way to the dispatch thread or done.
  cases hlife with
  | sending hmem => exact ⟨by simp, fun _ hdone => by simp at hdone⟩
  | notified => exact ⟨by simp, fun hpc => by simp at hpc⟩
  | inserted => exact ⟨by simp, fun hpc => by simp at hpc⟩
  | waiting => exact ⟨by simp, fun _ hdone => by simp at hdone⟩
  | dispatched hat =>
    refine ⟨by simp, fun _ _ haway => ?_⟩
    rcases hat with rfl | rfl <;> simp at haway
  | found => exact ⟨by simp, fun _ _ haway => by simp at haway⟩
  | @finished cb => exact ⟨by cases cb <;> simp, fun _ _ _ => ⟨rfl, rfl⟩⟩

/-- In every run in which libdbus completes a call only after its notify function has
    been set, every completed call is delivered, and once. -/
theorem delivered_of_notifyBeforeCompletion {s : State κ}
    (h : (system κ).ReachableWhen NotifyBeforeCompletion s) : Delivered s := by
  apply delivered_of_inv
  apply h.invariant
  case initial =>
    rintro _ rfl
    exact inv_initial
  case preserved => exact fun _ _ _ => inv_step

/-- The reply of a call is completed while the client is about to insert its entry. -/
def timelyRun : List (Label Unit) :=
  [.enter () true, .lock (), .sendWithReply () true, .setNotify (), .readReply (), .complete (),
    .emplace (), .unlock (), .lockPending, .findEntry, .runCallback]

theorem timelyRun_delivers :
    ∃ s, (system Unit).run initial timelyRun = some s ∧ Delivered s ∧ (s.call ()).runs = 1 := by
  have hrun : (system Unit).run initial timelyRun = some _ := rfl
  refine ⟨_, hrun, delivered_of_notifyBeforeCompletion ?_, rfl⟩
  refine TransitionSystem.reachableWhen_of_run _ rfl ?_ hrun
  exact ⟨trivial, trivial, trivial, trivial, trivial, rfl, trivial, trivial, trivial, trivial,
    trivial, trivial⟩

/-- The reply of a call is read and completed between `send_with_reply` and `set_notify`. -/
def overtakenRun : List (Label Unit) :=
  [.enter () true, .lock (), .sendWithReply () true, .readReply (), .complete (), .setNotify (),
    .emplace (), .unlock ()]

/-- The call of `overtakenRun` has returned true and is completed, its entry is still in
    `pending_messages`, and nothing will take it out. -/
theorem overtakenRun_strands_call :
    ∃ s, (system Unit).Reachable s ∧ (s.call ()).pc = .returned true ∧
      (s.call ()).completed = true ∧ s.pendingMessages () = some true ∧ s.dispatch = .idle ∧
      ¬ Delivered s := by
  have hrun : (system Unit).run initial overtakenRun = some _ := rfl
  refine ⟨_, TransitionSystem.reachable_of_run _ rfl hrun, rfl, rfl, rfl, rfl, fun h => ?_⟩
  have hentry := ((h ()).2 rfl rfl (by rintro (h | h | ⟨_, h⟩) <;> cases h)).1
  cases hentry

end Ultrabus.PendingCall
