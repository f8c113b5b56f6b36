import Mathlib.Logic.Function.Basic
import Ultrabus.Lib.Transition

/-! # Mutexes held across bus calls

Client threads in `message_filter::add_match` and `remove_match` and in the functions of
`object_proxy`, `org_freedesktop_DBus_Properties` and `org_freedesktop_DBus_ObjectManager`
that set callbacks, and the dispatch thread, which alone delivers replies and signals.

A function is the list of what it does to the mutexes and to the connection; how its
look-ups come out is fixed when it is called.  An object of any of the classes is an
element of `κ`, a client thread one of `τ`.  The user's own callbacks run with no mutex
held and are left out. -/

namespace Ultrabus.Deadlock

inductive Mutex (κ : Type) where
  | matchRule (o : κ)
  | cb (o : κ)
  | propsChanged (o : κ)
  | iface (o : κ)
deriving DecidableEq, Repr

/-- What a thread does; `wake` is the callback of `send_and_wait`. -/
inductive Instr (τ κ : Type) where
  | lock (m : Mutex κ)
  | unlock (m : Mutex κ)
  | sendAndWait
  | send (o : κ)
  | wake (t : τ)
deriving DecidableEq, Repr

variable {τ κ : Type}

/-! ## The functions -/

/-- A function that locks a mutex for its whole body. -/
def guarded (m : Mutex κ) (body : List (Instr τ κ)) : List (Instr τ κ) :=
  .lock m :: (body ++ [.unlock m])

/-- `message_filter::add_match (rule, timeout)`; no request is made when the rule is there
    or the send fails. -/
def addMatch (o : κ) (request : Bool) : List (Instr τ κ) :=
  guarded (.matchRule o) (if request then [.sendAndWait] else [])

def removeMatch (o : κ) (request : Bool) : List (Instr τ κ) :=
  guarded (.matchRule o) (if request then [.sendAndWait] else [])

/-- `message_filter::add_match (rule, callback, timeout)`; a request that nobody waits for
    is like none. -/
def addMatchAsync (o : κ) (request : Bool) : List (Instr τ κ) :=
  guarded (.matchRule o) (if request then [.send o] else [])

def removeMatchAsync (o : κ) (request : Bool) : List (Instr τ κ) :=
  guarded (.matchRule o) (if request then [.send o] else [])

/-- `connection::get_name_owner` in front of the rest of a function. -/
inductive Lookup where
  | known
  | succeeds
  | fails
deriving DecidableEq, Repr

def Lookup.andThen (lookup : Lookup) (rest : List (Instr τ κ)) : List (Instr τ κ) :=
  match lookup with
  | .known => rest
  | .succeeds => .sendAndWait :: rest
  | .fails => [.sendAndWait]

/-- A call of `add_match` or `remove_match` that is made or not. -/
inductive RuleCall where
  | none
  | add (request : Bool)
  | remove (request : Bool)
deriving DecidableEq, Repr

def RuleCall.program (o : κ) : RuleCall → List (Instr τ κ)
  | .none => []
  | .add request => addMatch o request
  | .remove request => removeMatch o request

/-- `object_proxy::set_signal_callback`: the name is looked up before the mutex is locked. -/
def setSignalCallback (o : κ) (lookup : Lookup) (call : RuleCall) : List (Instr τ κ) :=
  lookup.andThen (guarded (.cb o) (call.program o))

/-- `object_proxy::set_interfaces_added_callback` and `set_interfaces_removed_callback`: the
    name is looked up under the mutex; a new root adds one rule and removes another. -/
def setInterfacesCallback (o : κ) (lookup : Lookup) (call call' : RuleCall) : List (Instr τ κ) :=
  guarded (.cb o) (lookup.andThen (call.program o ++ call'.program o))

/-- `object_proxy::set_properties_changed_callback`. -/
def setPropertiesChangedCallback (o : κ) (lookup : Lookup) (call : RuleCall) :
    List (Instr τ κ) :=
  guarded (.cb o) (lookup.andThen (call.program o))

/-- `org_freedesktop_DBus_Properties::set_properties_changed_callback`. -/
def propertiesSetCallback (o : κ) (lookup : Lookup) (call : RuleCall) : List (Instr τ κ) :=
  lookup.andThen (guarded (.propsChanged o) (call.program o))

/-- `org_freedesktop_DBus_ObjectManager::set_interfaces_added_callback` and
    `set_interfaces_removed_callback`. -/
def objectManagerSetCallback (o : κ) (lookup : Lookup) (call : RuleCall) : List (Instr τ κ) :=
  lookup.andThen (guarded (.iface o) (call.program o))

inductive Operation (κ : Type) where
  | addMatch (o : κ) (request : Bool)
  | removeMatch (o : κ) (request : Bool)
  | addMatchAsync (o : κ) (request : Bool)
  | removeMatchAsync (o : κ) (request : Bool)
  | setSignalCallback (o : κ) (lookup : Lookup) (call : RuleCall)
  | setInterfacesCallback (o : κ) (lookup : Lookup) (call call' : RuleCall)
  | setPropertiesChangedCallback (o : κ) (lookup : Lookup) (call : RuleCall)
  | propertiesSetCallback (o : κ) (lookup : Lookup) (call : RuleCall)
  | objectManagerSetCallback (o : κ) (lookup : Lookup) (call : RuleCall)
deriving DecidableEq, Repr

def Operation.program : Operation κ → List (Instr τ κ)
  | .addMatch o request => Deadlock.addMatch o request
  | .removeMatch o request => Deadlock.removeMatch o request
  | .addMatchAsync o request => Deadlock.addMatchAsync o request
  | .removeMatchAsync o request => Deadlock.removeMatchAsync o request
  | .setSignalCallback o lookup call => Deadlock.setSignalCallback o lookup call
  | .setInterfacesCallback o lookup call call' => Deadlock.setInterfacesCallback o lookup call call'
  | .setPropertiesChangedCallback o lookup call =>
    Deadlock.setPropertiesChangedCallback o lookup call
  | .propertiesSetCallback o lookup call => Deadlock.propertiesSetCallback o lookup call
  | .objectManagerSetCallback o lookup call => Deadlock.objectManagerSetCallback o lookup call

/-! ## The dispatch thread -/

/-- An object whose `on_signal` gets as far as its mutex. -/
inductive Listener (κ : Type) where
  | objectProxy (o : κ)
  | properties (o : κ)
  | objectManager (o : κ)
deriving DecidableEq, Repr

def Listener.mutex : Listener κ → Mutex κ
  | .objectProxy o => .cb o
  | .properties o => .propsChanged o
  | .objectManager o => .iface o

/-- A message for the dispatch thread: the reply to a thread that waits, the reply to an
    asynchronous call of a filter, and a signal with the objects that look at it. -/
inductive Item (τ κ : Type) where
  | reply (t : τ)
  | callback (o : κ)
  | signal (listeners : List (Listener κ))
deriving DecidableEq, Repr

def Item.program : Item τ κ → List (Instr τ κ)
  | .reply t => [.wake t]
  | .callback o => [.lock (.matchRule o), .unlock (.matchRule o)]
  | .signal listeners => listeners.flatMap fun l => [.lock l.mutex, .unlock l.mutex]

/-! ## Runs -/

inductive Thread (τ : Type) where
  | client (t : τ)
  | dispatcher
deriving DecidableEq, Repr

structure State (τ κ : Type) where
  -- what a client thread has still to do
  program : τ → List (Instr τ κ)
  -- the thread waits in `send_and_wait`
  waiting : τ → Bool
  holder : Mutex κ → Option (Thread τ)
  -- the replies that have not arrived
  pending : List (Item τ κ)
  -- what has arrived, oldest first
  incoming : List (Item τ κ)
  -- what the dispatch thread has still to do for the message in hand
  dispatch : List (Instr τ κ)

inductive Label (τ κ : Type) where
  | start (t : τ) (operation : Operation κ)
  | client (t : τ)
  | arrive (i : Nat)
  | signal (listeners : List (Listener κ))
  | dispatch
deriving DecidableEq, Repr

variable [DecidableEq τ] [DecidableEq κ]

/-- The next instruction of a client thread that does not wait. -/
def clientStep (s : State τ κ) (t : τ) : Option (State τ κ) :=
  match s.program t with
  | .lock m :: rest =>
    if s.holder m = none then
      some { s with
        program := Function.update s.program t rest
        holder := Function.update s.holder m (some (.client t)) }
    else none
  | .unlock m :: rest =>
    some { s with
      program := Function.update s.program t rest
      holder := Function.update s.holder m none }
  | .sendAndWait :: rest =>
    some { s with
      program := Function.update s.program t rest
      waiting := Function.update s.waiting t true
      pending := s.pending ++ [.reply t] }
  | .send o :: rest =>
    some { s with
      program := Function.update s.program t rest
      pending := s.pending ++ [.callback o] }
  | .wake _ :: _ => none
  | [] => none

/-- The next instruction of the dispatch thread, or the next message. -/
def dispatchStep (s : State τ κ) : Option (State τ κ) :=
  match s.dispatch with
  | [] =>
    match s.incoming with
    | [] => none
    | item :: rest => some { s with incoming := rest, dispatch := item.program }
  | .lock m :: rest =>
    if s.holder m = none then
      some { s with
        dispatch := rest
        holder := Function.update s.holder m (some .dispatcher) }
    else none
  | .unlock m :: rest =>
    some { s with dispatch := rest, holder := Function.update s.holder m none }
  | .wake t :: rest =>
    some { s with dispatch := rest, waiting := Function.update s.waiting t false }
  | .sendAndWait :: _ => none
  | .send _ :: _ => none

def step (s : State τ κ) : Label τ κ → Option (State τ κ)
  | .start t operation =>
    if s.program t = [] ∧ s.waiting t = false then
      some { s with program := Function.update s.program t operation.program }
    else none
  | .client t => if s.waiting t then none else clientStep s t
  | .arrive i =>
    -- The replies may arrive in any order.
    match s.pending[i]? with
    | some item =>
      some { s with pending := s.pending.eraseIdx i, incoming := s.incoming ++ [item] }
    | none => none
  | .signal listeners => some { s with incoming := s.incoming ++ [.signal listeners] }
  | .dispatch => dispatchStep s

def initial : State τ κ where
  program _ := []
  waiting _ := false
  holder _ := none
  pending := []
  incoming := []
  dispatch := []

def system (τ κ : Type) [DecidableEq τ] [DecidableEq κ] :
    TransitionSystem (State τ κ) (Label τ κ) where
  init s := s = initial
  step := step

/-- A client waits for a reply and holds the mutex that the dispatch thread is to lock next. -/
def Deadlocked (s : State τ κ) : Prop :=
  ∃ t m rest, s.waiting t = true ∧ s.holder m = some (.client t) ∧ s.dispatch = .lock m :: rest

/-! ## Runs without entanglement -/

/-- A call that waits comes before the mutex is unlocked. -/
def waitsUnder (m : Mutex κ) : List (Instr τ κ) → Bool
  | [] => false
  | .sendAndWait :: _ => true
  | .unlock m' :: rest => m' ≠ m && waitsUnder m rest
  | .lock _ :: rest => waitsUnder m rest
  | .send _ :: rest => waitsUnder m rest
  | .wake _ :: rest => waitsUnder m rest

/-- The mutex is held by a client that waits for a reply or will do so under it. -/
def Occupied (s : State τ κ) (m : Mutex κ) : Prop :=
  ∃ t, s.holder m = some (.client t) ∧ (s.waiting t = true ∨ waitsUnder m (s.program t) = true)

/-- The dispatch thread does not take up a message that needs a mutex which is occupied, and
    no client that is going to wait locks a mutex which the message in hand still needs. -/
def NotEntangled (s : State τ κ) : Label τ κ → Prop
  | .dispatch =>
    s.dispatch = [] → ∀ item ∈ s.incoming.head?, ∀ m, .lock m ∈ item.program → ¬ Occupied s m
  | .client t =>
    ∀ m rest, s.program t = .lock m :: rest → waitsUnder m rest = true → .lock m ∉ s.dispatch
  | _ => True

/-- What is locked is unlocked later. -/
def Balanced : List (Instr τ κ) → Prop
  | [] => True
  | .lock m :: rest => .unlock m ∈ rest ∧ Balanced rest
  | .unlock _ :: rest => Balanced rest
  | .sendAndWait :: rest => Balanced rest
  | .send _ :: rest => Balanced rest
  | .wake _ :: rest => Balanced rest

section Programs

omit [DecidableEq τ] [DecidableEq κ]

theorem Balanced.append {p q : List (Instr τ κ)} (hp : Balanced p) (hq : Balanced q) :
    Balanced (p ++ q) := by
  induction p with
  | nil => exact hq
  | cons i rest ih =>
    cases i with
    | lock m => exact ⟨List.mem_append_left _ hp.1, ih hp.2⟩
    | unlock m => exact ih hp
    | sendAndWait => exact ih hp
    | send o => exact ih hp
    | wake t => exact ih hp

theorem balanced_guarded (m : Mutex κ) {body : List (Instr τ κ)} (h : Balanced body) :
    Balanced (guarded m body) :=
  ⟨List.mem_append_right _ (List.mem_singleton.mpr rfl), h.append trivial⟩

theorem Lookup.balanced (lookup : Lookup) {rest : List (Instr τ κ)} (h : Balanced rest) :
    Balanced (lookup.andThen rest) := by
  cases lookup with
  | known => exact h
  | succeeds => exact h
  | fails => trivial

theorem balanced_request {i : Instr τ κ} (request : Bool) (h : Balanced [i]) :
    Balanced (if request then [i] else []) := by
  cases request with
  | true => exact h
  | false => trivial

theorem RuleCall.balanced (o : κ) (call : RuleCall) :
    Balanced (call.program o : List (Instr τ κ)) := by
  cases call with
  | none => trivial
  | add request => exact balanced_guarded _ (balanced_request request trivial)
  | remove request => exact balanced_guarded _ (balanced_request request trivial)

theorem Operation.balanced (operation : Operation κ) :
    Balanced (operation.program : List (Instr τ κ)) := by
  cases operation with
  | addMatch o request => exact balanced_guarded _ (balanced_request request trivial)
  | removeMatch o request => exact balanced_guarded _ (balanced_request request trivial)
  | addMatchAsync o request => exact balanced_guarded _ (balanced_request request trivial)
  | removeMatchAsync o request => exact balanced_guarded _ (balanced_request request trivial)
  | setSignalCallback o lookup call =>
    exact lookup.balanced (balanced_guarded _ (call.balanced o))
  | setInterfacesCallback o lookup call call' =>
    exact balanced_guarded _ (lookup.balanced ((call.balanced o).append (call'.balanced o)))
  | setPropertiesChangedCallback o lookup call =>
    exact balanced_guarded _ (lookup.balanced (call.balanced o))
  | propertiesSetCallback o lookup call =>
    exact lookup.balanced (balanced_guarded _ (call.balanced o))
  | objectManagerSetCallback o lookup call =>
    exact lookup.balanced (balanced_guarded _ (call.balanced o))

end Programs

/-! ## Invariant -/

/-- The message in hand needs no occupied mutex; and a client unlocks what it holds. -/
structure Inv (s : State τ κ) : Prop where
  free : ∀ m, .lock m ∈ s.dispatch → ¬ Occupied s m
  balanced : ∀ t, Balanced (s.program t)
  unlocks : ∀ t m, s.holder m = some (.client t) → .unlock m ∈ s.program t

/-- A step of the thread `t` that leaves the other threads and their mutexes alone. -/
theorem Inv.client {s s' : State τ κ} (h : Inv s) (t : τ) {i : Instr τ κ} {rest : List (Instr τ κ)}
    (hprogram : s.program t = i :: rest) (hprogram' : s'.program = Function.update s.program t rest)
    (hdispatch : s'.dispatch = s.dispatch)
    (hother : ∀ t', t' ≠ t → s'.waiting t' = s.waiting t')
    (hholder : ∀ m t', t' ≠ t → s'.holder m = some (.client t') → s.holder m = some (.client t'))
    (hself : ∀ m, s'.holder m = some (.client t) →
      .unlock m ∈ rest ∧
        (.lock m ∈ s.dispatch → s'.waiting t = false ∧ waitsUnder m rest = false)) :
    Inv s' := by
  have hbalanced : Balanced rest := by
    have hall := h.balanced t
    rw [hprogram] at hall
    cases i with
    | lock m => exact hall.2
    | _ => exact hall
  refine ⟨fun m hm hoccupied => ?_, fun t' => ?_, fun t' m hm => ?_⟩
  · rw [hdispatch] at hm
    obtain ⟨t', hheld, hwaits⟩ := hoccupied
    by_cases ht : t' = t
    · subst ht
      obtain ⟨hnot, hrest⟩ := (hself m hheld).2 hm
      rw [hprogram', Function.update_self, hnot, hrest] at hwaits
      simp at hwaits
    · rw [hprogram', Function.update_of_ne ht, hother t' ht] at hwaits
      exact h.free m hm ⟨t', hholder m t' ht hheld, hwaits⟩
  · rw [hprogram']
    by_cases ht : t' = t
    · rw [ht, Function.update_self]
      exact hbalanced
    · rw [Function.update_of_ne ht]
      exact h.balanced t'
  · rw [hprogram']
    by_cases ht : t' = t
    · subst ht
      rw [Function.update_self]
      exact (hself m hm).1
    · rw [Function.update_of_ne ht]
      exact h.unlocks t' m (hholder m t' ht hm)

theorem inv_clientStep {s s' : State τ κ} (h : Inv s) {t : τ} (hwaiting : s.waiting t = false)
    (hallowed : NotEntangled s (.client t)) (hstep : clientStep s t = some s') : Inv s' := by
  -- What the thread holds is not needed by the message in hand if it is still to wait.
  have hheld : ∀ m, s.holder m = some (.client t) → .lock m ∈ s.dispatch →
      waitsUnder m (s.program t) = false := by
    intro m hm hneeded
    by_contra hwaits
    exact h.free m hneeded ⟨t, hm, .inr (eq_true_of_ne_false hwaits)⟩
  unfold clientStep at hstep
  split at hstep
  case h_1 m rest hprogram =>
    -- A mutex is locked, which the message in hand does not need if the thread is to wait.
    simp only [Option.ite_none_right_eq_some, Option.some.injEq] at hstep
    obtain ⟨hfree, rfl⟩ := hstep
    refine h.client t hprogram rfl rfl (fun _ _ => rfl) (fun m' t' ht hm' => ?_) fun m' hm' => ?_
    · by_cases hm : m' = m
      · simp only [hm, Function.update_self, Option.some.injEq, Thread.client.injEq] at hm'
        exact absurd hm'.symm ht
      · simpa only [Function.update_of_ne hm] using hm'
    · by_cases hm : m' = m
      · subst hm
        have hbalanced := h.balanced t
        rw [hprogram] at hbalanced
        refine ⟨hbalanced.1, fun hneeded => ⟨hwaiting, ?_⟩⟩
        by_contra hwaits
        exact hallowed m' rest hprogram (eq_true_of_ne_false hwaits) hneeded
      · simp only [Function.update_of_ne hm] at hm'
        have hunlocks := h.unlocks t m' hm'
        have hwaits := hheld m' hm'
        rw [hprogram] at hunlocks hwaits
        exact ⟨by simpa using hunlocks, fun hneeded => ⟨hwaiting, hwaits hneeded⟩⟩
  case h_2 m rest hprogram =>
    -- A mutex is unlocked; what else the thread holds it unlocks later.
    cases hstep
    refine h.client t hprogram rfl rfl (fun _ _ => rfl) (fun m' t' _ hm' => ?_) fun m' hm' => ?_
    · by_cases hm : m' = m
      · simp only [hm, Function.update_self, reduceCtorEq] at hm'
      · simpa only [Function.update_of_ne hm] using hm'
    · by_cases hm : m' = m
      · simp only [hm, Function.update_self, reduceCtorEq] at hm'
      · simp only [Function.update_of_ne hm] at hm'
        have hunlocks := h.unlocks t m' hm'
        have hwaits := hheld m' hm'
        rw [hprogram] at hunlocks hwaits
        refine ⟨by simpa [hm] using hunlocks, fun hneeded => ⟨hwaiting, ?_⟩⟩
        simpa [waitsUnder, Ne.symm hm] using hwaits hneeded
  case h_3 rest hprogram =>
    -- The thread begins to wait, with no mutex that the message in hand needs.
    cases hstep
    refine h.client t hprogram rfl rfl (fun t' ht => Function.update_of_ne ht _ _)
      (fun _ _ _ hm' => hm') fun m' hm' => ?_
    have hunlocks := h.unlocks t m' hm'
    have hwaits := hheld m' hm'
    rw [hprogram] at hunlocks hwaits
    exact ⟨by simpa using hunlocks, fun hneeded => absurd (hwaits hneeded) (by simp [waitsUnder])⟩
  case h_4 o rest hprogram =>
    cases hstep
    refine h.client t hprogram rfl rfl (fun _ _ => rfl) (fun _ _ _ hm' => hm') fun m' hm' => ?_
    have hunlocks := h.unlocks t m' hm'
    have hwaits := hheld m' hm'
    rw [hprogram] at hunlocks hwaits
    exact ⟨by simpa using hunlocks, fun hneeded => ⟨hwaiting, hwaits hneeded⟩⟩
  case h_5 => cases hstep
  case h_6 => cases hstep

omit [DecidableEq τ] in
/-- A step of the dispatch thread needs fewer mutexes and leaves fewer of them occupied. -/
theorem Inv.dispatched {s s' : State τ κ} (h : Inv s) (hprogram : s'.program = s.program)
    (hwaiting : ∀ t, s'.waiting t = true → s.waiting t = true)
    (hholder : ∀ m t, s'.holder m = some (.client t) → s.holder m = some (.client t))
    (hdispatch : ∀ m, .lock m ∈ s'.dispatch → .lock m ∈ s.dispatch ∨ ¬ Occupied s m) :
    Inv s' := by
  refine ⟨fun m hm hoccupied => ?_, hprogram ▸ h.balanced, fun t m hm => ?_⟩
  · obtain ⟨t, hheld, hwaits⟩ := hoccupied
    rw [hprogram] at hwaits
    have hbefore : Occupied s m := ⟨t, hholder m t hheld, hwaits.imp_left (hwaiting t)⟩
    exact (hdispatch m hm).elim (fun hneeded => h.free m hneeded hbefore) fun hnot => hnot hbefore
  · exact hprogram ▸ h.unlocks t m (hholder m t hm)

theorem inv_dispatchStep {s s' : State τ κ} (h : Inv s) (hallowed : NotEntangled s .dispatch)
    (hstep : dispatchStep s = some s') : Inv s' := by
  unfold dispatchStep at hstep
  split at hstep
  case h_1 hidle =>
    split at hstep
    case h_1 => cases hstep
    case h_2 item rest hincoming =>
      -- A message is taken up, of whose mutexes none is occupied.
      cases hstep
      refine h.dispatched rfl (fun _ ht => ht) (fun _ _ hm => hm) fun m hm => .inr ?_
      exact hallowed hidle item (by rw [hincoming]; rfl) m hm
  case h_2 m rest hdispatch =>
    simp only [Option.ite_none_right_eq_some, Option.some.injEq] at hstep
    obtain ⟨hfree, rfl⟩ := hstep
    refine h.dispatched rfl (fun _ ht => ht) (fun m' t hm' => ?_) fun m' hm' => .inl ?_
    · by_cases hm : m' = m
      · simp only [hm, Function.update_self, Option.some.injEq, reduceCtorEq] at hm'
      · simpa only [Function.update_of_ne hm] using hm'
    · exact hdispatch ▸ List.mem_cons_of_mem _ hm'
  case h_3 m rest hdispatch =>
    cases hstep
    refine h.dispatched rfl (fun _ ht => ht) (fun m' t hm' => ?_) fun m' hm' => .inl ?_
    · by_cases hm : m' = m
      · simp only [hm, Function.update_self, reduceCtorEq] at hm'
      · simpa only [Function.update_of_ne hm] using hm'
    · exact hdispatch ▸ List.mem_cons_of_mem _ hm'
  case h_4 t rest hdispatch =>
    cases hstep
    refine h.dispatched rfl (fun t' ht' => ?_) (fun _ _ hm => hm) fun m' hm' => .inl ?_
    · by_cases ht : t' = t
      · simp only [ht, Function.update_self, Bool.false_eq_true] at ht'
      · simpa only [Function.update_of_ne ht] using ht'
    · exact hdispatch ▸ List.mem_cons_of_mem _ hm'
  case h_5 => cases hstep
  case h_6 => cases hstep

theorem inv_start {s : State τ κ} (h : Inv s) {t : τ} (operation : Operation κ)
    (hidle : s.program t = []) :
    Inv { s with program := Function.update s.program t operation.program } := by
  -- A thread between two functions holds nothing.
  have hnone : ∀ m, s.holder m ≠ some (.client t) := by
    intro m hm
    have hunlocks := h.unlocks t m hm
    rw [hidle] at hunlocks
    cases hunlocks
  have hne : ∀ {m t'}, s.holder m = some (.client t') → t' ≠ t := by
    rintro m _ hm rfl
    exact hnone m hm
  refine ⟨fun m hm hoccupied => ?_, fun t' => ?_, fun t' m hm => ?_⟩
  · obtain ⟨t', hheld, hwaits⟩ := hoccupied
    simp only [Function.update_of_ne (hne hheld)] at hwaits
    exact h.free m hm ⟨t', hheld, hwaits⟩
  · by_cases ht : t' = t
    · simp only [ht, Function.update_self]
      exact operation.balanced
    · simp only [Function.update_of_ne ht]
      exact h.balanced t'
  · simp only [Function.update_of_ne (hne hm)]
    exact h.unlocks t' m hm

theorem inv_step {s s' : State τ κ} {a : Label τ κ} (h : Inv s) (hallowed : NotEntangled s a)
    (hstep : step s a = some s') : Inv s' := by
  cases a with
  | start t operation =>
    simp only [step, Option.ite_none_right_eq_some, Option.some.injEq] at hstep
    exact hstep.2 ▸ inv_start h operation hstep.1.1
  | client t =>
    simp only [step] at hstep
    split at hstep
    case isTrue => cases hstep
    case isFalse hwaiting =>
      exact inv_clientStep h (eq_false_of_ne_true hwaiting) hallowed hstep
  | arrive i =>
    simp only [step] at hstep
    split at hstep
    case h_1 => exact Option.some.inj hstep ▸ ⟨h.free, h.balanced, h.unlocks⟩
    case h_2 => cases hstep
  | signal listeners => exact Option.some.inj hstep ▸ ⟨h.free, h.balanced, h.unlocks⟩
  | dispatch => exact inv_dispatchStep h hallowed hstep

/-- In every run in which the dispatch thread does not take up a message that needs an
    occupied mutex, nor is a mutex that the message in hand needs occupied meanwhile, no
    thread waits for a reply with a mutex on which the dispatch thread is blocked. -/
theorem not_deadlocked_of_notEntangled {s : State τ κ}
    (h : (system τ κ).ReachableWhen NotEntangled s) : ¬ Deadlocked s := by
  have hinv : Inv s := by
    apply h.invariant
    case initial =>
      rintro _ rfl
      exact ⟨nofun, fun _ => trivial, nofun⟩
    case preserved => exact fun _ _ _ => inv_step
  rintro ⟨t, m, rest, hwaiting, hheld, hdispatch⟩
  exact hinv.free m (hdispatch ▸ List.mem_cons_self) ⟨t, hheld, .inl hwaiting⟩

/-- The reply to the asynchronous call is handled before the synchronous call begins. -/
def separateRun : List (Label Unit Unit) :=
  [.start () (.addMatchAsync () true), .client (), .client (), .client (), .arrive 0, .dispatch,
    .dispatch, .dispatch, .start () (.addMatch () true), .client (), .client (), .arrive 0,
    .dispatch, .dispatch, .client ()]

theorem separateRun_not_deadlocked :
    ∃ s, (system Unit Unit).run initial separateRun = some s ∧ ¬ Deadlocked s ∧
      s.program () = [] := by
  have hrun : (system Unit Unit).run initial separateRun = some _ := rfl
  refine ⟨_, hrun, not_deadlocked_of_notEntangled ?_, rfl⟩
  refine TransitionSystem.reachableWhen_of_run _ rfl ?_ hrun
  have hidle : ∀ {m : Mutex Unit}, (.lock m : Instr Unit Unit) ∉ [] := List.not_mem_nil
  refine ⟨trivial, fun _ _ _ _ => hidle, fun _ _ _ _ => hidle, fun _ _ _ _ => hidle, trivial,
    fun _ item hitem m hm => ?_, nofun, nofun, trivial, fun _ _ _ _ => hidle,
    fun _ _ _ _ => hidle, trivial, fun _ item hitem m hm => ?_, nofun, fun _ _ _ _ => hidle,
    trivial⟩
  · -- The mutex that the callback needs has been unlocked by then.
    cases hitem
    have hmutex : m = .matchRule () := by simpa [Item.program] using hm
    subst hmutex
    rintro ⟨t, hheld, -⟩
    cases hheld
  · cases hitem
    simp [Item.program] at hm

/-- The reply to the asynchronous call arrives while the synchronous call waits. -/
def entangledRun : List (Label Unit Unit) :=
  [.start () (.addMatchAsync () true), .client (), .client (), .client (),
    .start () (.addMatch () true), .client (), .client (), .arrive 0, .dispatch]

theorem entangledRun_deadlocked :
    ∃ s, (system Unit Unit).Reachable s ∧ Deadlocked s := by
  have hrun : (system Unit Unit).run initial entangledRun = some _ := rfl
  exact ⟨_, TransitionSystem.reachable_of_run _ rfl hrun, (), .matchRule (), _, rfl, rfl, rfl⟩

end Ultrabus.Deadlock
