import Ultrabus.Filter.MatchRules

/-! # Registrations across reconnects

`connect`, `disconnect` and `is_connected` of a `connection`, its match rules with the
callbacks for name signals, and the object paths of an `object_handler`.  A connection that
is made anew has no match rules and no object paths on the bus.

The threads of a run may take turns wherever the source lets them: behind the question of
`is_connected`, where a lost connection has been detected or will be by the next one, at the
mutexes, between the point where the result of a call is certain and its return, and within
`disconnect_impl`, which leaves the dispatch thread running to its end. -/

namespace Ultrabus.Epochs

open MatchRules (Op Receiver Request Reply Outcome Whole busAnswer handleAll)

/-- The callbacks that are set by `set_name_owner_changed_cb`, `set_name_lost_cb` and
    `set_name_acquired_cb`. -/
inductive NameCallback where
  | ownerChanged
  | lost
  | acquired
deriving DecidableEq, Repr

def NameCallback.member : NameCallback → Bytes
  | .ownerChanged => text "NameOwnerChanged"
  | .lost => text "NameLost"
  | .acquired => text "NameAcquired"

def NameCallback.rule (cb : NameCallback) : Bytes :=
  text "type='signal'" ++ text ",sender='org.freedesktop.DBus'" ++
    text ",path='/org/freedesktop/DBus'" ++ text ",interface='org.freedesktop.DBus'" ++
    text ",member='" ++ cb.member ++ text "'"

/-- What a function can report as registered. -/
inductive Registration where
  | rule (rule : Bytes)
  | path (opath : Bytes)
deriving DecidableEq, Repr

inductive ConnState where
  | disconnected
  | connected
  | disconnecting
deriving DecidableEq, Repr

/-- A call that has been told by `is_connected` that the connection is up. -/
inductive Call where
  | filter (op : Op) (receiver : Receiver) (rule : Bytes)
  | setNameCb (cb : NameCallback) (callback : Bool)
deriving DecidableEq, Repr

/-- Where a `set_name_*_cb` call is that has locked `cb_mutex` and looked at its callback. -/
inductive CbPhase where
  -- in `add_match` or `remove_match`, before and behind their `is_connected`
  | asks (cb : NameCallback) (callback : Bool)
  | requests (cb : NameCallback) (callback : Bool)
  | returns (cb : NameCallback) (callback retval : Bool)
deriving DecidableEq, Repr

structure State where
  connState : ConnState
  -- `dbus_connection_get_is_connected (ctx)`
  alive : Bool
  filter : MatchRules.State Bytes
  -- the rule that the holder of `match_rule_mutex` is about to report
  ruleReturns : Option Bytes
  nameCb : NameCallback → Bool
  cbMutex : Option CbPhase
  -- the keys of `opath_map`
  opathMap : Finset Bytes
  -- the object paths registered on the `DBusConnection`
  objectPaths : Finset Bytes
  -- the path that the holder of `opaths_lock` is about to report
  pathReturns : Option Bytes
  entered : Multiset Call
  -- the elements of `match_rules` that are there since an earlier connection, or since a
  -- `RemoveMatch` for them has timed out
  staleRules : Finset Bytes
  -- the keys of `opath_map` that are there since an earlier connection
  stalePaths : Finset Bytes
  -- what the last step has reported as registered
  reported : Option Registration

inductive Label where
  | connect (succeeds : Bool)
  | disconnect
  | isConnected
  | closed
  | lose
  | enter (call : Call)
  | filter (a : MatchRules.Label Bytes)
  | returnRule
  | lockCbMutex (cb : NameCallback) (callback : Bool)
  | askInMatch
  | requestInMatch (sent : Bool)
  | returnNameCb
  | registerObjectPath (opath : Bytes) (succeeds : Bool)
  | unregisterObjectPath (opath : Bytes) (succeeds : Bool)
  | returnPath
deriving DecidableEq, Repr

/-! ## The connection -/

/-- `connection::disconnect_impl` up to the point where it gives `conn_state_mutex` up. -/
def disconnectImpl (s : State) : State :=
  { s with connState := .disconnecting, reported := none }

/-- The end of `disconnect_impl`, when the dispatch thread has ended.  The pending calls are
    cancelled; `match_rules` and `opath_map` are left as they are. -/
def closed (s : State) : State :=
  { s with
    connState := .disconnected
    alive := false
    filter := { s.filter with outgoing := [], replies := [], bus := 0 }
    nameCb := fun _ => false
    objectPaths := ∅
    reported := none }

/-- `connection::connect`, which changes nothing on a connection that is up or being closed. -/
def connect (s : State) (succeeds : Bool) : State :=
  if s.connState = .disconnected then
    if succeeds then
      { s with
        connState := .connected
        alive := true
        filter := { s.filter with outgoing := [], replies := [], bus := 0 }
        objectPaths := ∅
        staleRules := s.filter.matchRules
        stalePaths := s.opathMap
        reported := none }
    else disconnectImpl s
  else { s with reported := none }

def disconnect (s : State) : State :=
  if s.connState = .connected then disconnectImpl s else { s with reported := none }

def State.lost (s : State) : Bool := s.connState = .connected && !s.alive

def isConnected (s : State) : State :=
  if s.lost then disconnectImpl s else { s with reported := none }

/-- A function behind its `is_connected`, which does not go on when the connection is down. -/
def enter (s : State) (call : Call) : State :=
  if s.connState = .connected then { s with entered := call ::ₘ s.entered, reported := none }
  else { s with reported := none }

/-! ## Match rules -/

/-- The rule that a reply reports to its caller. -/
def reportedBy (reply : Reply Bytes) : Option Bytes :=
  if reply.ok ∧ reply.request.op = .addMatch then some reply.request.rule else none

/-- A call of `add_match` reports its rule when it returns true, but not when it has just
    sent a request whose callback will report. -/
def reportedByCall (filter : MatchRules.State Bytes) (op : Op) (receiver : Receiver) (rule : Bytes)
    (sent : Bool) : Option Bytes :=
  if op = .addMatch ∧ (MatchRules.call op receiver filter rule sent).2 = .returned true ∧
      (receiver = .callback → rule ∈ filter.matchRules) then
    some rule
  else none

/-- The rule that is certain to be reported after a step of the filter. -/
def reportedByStep (filter : MatchRules.State Bytes) : MatchRules.Label Bytes → Option Bytes
  | .call op receiver rule sent => reportedByCall filter op receiver rule sent
  | .dispatch =>
    match filter.replies with
    | reply :: _ => if reply.request.receiver = .waiter then none else reportedBy reply
    | [] => none
  | .finish =>
    match filter.matchRuleMutex with
    | some (some reply) => reportedBy reply
    | _ => none
  | .answer _ => none
  | .timeOut _ => none

/-- The steps that the bus and libdbus take without `match_rule_mutex`. -/
def unlocked : MatchRules.Label Bytes → Bool
  | .answer _ => true
  | .timeOut _ => true
  | _ => false

/-- The rule of a `RemoveMatch` that a step gives up, and the bus perhaps does not. -/
def givenUp (filter : MatchRules.State Bytes) : MatchRules.Label Bytes → Finset Bytes
  | .timeOut position =>
    match filter.outgoing[position]? with
    | some request => if request.op = .removeMatch then {request.rule} else ∅
    | none => ∅
  | _ => ∅

/-- A step of the filter on this connection. -/
def filterStep (s : State) (a : MatchRules.Label Bytes) : Option State :=
  if unlocked a ∨ s.ruleReturns = none then
    (MatchRules.step s.filter a).map fun filter =>
      { s with
        filter := filter
        ruleReturns := s.ruleReturns.or (reportedByStep s.filter a)
        staleRules := (s.staleRules ∪ givenUp s.filter a) ∩ filter.matchRules
        reported := none }
  else none

/-- A request can be sent when `is_connected`, which `connection::send` asks again, says so. -/
def State.maySend (s : State) (sent : Bool) : Prop :=
  sent = true → s.connState = .connected ∧ s.alive = true

instance (s : State) (sent : Bool) : Decidable (s.maySend sent) :=
  inferInstanceAs (Decidable (_ → _))

/-! ## Callbacks for name signals -/

/-- The name callbacks as the call that has its result will leave them. -/
def State.nameCbs (s : State) : NameCallback → Bool :=
  match s.cbMutex with
  | some (.returns cb callback true) => Function.update s.nameCb cb callback
  | _ => s.nameCb

/-- `set_name_owner_changed_cb`, `set_name_lost_cb` and `set_name_acquired_cb` from the mutex to
    the look at the callback. -/
def lockCbMutex (s : State) (cb : NameCallback) (callback : Bool) : State :=
  { s with
    cbMutex := some
      (if callback ≠ s.nameCb cb then .asks cb callback else .returns cb callback true)
    reported := none }

/-- `add_match (rule, nullptr)` and `remove_match (rule, nullptr)` behind their `is_connected`. -/
def requestInMatch (s : State) (cb : NameCallback) (callback : Bool) (sent : Bool) :
    Option State :=
  let op : Op := if callback then .addMatch else .removeMatch
  let retval := (MatchRules.call op .nobody s.filter cb.rule sent).2 = .returned true
  (filterStep s (.call op .nobody cb.rule sent)).map fun s' =>
    { s' with ruleReturns := s.ruleReturns, cbMutex := some (.returns cb callback retval) }

/-! ## Object paths -/

/-- `object_handler::register_object_path`; libdbus gets the `c_str ()` of the path. -/
def registerObjectPath (s : State) (opath : Bytes) (succeeds : Bool) : State :=
  if opath ∈ s.opathMap then { s with pathReturns := some opath, reported := none }
  else if s.connState ≠ .connected then { s with reported := none }
  else if succeeds then
    { s with
      opathMap := insert opath s.opathMap
      objectPaths := insert (cStr opath) s.objectPaths
      pathReturns := some opath
      reported := none }
  else { s with reported := none }

/-- `object_handler::unregister_object_path`. -/
def unregisterObjectPath (s : State) (opath : Bytes) (succeeds : Bool) : State :=
  if s.connState ≠ .connected then { s with reported := none }
  else if opath ∉ s.opathMap then { s with reported := none }
  else if succeeds then
    { s with
      opathMap := s.opathMap.erase opath
      objectPaths := s.objectPaths.erase (cStr opath)
      stalePaths := s.stalePaths.erase opath
      reported := none }
  else { s with reported := none }

/-! ## Runs -/

def step (s : State) : Label → Option State
  | .connect succeeds => some (connect s succeeds)
  | .disconnect => some (disconnect s)
  | .isConnected => some (isConnected s)
  | .closed => if s.connState = .disconnecting then some (closed s) else none
  | .lose =>
    if s.connState = .connected then some { s with alive := false, reported := none } else none
  | .enter call => if s.lost then none else some (enter s call)
  | .filter (.call op receiver rule sent) =>
    if Call.filter op receiver rule ∈ s.entered ∧ s.maySend sent then
      filterStep { s with entered := s.entered.erase (.filter op receiver rule) }
        (.call op receiver rule sent)
    else none
  | .filter (.answer accept) =>
    -- The calls that are pending on a lost connection are completed with an error.
    if s.connState ≠ .disconnected ∧ (accept → s.alive) then filterStep s (.answer accept) else none
  | .filter (.timeOut position) =>
    if s.connState ≠ .disconnected then filterStep s (.timeOut position) else none
  | .filter .dispatch => if s.connState ≠ .disconnected then filterStep s .dispatch else none
  | .filter .finish => filterStep s .finish
  | .returnRule =>
    if s.ruleReturns = none then none
    else some { s with ruleReturns := none, reported := s.ruleReturns.map .rule }
  | .lockCbMutex cb callback =>
    if Call.setNameCb cb callback ∈ s.entered ∧ s.cbMutex = none then
      some (lockCbMutex { s with entered := s.entered.erase (.setNameCb cb callback) } cb callback)
    else none
  | .askInMatch =>
    match s.cbMutex with
    | some (.asks cb callback) =>
      if s.lost then none
      else
        some { s with
          cbMutex := some (if s.connState = .connected then .requests cb callback
            else .returns cb callback false)
          reported := none }
    | _ => none
  | .requestInMatch sent =>
    match s.cbMutex with
    | some (.requests cb callback) =>
      if s.maySend sent then requestInMatch s cb callback sent else none
    | _ => none
  | .returnNameCb =>
    match s.cbMutex with
    | some (.returns cb callback retval) =>
      some { s with
        nameCb := s.nameCbs
        cbMutex := none
        reported := if callback && retval then some (.rule cb.rule) else none }
    | _ => none
  | .registerObjectPath opath succeeds =>
    if s.pathReturns = none ∧ (s.lost → opath ∈ s.opathMap) then
      some (registerObjectPath s opath succeeds)
    else none
  | .unregisterObjectPath opath succeeds =>
    if s.pathReturns = none ∧ !s.lost then some (unregisterObjectPath s opath succeeds) else none
  | .returnPath =>
    if s.pathReturns = none then none
    else some { s with pathReturns := none, reported := s.pathReturns.map .path }

def initial : State where
  connState := .disconnected
  alive := false
  filter := MatchRules.initial
  ruleReturns := none
  nameCb _ := false
  cbMutex := none
  opathMap := ∅
  objectPaths := ∅
  pathReturns := none
  entered := 0
  staleRules := ∅
  stalePaths := ∅
  reported := none

def system : TransitionSystem State Label where
  init s := s = initial
  step := step

/-- The bus accepts an `AddMatch` that nobody waits for, and does not add a rule of which it gets
    a part. -/
def Permits (request : Request Bytes) (accept : Bool) : Prop :=
  (request.receiver = .nobody → request.op = .addMatch → accept = true) ∧
    (request.op = .addMatch → ¬ Whole request.rule → accept = false)

/-- The bus has the rule once it has answered what is queued on this connection. -/
def State.Has (s : State) (rule : Bytes) : Prop :=
  ∀ bus changes, s.filter.Drains Permits bus changes → rule ∈ bus

def Registered (s : State) : Registration → Prop
  | .rule rule => s.connState = .connected ∧ s.Has rule
  | .path opath => s.connState = .connected ∧ opath ∈ s.objectPaths

def ReportsHold (s : State) : Prop := ∀ r, s.reported = some r → Registered s r

/-! ## Runs without stale entries -/

/-- An `add_match` of the rule does not find it in `match_rules` while the connection is down,
    from an earlier connection, or while a `RemoveMatch` for it has succeeded or may succeed;
    and without a callback its request is sent, with all of the rule. -/
def AddAllowed (s : State) (receiver : Receiver) (rule : Bytes) (sent : Bool) : Prop :=
  (rule ∈ s.filter.matchRules →
    s.connState = .connected ∧ rule ∉ s.staleRules ∧
      ¬ s.filter.MayComplete Permits .removeMatch rule) ∧
  (rule ∉ s.filter.matchRules → receiver = .nobody → sent = true ∧ Whole rule)

/-- A `RemoveMatch` for the rule does not take the copy of an `AddMatch` that has not been
    reported yet. -/
def RemoveAllowed (s : State) (rule : Bytes) : Prop :=
  rule ∈ s.filter.matchRules → ∀ bus changes, s.filter.Drains Permits bus changes →
    rule ∈ bus → changes.count (.addMatch, rule) < bus.count rule

/-- No call is certain to report a registration and has not returned yet. -/
structure NoneReturning (s : State) : Prop where
  reply : ∀ reply ∈ s.filter.matchRuleMutex.join, reportedBy reply = none
  rule : s.ruleReturns = none
  nameCb : ∀ cb, s.cbMutex ≠ some (.returns cb true true)
  path : s.pathReturns = none

def NoStaleEntry (s : State) : Label → Prop
  | .disconnect => s.connState = .connected → NoneReturning s
  | .isConnected => s.lost = true → NoneReturning s
  | .filter (.call .addMatch receiver rule sent) => AddAllowed s receiver rule sent
  | .filter (.call .removeMatch _ rule _) =>
    s.connState = .connected → RemoveAllowed s rule ∧ ∀ cb, s.nameCbs cb = true → cb.rule ≠ rule
  | .filter (.answer accept) => ∀ request ∈ s.filter.outgoing.head?, Permits request accept
  | .filter .dispatch =>
    s.connState ≠ .connected → ∀ reply ∈ s.filter.replies.head?, reportedBy reply = none
  | .lockCbMutex cb callback =>
    callback = true → s.nameCb cb = true → s.connState = .connected
  | .requestInMatch sent =>
    match s.cbMutex with
    | some (.requests cb true) => AddAllowed s .nobody cb.rule sent
    | some (.requests cb false) => s.connState = .connected → RemoveAllowed s cb.rule
    | _ => True
  | .registerObjectPath opath succeeds =>
    (opath ∈ s.opathMap → s.connState = .connected ∧ opath ∉ s.stalePaths) ∧
      (opath ∉ s.opathMap → succeeds = true → Whole opath)
  | _ => True

/-! ## Copies on the bus -/

/-- The bus has a copy of its own for every `AddMatch` that is not reported yet, and one for
    every rule that is not about to be removed. -/
def Covers (rules : Finset Bytes) (bus : Multiset Bytes) (changes : List (Op × Bytes)) : Prop :=
  ∀ rule,
    changes.count (.addMatch, rule) +
      (if rule ∈ rules ∧ (.removeMatch, rule) ∉ changes then 1 else 0) ≤ bus.count rule

section Covers

variable {rules rules' : Finset Bytes} {bus : Multiset Bytes} {changes : List (Op × Bytes)}
  {rule : Bytes} {receiver : Receiver}

theorem Covers.mono (h : Covers rules bus changes) (hsubset : rules' ⊆ rules) :
    Covers rules' bus changes := by
  intro rule
  refine le_trans (Nat.add_le_add_left ?_ _) (h rule)
  split
  case isTrue hmem => rw [if_pos ⟨hsubset hmem.1, hmem.2⟩]
  case isFalse => exact Nat.zero_le _

theorem Covers.mem_of_added (h : Covers rules bus changes) (hmem : (.addMatch, rule) ∈ changes) :
    rule ∈ bus := by
  have hcount := h rule
  have hpos := List.count_pos_iff.mpr hmem
  exact Multiset.count_pos.mp (by omega)

theorem Covers.mem_of_mem (h : Covers rules bus changes) (hmem : rule ∈ rules)
    (hremoved : (.removeMatch, rule) ∉ changes) : rule ∈ bus := by
  have hcount := h rule
  rw [if_pos ⟨hmem, hremoved⟩] at hcount
  exact Multiset.count_pos.mp (by omega)

theorem Covers.handle_one {change : Op × Bytes} (h : Covers rules bus (change :: changes)) :
    Covers (change.1.update rules change.2) bus changes := by
  intro r
  have hcount := h r
  obtain ⟨op, rule⟩ := change
  cases op with
  | addMatch =>
    by_cases heq : r = rule
    · -- The copy of the reply becomes the copy of the rule.
      subst heq
      rw [List.count_cons_self] at hcount
      split <;> omega
    · have hne : (Op.addMatch, rule) ≠ (Op.addMatch, r) := by simp [Ne.symm heq]
      simpa [Op.update, heq, List.count_cons_of_ne hne] using hcount
  | removeMatch =>
    rw [List.count_cons_of_ne (by simp)] at hcount
    by_cases heq : r = rule
    · subst heq
      simpa [Op.update] using hcount
    · simpa [Op.update, heq] using hcount

theorem Covers.handle {made : List (Op × Bytes)} (h : Covers rules bus (made ++ changes)) :
    Covers (handleAll rules made) bus changes := by
  induction made generalizing rules with
  | nil => exact h
  | cons change made ih => exact ih h.handle_one

/-- A request that has timed out makes no change any more, and its rule is not one that needs a
    copy if it was to be removed. -/
theorem Covers.timeOut {before after : List (Op × Bytes)} {request : Request Bytes} {ok : Bool}
    (h : Covers rules bus (before ++ request.changes ok ++ after))
    (hsubset : rules' ⊆ rules) (hremoved : request.op = .removeMatch → request.rule ∉ rules') :
    Covers rules' bus (before ++ after) := by
  intro r
  have hcount := h.mono hsubset r
  have hrequest : ∀ change ∈ request.changes ok, change = (request.op, request.rule) := by
    intro change hmem
    unfold Request.changes at hmem
    split at hmem
    case isTrue => exact List.mem_singleton.mp hmem
    case isFalse => cases hmem
  simp only [List.count_append, List.mem_append, not_or] at hcount ⊢
  have hkept : r ∈ rules' → (Op.removeMatch, r) ∉ request.changes ok := by
    intro hmem hchange
    obtain ⟨hop, hrule⟩ := Prod.mk.inj (hrequest _ hchange)
    exact hremoved hop.symm (hrule ▸ hmem)
  by_cases hneeds : r ∈ rules' ∧ (.removeMatch, r) ∉ before ∧ (.removeMatch, r) ∉ after
  · rw [if_pos hneeds]
    rw [if_pos ⟨hneeds.1, ⟨hneeds.2.1, hkept hneeds.1⟩, hneeds.2.2⟩] at hcount
    omega
  · rw [if_neg hneeds]
    omega

/-- An `AddMatch` whose reply somebody waits for. -/
theorem Covers.addMatch (h : Covers rules bus changes) {accept : Bool}
    (hreceiver : receiver ≠ .nobody)
    (hpermits : Permits ⟨.addMatch, rule, receiver, false⟩ accept) :
    Covers rules (busAnswer bus ⟨.addMatch, rule, receiver, false⟩ accept).1
      (changes ++ Request.changes ⟨.addMatch, rule, receiver, false⟩
        (busAnswer bus ⟨.addMatch, rule, receiver, false⟩ accept).2) := by
  cases accept with
  | false => simpa [busAnswer, Request.changes] using h
  | true =>
    have hrule : Whole rule := by
      by_contra hnot
      exact Bool.noConfusion (hpermits.2 rfl hnot)
    have hchanges : Request.changes ⟨.addMatch, rule, receiver, false⟩ true =
        [(.addMatch, rule)] := if_pos ⟨rfl, hreceiver, rfl⟩
    simp only [busAnswer, Request.text, cStr_eq_self hrule, if_true, hchanges]
    intro r
    have hcount := h r
    rw [List.count_append]
    by_cases heq : r = rule
    · subst heq
      rw [List.count_singleton_self, Multiset.count_cons_self]
      simp only [List.mem_append, List.mem_singleton, Prod.mk.injEq, reduceCtorEq, false_and,
        or_false]
      omega
    · simpa [Multiset.count_cons_of_ne heq, List.count_singleton, Ne.symm heq] using hcount

theorem Covers.addMatch_silent (h : Covers rules bus changes) (rule : Bytes) :
    Covers (insert rule rules) (rule ::ₘ bus) changes := by
  intro r
  have hcount := h r
  by_cases heq : r = rule
  · subst heq
    rw [Multiset.count_cons_self]
    split <;> omega
  · simpa [Multiset.count_cons_of_ne heq, heq] using hcount

/-- A `RemoveMatch` that does not take the copy of an unreported `AddMatch`. -/
theorem Covers.removeMatch (h : Covers rules bus changes) (accept : Bool) (hrule : Whole rule)
    (hcopies : rule ∈ bus → changes.count (.addMatch, rule) < bus.count rule) :
    Covers (if receiver = .nobody then rules.erase rule else rules)
      (busAnswer bus ⟨.removeMatch, rule, receiver, false⟩ accept).1
      (changes ++ Request.changes ⟨.removeMatch, rule, receiver, false⟩
        (busAnswer bus ⟨.removeMatch, rule, receiver, false⟩ accept).2) := by
  rw [MatchRules.busAnswer_removeMatch receiver accept hrule]
  by_cases haccept : accept = true ∧ rule ∈ bus
  case neg =>
    have hchanges : Request.changes ⟨.removeMatch, rule, receiver, false⟩ false = [] := rfl
    rw [if_neg haccept, hchanges, List.append_nil]
    refine h.mono ?_
    split
    · exact Finset.erase_subset _ _
    · exact subset_rfl
  case pos =>
    rw [if_pos haccept]
    have hcopies := hcopies haccept.2
    intro r
    have hcount := h r
    by_cases hreceiver : receiver = .nobody
    · have hchanges : Request.changes ⟨.removeMatch, rule, receiver, false⟩ true = [] := by
        simp [Request.changes, hreceiver]
      rw [hchanges, List.append_nil, if_pos hreceiver]
      by_cases heq : r = rule
      · -- The rule is no longer one that needs a copy.
        subst heq
        rw [Multiset.count_erase_self, if_neg (by simp)]
        omega
      · simpa [Multiset.count_erase_of_ne heq, heq] using hcount
    · have hchanges : Request.changes ⟨.removeMatch, rule, receiver, false⟩ true =
          [(.removeMatch, rule)] := if_pos ⟨rfl, hreceiver, rfl⟩
      rw [hchanges, if_neg hreceiver, List.count_append]
      by_cases heq : r = rule
      · -- The rule is about to be removed.
        subst heq
        rw [Multiset.count_erase_self, if_neg (by simp)]
        simp only [List.count_singleton, beq_iff_eq, Prod.mk.injEq, reduceCtorEq, false_and,
          if_false]
        omega
      · simpa [Multiset.count_erase_of_ne heq, heq, List.count_singleton] using hcount

theorem mem_busAnswer {request : Request Bytes} {accept : Bool} (hmem : rule ∈ bus)
    (hne : request.op = .removeMatch → rule ≠ request.text) :
    rule ∈ (busAnswer bus request accept).1 := by
  unfold busAnswer
  split
  case h_1 =>
    split
    · exact Multiset.mem_cons_of_mem hmem
    · exact hmem
  case h_2 hop =>
    split
    · exact (Multiset.mem_erase_of_ne (hne hop)).mpr hmem
    · exact hmem

end Covers

theorem update_sdiff_subset (rules stale : Finset Bytes) (change : Op × Bytes) :
    change.1.update rules change.2 \ stale ⊆ change.1.update (rules \ stale) change.2 := by
  intro r hr
  obtain ⟨op, rule⟩ := change
  cases op with
  | addMatch =>
    simp only [Op.update, Finset.mem_sdiff, Finset.mem_insert] at hr ⊢
    exact hr.1.imp_right fun hmem => ⟨hmem, hr.2⟩
  | removeMatch =>
    simp only [Op.update, Finset.mem_sdiff, Finset.mem_erase] at hr ⊢
    exact ⟨hr.1.1, hr.1.2, hr.2⟩

theorem handleAll_mono {rules rules' : Finset Bytes} (h : rules ⊆ rules')
    (made : List (Op × Bytes)) : handleAll rules made ⊆ handleAll rules' made := by
  induction made generalizing rules rules' with
  | nil => exact h
  | cons change made ih =>
    obtain ⟨op, rule⟩ := change
    cases op with
    | addMatch => exact ih (Finset.insert_subset_insert rule h)
    | removeMatch => exact ih (Finset.erase_subset_erase rule h)

/-- Handling replies and leaving out the stale rules commute as far as needed. -/
theorem handleAll_sdiff_subset (rules stale : Finset Bytes) (made : List (Op × Bytes)) :
    handleAll rules made \ stale ⊆ handleAll (rules \ stale) made := by
  induction made generalizing rules with
  | nil => exact subset_rfl
  | cons change made ih =>
    refine (ih (change.1.update rules change.2)).trans ?_
    exact handleAll_mono (update_sdiff_subset rules stale change) made

/-! ## Steps of the filter -/

/-- What holds of one outcome of the requests in flight. -/
structure OutcomeInv (s : State) (bus : Multiset Bytes) (changes : List (Op × Bytes)) : Prop where
  covers : Covers (s.filter.matchRules \ s.staleRules) bus changes
  names : ∀ cb, s.nameCbs cb = true → cb.rule ∈ bus
  returns : ∀ rule, s.ruleReturns = some rule → rule ∈ bus

def RulesInv (s : State) : Prop :=
  ∀ bus changes, s.filter.Drains Permits bus changes → OutcomeInv s bus changes

/-- All rules in `match_rules`, and those that replies will add, have no NUL. -/
structure WholeRules (filter : MatchRules.State Bytes) : Prop where
  rules : ∀ rule ∈ filter.matchRules, Whole rule
  added : ∀ rule, (.addMatch, rule) ∈ filter.unhandled → Whole rule

theorem RulesInv.congr {s s' : State} (h : RulesInv s) (hfilter : s'.filter = s.filter)
    (hstale : s'.staleRules = s.staleRules)
    (hnames : ∀ cb, s'.nameCbs cb = true → s.nameCbs cb = true)
    (hreturns : ∀ rule, s'.ruleReturns = some rule → s.ruleReturns = some rule) :
    RulesInv s' := by
  intro bus changes hdrains
  obtain ⟨hcovers, hcb, hrule⟩ := h bus changes (hfilter ▸ hdrains)
  exact ⟨by rw [hfilter, hstale]; exact hcovers, fun cb hset => hcb cb (hnames cb hset),
    fun rule hrule' => hrule rule (hreturns rule hrule')⟩

/-- A step of the filter, with what it leaves of the rest of the state. -/
theorem filterStep_cases {s s' : State} {a : MatchRules.Label Bytes}
    (h : filterStep s a = some s') :
    ∃ filter, (unlocked a = true ∨ s.ruleReturns = none) ∧
      MatchRules.step s.filter a = some filter ∧
      s' = { s with
        filter := filter
        ruleReturns := s.ruleReturns.or (reportedByStep s.filter a)
        staleRules := (s.staleRules ∪ givenUp s.filter a) ∩ filter.matchRules
        reported := none } := by
  simp only [filterStep, Option.ite_none_right_eq_some, Option.map_eq_some_iff] at h
  obtain ⟨hlock, filter, hstep, rfl⟩ := h
  exact ⟨filter, hlock, hstep, rfl⟩

theorem sdiff_stale_subset (rules stale given : Finset Bytes) :
    rules \ ((stale ∪ given) ∩ rules) ⊆ rules \ stale := by
  intro r hr
  simp only [Finset.mem_sdiff, Finset.mem_inter, Finset.mem_union, not_and] at hr ⊢
  exact ⟨hr.1, fun hstale => hr.2 (.inl hstale) hr.1⟩

/-- A call reports a rule only if it finds the rule, or sends its request and does not wait. -/
theorem reportedByCall_eq_some {filter : MatchRules.State Bytes} {op : Op} {receiver : Receiver}
    {rule r : Bytes} {sent : Bool} (h : reportedByCall filter op receiver rule sent = some r) :
    r = rule ∧ op = .addMatch ∧
      (rule ∈ filter.matchRules ∨ (receiver = .nobody ∧ sent = true)) := by
  simp only [reportedByCall, Option.ite_none_right_eq_some, Option.some.injEq] at h
  obtain ⟨⟨rfl, hreturned, hcallback⟩, rfl⟩ := h
  refine ⟨rfl, rfl, ?_⟩
  by_cases hmem : rule ∈ filter.matchRules
  · exact .inl hmem
  · cases receiver with
    | waiter =>
      cases sent <;>
        simp [MatchRules.call, MatchRules.addMatch, MatchRules.callSync, Op.nothingToDo, hmem]
          at hreturned
    | callback => exact absurd (hcallback rfl) hmem
    | nobody =>
      cases sent with
      | true => exact .inr ⟨rfl, rfl⟩
      | false =>
        simp [MatchRules.call, MatchRules.addMatchAsync, MatchRules.callAsync, Op.nothingToDo, hmem]
          at hreturned

/-- A reply that is handled and reports a rule was one of the changes to be made. -/
theorem added_of_reportedByStep {filter filter' : MatchRules.State Bytes}
    {a : MatchRules.Label Bytes} (hstep : MatchRules.step filter a = some filter')
    (hcall : ∀ op receiver rule sent, a ≠ .call op receiver rule sent) {rule : Bytes}
    (hreported : reportedByStep filter a = some rule) {bus : Multiset Bytes}
    {changes : List (Op × Bytes)} (hdrains : filter'.Drains Permits bus changes) :
    filter.Drains Permits bus ((.addMatch, rule) :: changes) := by
  have hchanges : ∀ {reply : Reply Bytes}, reportedBy reply = some rule →
      reply.changes = [(.addMatch, rule)] := by
    intro reply hreply
    simp only [reportedBy, Option.ite_none_right_eq_some, Option.some.injEq] at hreply
    obtain ⟨⟨hok, hop⟩, rfl⟩ := hreply
    simp [Reply.changes, hok, hop]
  obtain ⟨later, hdrained, rfl⟩ := hdrains
  cases a with
  | call op receiver rule sent => exact absurd rfl (hcall _ _ _ _)
  | answer accept => cases hreported
  | timeOut position => cases hreported
  | dispatch =>
    simp only [reportedByStep] at hreported
    simp only [MatchRules.step] at hstep
    split at hstep
    case h_1 => cases hstep
    case h_2 reply rest hreplies =>
      simp only [hreplies] at hreported
      by_cases hwaiter : reply.request.receiver = .waiter
      · rw [if_pos hwaiter] at hreported
        cases hreported
      · rw [if_neg hwaiter] at hreported hstep
        simp only [Option.ite_none_right_eq_some, Option.some.injEq] at hstep
        obtain ⟨hmutex, rfl⟩ := hstep
        refine ⟨later, hdrained, ?_⟩
        simp [MatchRules.State.unhandled, hmutex, hreplies, hchanges hreported]
  | finish =>
    simp only [reportedByStep] at hreported
    simp only [MatchRules.step] at hstep
    split at hstep
    case h_1 reply hmutex =>
      simp only [hmutex] at hreported
      cases hstep
      refine ⟨later, hdrained, ?_⟩
      simp [MatchRules.State.unhandled, hmutex, hchanges hreported]
    case h_2 => cases hstep

section Steps

variable {s s' : State}

/-- The steps in which no call and no time-out takes part. -/
theorem rulesInv_moved (h : RulesInv s) {a : MatchRules.Label Bytes}
    (hcall : ∀ op receiver rule sent, a ≠ .call op receiver rule sent)
    (htimeOut : ∀ position, a ≠ .timeOut position)
    (hanswers : ∀ accept, a = .answer accept →
      ∀ request ∈ s.filter.outgoing.head?, Permits request accept)
    (hstep : filterStep s a = some s') : RulesInv s' := by
  obtain ⟨filter, -, hfilter, rfl⟩ := filterStep_cases hstep
  intro bus changes hdrains
  obtain ⟨made, hbefore, hrules⟩ :=
    (MatchRules.effect_of_step htimeOut hfilter).drains hcall hanswers hdrains
  obtain ⟨hcovers, hnames, hreturns⟩ := h bus _ hbefore
  refine ⟨?_, hnames, fun rule hrule => ?_⟩
  · refine hcovers.handle.mono ((sdiff_stale_subset _ _ _).trans ?_)
    rw [hrules]
    exact handleAll_sdiff_subset _ _ _
  · obtain hrule | ⟨-, hreported⟩ := Option.or_eq_some_iff.mp hrule
    · exact hreturns rule hrule
    · have hadded := added_of_reportedByStep hfilter hcall hreported hdrains
      exact (h bus _ hadded).covers.mem_of_added List.mem_cons_self

/-- A reply does not come in time: its rule is stale now if it was to be removed. -/
theorem rulesInv_timeOut (h : RulesInv s) {position : Nat}
    (hstep : filterStep s (.timeOut position) = some s') : RulesInv s' := by
  obtain ⟨filter, -, hfilter, rfl⟩ := filterStep_cases hstep
  intro bus changes hdrains
  obtain ⟨request, bus', accept, before, after, hrequest, -, hbefore, rfl⟩ :=
    MatchRules.drains_timeOut hfilter hdrains fun _ _ _ _ hpermits => hpermits
  obtain ⟨hcovers, hnames, hreturns⟩ := h bus _ hbefore
  have hrules : filter.matchRules = s.filter.matchRules := by
    obtain ⟨_, _, _, _, _, _, _, rfl⟩ := MatchRules.timeOut_cases hfilter
    rfl
  refine ⟨hcovers.timeOut (sdiff_stale_subset _ _ _ |>.trans ?_) ?_, hnames, fun rule hrule => ?_⟩
  · rw [hrules]
  · intro hop hmem
    simp [givenUp, hrequest, hop] at hmem
  · exact hreturns rule (by simpa [reportedByStep] using hrule)

/-- A call of `add_match`: the rule that it reports is on the bus in the end. -/
theorem outcome_add (h : RulesInv s) {receiver : Receiver} {rule : Bytes} {sent : Bool}
    (hfree : s.filter.matchRuleMutex = none) (hallowed : AddAllowed s receiver rule sent)
    {bus : Multiset Bytes} {changes : List (Op × Bytes)}
    (hdrains :
      (MatchRules.call .addMatch receiver s.filter rule sent).1.Drains Permits bus changes) :
    Covers ((MatchRules.call .addMatch receiver s.filter rule sent).1.matchRules \ s.staleRules)
      bus changes ∧
    (∀ cb, s.nameCbs cb = true → cb.rule ∈ bus) ∧
    (rule ∈ s.filter.matchRules ∨ (receiver = .nobody ∧ sent = true) → rule ∈ bus) := by
  have houtcome := MatchRules.drains_call hfree hdrains
  obtain ⟨-, -, hrules, -⟩ := MatchRules.call_spec .addMatch receiver rule sent hfree
  rw [hrules]
  simp only [Op.nothingToDo, decide_eq_false_iff_not] at houtcome ⊢
  by_cases hmem : rule ∈ s.filter.matchRules
  · -- The rule is found; the bus has it since no `RemoveMatch` for it is in flight.
    rw [if_neg (by simp [hmem])] at houtcome
    obtain ⟨hcovers, hnames, -⟩ := h bus changes houtcome
    obtain ⟨-, hfresh, hremoved⟩ := hallowed.1 hmem
    rw [if_neg (by simp [hmem])]
    refine ⟨hcovers, hnames, fun _ => hcovers.mem_of_mem (Finset.mem_sdiff.mpr ⟨hmem, hfresh⟩) ?_⟩
    exact fun hchange => hremoved ⟨bus, changes, houtcome, hchange⟩
  · by_cases hnobody : receiver = .nobody
    · -- The request is sent and accepted, and its copy is that of the new rule.
      subst hnobody
      obtain ⟨rfl, hrule⟩ := hallowed.2 hmem rfl
      rw [if_pos ⟨hmem, rfl⟩] at houtcome ⊢
      obtain ⟨bus', changes', accept, hbefore, hpermits, rfl, rfl⟩ := houtcome
      obtain rfl := hpermits.1 rfl rfl
      obtain ⟨hcovers, hnames, -⟩ := h bus' changes' hbefore
      have hanswer : busAnswer bus' ⟨.addMatch, rule, .nobody, false⟩ true =
          (rule ::ₘ bus', true) := by
        simp only [busAnswer, Request.text, cStr_eq_self hrule, if_true]
      have hchanges : Request.changes ⟨.addMatch, rule, .nobody, false⟩ true = [] := rfl
      rw [hanswer, hchanges, List.append_nil]
      refine ⟨(hcovers.addMatch_silent rule).mono (update_sdiff_subset _ _ (.addMatch, rule)),
        fun cb hcb => Multiset.mem_cons_of_mem (hnames cb hcb), fun _ => Multiset.mem_cons_self _ _⟩
    · -- The copy will belong to the reply.
      rw [if_neg (by simp [hnobody])]
      refine and_assoc.mp ⟨?_, fun hfound => by simp [hmem, hnobody] at hfound⟩
      cases sent with
      | false =>
        rw [if_neg (by simp)] at houtcome
        obtain ⟨hcovers, hnames, -⟩ := h bus changes houtcome
        exact ⟨hcovers, hnames⟩
      | true =>
        rw [if_pos ⟨hmem, rfl⟩] at houtcome
        obtain ⟨bus', changes', accept, hbefore, hpermits, rfl, rfl⟩ := houtcome
        obtain ⟨hcovers, hnames, -⟩ := h bus' changes' hbefore
        exact ⟨hcovers.addMatch hnobody hpermits,
          fun cb hcb => mem_busAnswer (hnames cb hcb) (by simp)⟩

/-- A call of `remove_match`: the bus keeps the rules of the callbacks, except for the rule
    of the request. -/
theorem outcome_remove (h : RulesInv s) {receiver : Receiver} {rule : Bytes} {sent : Bool}
    (hwhole : ∀ rule ∈ s.filter.matchRules, Whole rule)
    (hfree : s.filter.matchRuleMutex = none) (hallowed : RemoveAllowed s rule)
    {bus : Multiset Bytes} {changes : List (Op × Bytes)}
    (hdrains :
      (MatchRules.call .removeMatch receiver s.filter rule sent).1.Drains Permits bus changes) :
    Covers ((MatchRules.call .removeMatch receiver s.filter rule sent).1.matchRules \ s.staleRules)
      bus changes ∧
    ∀ cb, s.nameCbs cb = true →
      (rule ∈ s.filter.matchRules → sent = true → cb.rule ≠ rule) → cb.rule ∈ bus := by
  have houtcome := MatchRules.drains_call hfree hdrains
  obtain ⟨-, -, hrules, -⟩ := MatchRules.call_spec .removeMatch receiver rule sent hfree
  rw [hrules]
  simp only [Op.nothingToDo, decide_eq_false_iff_not, not_not] at houtcome ⊢
  by_cases hmem : rule ∈ s.filter.matchRules
  · -- The rules that need a copy afterwards.
    have hneeded : (if rule ∈ s.filter.matchRules ∧ receiver = .nobody then
          Op.removeMatch.update s.filter.matchRules rule else s.filter.matchRules) \ s.staleRules ⊆
        if receiver = .nobody then (s.filter.matchRules \ s.staleRules).erase rule
        else s.filter.matchRules \ s.staleRules := by
      by_cases hnobody : receiver = .nobody
      · rw [if_pos ⟨hmem, hnobody⟩, if_pos hnobody]
        exact update_sdiff_subset _ _ (.removeMatch, rule)
      · rw [if_neg (by simp [hnobody]), if_neg hnobody]
    cases sent with
    | false =>
      rw [if_neg (by simp)] at houtcome
      obtain ⟨hcovers, hnames, -⟩ := h bus changes houtcome
      refine ⟨hcovers.mono (hneeded.trans ?_), fun cb hcb _ => hnames cb hcb⟩
      split
      · exact Finset.erase_subset _ _
      · exact subset_rfl
    | true =>
      rw [if_pos ⟨hmem, rfl⟩] at houtcome
      obtain ⟨bus', changes', accept, hbefore, -, rfl, rfl⟩ := houtcome
      obtain ⟨hcovers, hnames, -⟩ := h bus' changes' hbefore
      have hrule := hwhole rule hmem
      refine ⟨(hcovers.removeMatch accept hrule (hallowed hmem bus' changes' hbefore)).mono hneeded,
        fun cb hcb hother => mem_busAnswer (hnames cb hcb) fun _ => ?_⟩
      -- The bus gives up a copy of this rule and of no other.
      rw [Request.text, cStr_eq_self hrule]
      exact hother hmem rfl
  · rw [if_neg (by simp [hmem])] at houtcome ⊢
    obtain ⟨hcovers, hnames, -⟩ := h bus changes houtcome
    exact ⟨hcovers, fun cb hcb _ => hnames cb hcb⟩

theorem WholeRules.step {filter filter' : MatchRules.State Bytes} (h : WholeRules filter)
    {a : MatchRules.Label Bytes}
    (hcall : ∀ rule sent, a = .call .addMatch .nobody rule sent → rule ∉ filter.matchRules →
      Whole rule)
    (hanswers : ∀ accept, a = .answer accept →
      ∀ request ∈ filter.outgoing.head?, Permits request accept)
    (hstep : MatchRules.step filter a = some filter') : WholeRules filter' := by
  by_cases htimeOut : ∃ position, a = .timeOut position
  · obtain ⟨position, rfl⟩ := htimeOut
    obtain ⟨request, before, after, -, -, -, -, rfl⟩ := MatchRules.timeOut_cases hstep
    refine ⟨h.rules, fun rule hmem => h.added rule ?_⟩
    simpa [MatchRules.State.unhandled, Reply.changes] using hmem
  push Not at htimeOut
  cases MatchRules.effect_of_step htimeOut hstep with
  | @call op receiver rule sent hfree hstate =>
    obtain ⟨-, hunhandled, hrules, -⟩ := MatchRules.call_spec op receiver rule sent hfree
    rw [← hstate] at hunhandled hrules
    refine ⟨fun r hr => ?_, fun r hr => h.added r (hunhandled ▸ hr)⟩
    rw [hrules] at hr
    split at hr
    case isFalse => exact h.rules r hr
    case isTrue hnobody =>
      obtain ⟨hnothing, rfl⟩ := hnobody
      cases op with
      | removeMatch => exact h.rules r (Finset.mem_of_mem_erase hr)
      | addMatch =>
        obtain rfl | hr := Finset.mem_insert.mp hr
        · exact hcall r sent rfl (by simpa [Op.nothingToDo] using hnothing)
        · exact h.rules r hr
  | @answer accept request houtgoing _ hunhandled hrules =>
    refine ⟨hrules ▸ h.rules, fun r hr => ?_⟩
    rw [hunhandled] at hr
    obtain hr | hr := List.mem_append.mp hr
    · exact h.added r hr
    · -- An `AddMatch` whose rule has a NUL is not accepted.
      unfold Request.changes at hr
      split at hr
      case isFalse => cases hr
      case isTrue hok =>
        obtain ⟨hop, rfl⟩ := Prod.mk.inj (List.mem_singleton.mp hr)
        by_contra hnot
        have haccept := (hanswers accept rfl request (by simp [houtgoing])).2 hop.symm hnot
        simp [busAnswer, ← hop, haccept] at hok
  | handled made _ _ hunhandled hrules =>
    refine ⟨fun r hr => ?_, fun r hr => h.added r ?_⟩
    · rw [hrules] at hr
      obtain hr | hr := MatchRules.mem_of_mem_handleAll hr
      · exact h.rules r hr
      · exact h.added r (hunhandled ▸ List.mem_append_left _ hr)
    · exact hunhandled ▸ List.mem_append_right _ hr

/-! ## All steps -/

/-- The entries that are not stale are registered on the connection that is up, and nothing is
    about to be reported on one that is not. -/
structure Inv (s : State) : Prop where
  whole : WholeRules s.filter
  wholePaths : ∀ opath ∈ s.opathMap, Whole opath
  down : s.connState ≠ .connected → NoneReturning s
  unset : s.connState = .disconnected → ∀ cb, s.nameCb cb = false
  rules : s.connState = .connected → RulesInv s
  paths : s.connState = .connected → s.opathMap \ s.stalePaths ⊆ s.objectPaths
  pathReturns : s.connState = .connected → ∀ opath, s.pathReturns = some opath →
    opath ∈ s.objectPaths
  reports : ReportsHold s

theorem reportsHold_of_none (h : s.reported = none) : ReportsHold s := by simp [ReportsHold, h]

theorem NameCallback.rule_injective {cb cb' : NameCallback} (h : cb.rule = cb'.rule) :
    cb = cb' := by
  have hmember : cb.member = cb'.member := by
    simpa only [NameCallback.rule, List.append_cancel_left_eq, List.append_cancel_right_eq] using h
  cases cb <;> cases cb' <;> first | rfl | exact absurd hmember (by decide)

/-- A call that removes a callback, or leaves all as they are, sets none. -/
theorem nameCb_of_nameCbs (hnone : ∀ cb, s.cbMutex ≠ some (.returns cb true true))
    {cb : NameCallback} (h : s.nameCbs cb = true) : s.nameCb cb = true := by
  cases hmutex : s.cbMutex with
  | none => simpa [State.nameCbs, hmutex] using h
  | some phase =>
    cases phase with
    | returns cb' callback retval =>
      cases retval with
      | false => simpa [State.nameCbs, hmutex] using h
      | true =>
        cases callback with
        | true => exact absurd hmutex (hnone cb')
        | false =>
          by_cases heq : cb = cb'
          · simp [State.nameCbs, hmutex, heq] at h
          · simpa [State.nameCbs, hmutex, Function.update_of_ne heq] using h
    | _ => simpa [State.nameCbs, hmutex] using h

theorem Inv.withEntered (h : Inv s) (entered : Multiset Call) :
    Inv { s with entered := entered } where
  whole := h.whole
  wholePaths := h.wholePaths
  down hdown := ⟨(h.down hdown).reply, (h.down hdown).rule, (h.down hdown).nameCb,
    (h.down hdown).path⟩
  unset := h.unset
  rules hup := (h.rules hup).congr rfl rfl (fun _ => id) fun _ => id
  paths := h.paths
  pathReturns := h.pathReturns
  reports r hr := by
    obtain hreports := h.reports r hr
    cases r <;> exact hreports

/-- What no invariant is about may change, and nothing is reported. -/
theorem Inv.silent (h : Inv s) (alive : Bool) (entered : Multiset Call) :
    Inv { s with alive := alive, entered := entered, reported := none } where
  whole := h.whole
  wholePaths := h.wholePaths
  down hdown := ⟨(h.down hdown).reply, (h.down hdown).rule, (h.down hdown).nameCb,
    (h.down hdown).path⟩
  unset := h.unset
  rules hup := (h.rules hup).congr rfl rfl (fun _ => id) fun _ => id
  paths := h.paths
  pathReturns := h.pathReturns
  reports := reportsHold_of_none rfl

theorem inv_disconnectImpl (h : Inv s) (hnone : NoneReturning s) : Inv (disconnectImpl s) where
  whole := h.whole
  wholePaths := h.wholePaths
  down _ := ⟨hnone.reply, hnone.rule, hnone.nameCb, hnone.path⟩
  unset := nofun
  rules := nofun
  paths := nofun
  pathReturns := nofun
  reports := reportsHold_of_none rfl

theorem inv_closed (h : Inv s) (hdown : s.connState = .disconnecting) : Inv (closed s) where
  whole := by
    refine ⟨h.whole.rules, fun rule hmem => h.whole.added rule ?_⟩
    simp only [closed, MatchRules.State.unhandled, List.append_nil, List.flatMap_append] at hmem ⊢
    exact List.mem_append_left _ hmem
  wholePaths := h.wholePaths
  down _ := by
    have hnone := h.down (by simp [hdown])
    exact ⟨hnone.reply, hnone.rule, hnone.nameCb, hnone.path⟩
  unset _ _ := rfl
  rules := nofun
  paths := nofun
  pathReturns := nofun
  reports := reportsHold_of_none rfl

/-- Nothing is registered on a new connection, and the only change that may still be made is
    that of a `remove_match`. -/
theorem inv_connect (h : Inv s) (succeeds : Bool) : Inv (connect s succeeds) := by
  unfold connect
  by_cases hdown : s.connState = .disconnected
  case neg =>
    rw [if_neg hdown]
    exact h.silent s.alive s.entered
  case pos =>
    have hnone := h.down (by simp [hdown])
    rw [if_pos hdown]
    cases succeeds with
    | false => exact inv_disconnectImpl h hnone
    | true =>
      simp only [if_true]
      refine ⟨⟨h.whole.rules, fun rule hmem => h.whole.added rule ?_⟩, h.wholePaths,
        fun hup => absurd rfl hup, by simp, fun _ bus changes hdrains => ?_, fun _ => ?_,
        fun _ opath hpath => ?_, reportsHold_of_none rfl⟩
      · simp only [MatchRules.State.unhandled, List.append_nil, List.flatMap_append] at hmem ⊢
        exact List.mem_append_left _ hmem
      · obtain ⟨later, hdrained, rfl⟩ := hdrains
        cases hdrained
        have hadded : ∀ rule, (Op.addMatch, rule) ∉
            s.filter.matchRuleMutex.join.toList.flatMap Reply.changes := by
          intro rule hmem
          obtain ⟨reply, hreply, hchange⟩ := List.mem_flatMap.mp hmem
          have hreported := hnone.reply reply (Option.mem_toList.mp hreply)
          unfold Reply.changes at hchange
          split at hchange
          case isFalse => cases hchange
          case isTrue hok =>
            obtain ⟨hop, -⟩ := Prod.mk.inj (List.mem_singleton.mp hchange)
            simp [reportedBy, hok, ← hop] at hreported
        refine ⟨fun rule => ?_, fun cb hcb => ?_, fun rule hrule => ?_⟩
        · simp [MatchRules.State.unhandled, List.count_eq_zero.mpr (hadded rule)]
        · have hset := nameCb_of_nameCbs hnone.nameCb hcb
          exact absurd hset (by simp [h.unset hdown cb])
        · cases hnone.rule.symm.trans hrule
      · simp
      · cases hnone.path.symm.trans hpath

theorem call_mutex (op : Op) (receiver : Receiver) {filter : MatchRules.State Bytes} (rule : Bytes)
    (sent : Bool) (hfree : filter.matchRuleMutex = none) :
    (MatchRules.call op receiver filter rule sent).1.matchRuleMutex.join = none := by
  cases hop : op <;> cases receiver <;> cases sent <;>
    cases hnothing : op.nothingToDo filter.matchRules rule <;>
    simp [MatchRules.call, MatchRules.addMatch, MatchRules.addMatchAsync, MatchRules.removeMatch,
      MatchRules.removeMatchAsync, MatchRules.callSync, MatchRules.callAsync,
      MatchRules.State.send, ← hop, hnothing, hfree]

/-- While the connection is down, an allowed step of the filter is not about to report. -/
theorem noneReturning_filterStep (hdown : s.connState ≠ .connected) (h : NoneReturning s)
    {a : MatchRules.Label Bytes}
    (hsend : ∀ op receiver rule sent, a = .call op receiver rule sent → s.maySend sent)
    (hallowed : NoStaleEntry s (.filter a)) (hstep : filterStep s a = some s') :
    NoneReturning s' := by
  obtain ⟨filter, -, hfilter, rfl⟩ := filterStep_cases hstep
  suffices hsuffices : (∀ reply ∈ filter.matchRuleMutex.join, reportedBy reply = none) ∧
      reportedByStep s.filter a = none by
    exact ⟨hsuffices.1, by simp [h.rule, hsuffices.2], h.nameCb, h.path⟩
  cases a with
  | call op receiver rule sent =>
    simp only [MatchRules.step, Option.ite_none_right_eq_some, Option.some.injEq] at hfilter
    obtain ⟨hfree, rfl⟩ := hfilter
    refine ⟨by simp [call_mutex op receiver rule sent hfree], ?_⟩
    by_contra hreported
    obtain ⟨r, hreported⟩ := Option.ne_none_iff_exists'.mp hreported
    obtain ⟨rfl, rfl, hfound | ⟨-, hsent⟩⟩ := reportedByCall_eq_some hreported
    · exact hdown (hallowed.1 hfound).1
    · exact hdown (hsend _ _ _ _ rfl hsent).1
  | answer accept =>
    simp only [MatchRules.step] at hfilter
    split at hfilter
    · cases hfilter
    · cases hfilter
      exact ⟨h.reply, rfl⟩
  | timeOut position =>
    obtain ⟨_, _, _, _, _, _, _, rfl⟩ := MatchRules.timeOut_cases hfilter
    exact ⟨h.reply, rfl⟩
  | dispatch =>
    have hhead := hallowed hdown
    simp only [MatchRules.step] at hfilter
    split at hfilter
    case h_1 => cases hfilter
    case h_2 reply rest hreplies =>
      have hreply : reportedBy reply = none := hhead reply (by simp [hreplies])
      refine ⟨?_, by simp [reportedByStep, hreplies, hreply]⟩
      split at hfilter
      · simp only [Option.ite_none_right_eq_some, Option.some.injEq] at hfilter
        obtain ⟨-, rfl⟩ := hfilter
        simpa using hreply
      · simp only [Option.ite_none_right_eq_some, Option.some.injEq] at hfilter
        obtain ⟨-, rfl⟩ := hfilter
        exact h.reply
  | finish =>
    simp only [MatchRules.step] at hfilter
    split at hfilter
    case h_2 => cases hfilter
    case h_1 reply hmutex =>
      cases hfilter
      have hreply := h.reply reply (by simp [hmutex])
      exact ⟨by simp, by simp [reportedByStep, hmutex, hreply]⟩

theorem rulesInv_call (h : Inv s) (hup : s.connState = .connected) {op : Op} {receiver : Receiver}
    {rule : Bytes} {sent : Bool} (hallowed : NoStaleEntry s (.filter (.call op receiver rule sent)))
    (hstep : filterStep s (.call op receiver rule sent) = some s') : RulesInv s' := by
  obtain ⟨filter, hlock, hfilter, rfl⟩ := filterStep_cases hstep
  simp only [MatchRules.step, Option.ite_none_right_eq_some, Option.some.injEq] at hfilter
  obtain ⟨hfree, rfl⟩ := hfilter
  have hreturns : s.ruleReturns = none := hlock.resolve_left Bool.false_ne_true
  intro bus changes hdrains
  cases op with
  | addMatch =>
    obtain ⟨hcovers, hnames, hfound⟩ := outcome_add (h.rules hup) hfree hallowed hdrains
    refine ⟨hcovers.mono (sdiff_stale_subset _ _ _), hnames, fun r hr => ?_⟩
    rw [hreturns, Option.none_or] at hr
    obtain ⟨rfl, -, hreported⟩ := reportedByCall_eq_some hr
    exact hfound hreported
  | removeMatch =>
    obtain ⟨hremove, hother⟩ := hallowed hup
    obtain ⟨hcovers, hnames⟩ := outcome_remove (h.rules hup) h.whole.rules hfree hremove hdrains
    refine ⟨hcovers.mono (sdiff_stale_subset _ _ _),
      fun cb hcb => hnames cb hcb fun _ _ => hother cb hcb, fun r hr => ?_⟩
    rw [hreturns, Option.none_or] at hr
    have hreported : reportedByCall s.filter .removeMatch receiver rule sent = some r := hr
    exact absurd (reportedByCall_eq_some hreported).2.1 (by simp)

theorem inv_filterStep (h : Inv s) {a : MatchRules.Label Bytes}
    (hsend : ∀ op receiver rule sent, a = .call op receiver rule sent → s.maySend sent)
    (hallowed : NoStaleEntry s (.filter a)) (hstep : filterStep s a = some s') : Inv s' := by
  have hanswers : ∀ accept, a = .answer accept →
      ∀ request ∈ s.filter.outgoing.head?, Permits request accept := by
    rintro accept rfl
    exact hallowed
  have hrules : s.connState = .connected → RulesInv s' := by
    intro hup
    cases a with
    | call op receiver rule sent => exact rulesInv_call h hup hallowed hstep
    | timeOut position => exact rulesInv_timeOut (h.rules hup) hstep
    | _ => exact rulesInv_moved (h.rules hup) (by simp) (by simp) hanswers hstep
  have hnone := fun hdown => noneReturning_filterStep hdown (h.down hdown) hsend hallowed hstep
  obtain ⟨filter, -, hfilter, rfl⟩ := filterStep_cases hstep
  refine ⟨h.whole.step ?_ hanswers hfilter, h.wholePaths, hnone, h.unset, hrules, h.paths,
    h.pathReturns, reportsHold_of_none rfl⟩
  rintro rule sent rfl hnew
  exact (hallowed.2 hnew rfl).2

theorem inv_returnRule (h : Inv s) :
    Inv { s with ruleReturns := none, reported := s.ruleReturns.map .rule } where
  whole := h.whole
  wholePaths := h.wholePaths
  down hdown := ⟨(h.down hdown).reply, rfl, (h.down hdown).nameCb, (h.down hdown).path⟩
  unset := h.unset
  rules hup := (h.rules hup).congr rfl rfl (fun _ => id) nofun
  paths := h.paths
  pathReturns := h.pathReturns
  reports r hr := by
    obtain ⟨rule, hreturns, rfl⟩ := Option.map_eq_some_iff.mp hr
    have hup : s.connState = .connected := by
      by_contra hdown
      exact absurd ((h.down hdown).rule.symm.trans hreturns) nofun
    exact ⟨hup, fun bus changes hdrains => (h.rules hup bus changes hdrains).returns rule hreturns⟩

/-- The holder of `cb_mutex` gets on, and does not leave more callbacks set. -/
theorem inv_cbMutex (h : Inv s) {phase : Option CbPhase}
    (hnames : ∀ cb, State.nameCbs { s with cbMutex := phase, reported := none } cb = true →
      s.nameCbs cb = true)
    (hnone : s.connState ≠ .connected → ∀ cb, phase ≠ some (.returns cb true true)) :
    Inv { s with cbMutex := phase, reported := none } where
  whole := h.whole
  wholePaths := h.wholePaths
  down hdown := ⟨(h.down hdown).reply, (h.down hdown).rule, hnone hdown, (h.down hdown).path⟩
  unset := h.unset
  rules hup := (h.rules hup).congr rfl rfl hnames fun _ => id
  paths := h.paths
  pathReturns := h.pathReturns
  reports := reportsHold_of_none rfl

theorem inv_lockCbMutex (h : Inv s) (hfree : s.cbMutex = none) (cb : NameCallback) (callback : Bool)
    (hallowed : callback = true → s.nameCb cb = true → s.connState = .connected) :
    Inv (lockCbMutex s cb callback) := by
  unfold lockCbMutex
  have hnow : s.nameCbs = s.nameCb := by simp [State.nameCbs, hfree]
  refine inv_cbMutex h (fun cb' hcb' => ?_) fun hdown cb' heq => ?_
  · by_cases hchange : callback ≠ s.nameCb cb
    · rw [hnow]
      simpa [State.nameCbs, hchange] using hcb'
    · -- What is set already is set again.
      rw [hnow]
      obtain rfl := not_ne_iff.mp hchange
      simpa [State.nameCbs] using hcb'
  · by_cases hchange : callback ≠ s.nameCb cb
    · simp [hchange] at heq
    · rw [if_neg hchange] at heq
      obtain ⟨rfl, rfl, -⟩ := CbPhase.returns.inj (Option.some.inj heq)
      exact hdown (hallowed rfl (not_ne_iff.mp hchange).symm)

/-- Without a callback a call returns true when it finds nothing to do or sends its request. -/
theorem call_nobody_returned (op : Op) (filter : MatchRules.State Bytes) (rule : Bytes)
    (sent : Bool) :
    (MatchRules.call op .nobody filter rule sent).2 = .returned true ↔
      op.nothingToDo filter.matchRules rule = true ∨ sent = true := by
  cases op <;> cases sent <;>
    simp only [MatchRules.call, MatchRules.addMatchAsync, MatchRules.removeMatchAsync,
      MatchRules.callAsync] <;>
    split <;> simp_all

theorem inv_requestInMatch (h : Inv s) {cb : NameCallback} {callback sent : Bool}
    (hmutex : s.cbMutex = some (.requests cb callback)) (hsend : s.maySend sent)
    (hallowed : NoStaleEntry s (.requestInMatch sent))
    (hstep : requestInMatch s cb callback sent = some s') : Inv s' := by
  simp only [requestInMatch, Option.map_eq_some_iff] at hstep
  obtain ⟨s'', hfilterStep, rfl⟩ := hstep
  obtain ⟨filter, hlock, hfilter, rfl⟩ := filterStep_cases hfilterStep
  simp only [MatchRules.step, Option.ite_none_right_eq_some, Option.some.injEq] at hfilter
  obtain ⟨hfree, rfl⟩ := hfilter
  have hreturns : s.ruleReturns = none := hlock.resolve_left Bool.false_ne_true
  have hnow : s.nameCbs = s.nameCb := by simp [State.nameCbs, hmutex]
  have hreturned := fun op => call_nobody_returned op s.filter cb.rule sent
  have hjoin := fun op => call_mutex op .nobody cb.rule sent hfree
  simp only [NoStaleEntry, hmutex] at hallowed
  cases callback with
  | true =>
    simp only [if_true]
    have hcall : MatchRules.step s.filter (.call .addMatch .nobody cb.rule sent) = some _ :=
      if_pos hfree
    refine ⟨h.whole.step ?_ (by simp) hcall, h.wholePaths, fun hdown => ?_, h.unset,
      fun hup bus changes hdrains => ?_, h.paths, h.pathReturns, reportsHold_of_none rfl⟩
    · rintro rule sent' heq hnew
      obtain ⟨-, -, rfl, rfl⟩ := MatchRules.Label.call.inj heq
      exact (hallowed.2 hnew rfl).2
    · refine ⟨by simp [hjoin], (h.down hdown).rule, fun cb' heq => ?_, (h.down hdown).path⟩
      obtain ⟨-, -, hretval⟩ := CbPhase.returns.inj (Option.some.inj heq)
      obtain hfound | hsent := (hreturned .addMatch).mp (of_decide_eq_true hretval)
      · exact hdown (hallowed.1 (of_decide_eq_true hfound)).1
      · exact hdown (hsend hsent).1
    · obtain ⟨hcovers, hnames, hfound⟩ := outcome_add (h.rules hup) hfree hallowed hdrains
      refine ⟨hcovers.mono (sdiff_stale_subset _ _ _), fun cb' hcb' => ?_, fun r hr => ?_⟩
      · by_cases hretval : (MatchRules.call .addMatch .nobody s.filter cb.rule sent).2 =
            .returned true
        · by_cases heq : cb' = cb
          · rw [heq]
            have hdone := (hreturned .addMatch).mp hretval
            exact hfound (hdone.imp of_decide_eq_true fun hsent => ⟨rfl, hsent⟩)
          · refine hnames cb' ?_
            simpa [State.nameCbs, hretval, Function.update_of_ne heq, hmutex] using hcb'
        · refine hnames cb' ?_
          simpa [State.nameCbs, hretval, hmutex] using hcb'
      · cases hreturns.symm.trans hr
  | false =>
    simp only [Bool.false_eq_true, if_false]
    have hcall : MatchRules.step s.filter (.call .removeMatch .nobody cb.rule sent) = some _ :=
      if_pos hfree
    refine ⟨h.whole.step (by simp) (by simp) hcall, h.wholePaths, fun hdown => ?_, h.unset,
      fun hup bus changes hdrains => ?_, h.paths, h.pathReturns, reportsHold_of_none rfl⟩
    · exact ⟨by simp [hjoin], (h.down hdown).rule, by simp, (h.down hdown).path⟩
    · obtain ⟨hcovers, hnames⟩ :=
        outcome_remove (h.rules hup) h.whole.rules hfree (hallowed hup) hdrains
      refine ⟨hcovers.mono (sdiff_stale_subset _ _ _), fun cb' hcb' => ?_, fun r hr => ?_⟩
      · by_cases hretval : (MatchRules.call .removeMatch .nobody s.filter cb.rule sent).2 =
            .returned true
        · by_cases heq : cb' = cb
          · simp [State.nameCbs, hretval, heq] at hcb'
          · refine hnames cb' ?_ fun _ _ hrule => heq (NameCallback.rule_injective hrule)
            simpa [State.nameCbs, hretval, Function.update_of_ne heq, hmutex] using hcb'
        · -- The request was not sent, so that the bus keeps the rule with the callback.
          refine hnames cb' ?_ fun _ hsent => absurd ((hreturned _).mpr (.inr hsent)) hretval
          simpa [State.nameCbs, hretval, hmutex] using hcb'
      · cases hreturns.symm.trans hr

theorem inv_returnNameCb (h : Inv s) {cb : NameCallback} {callback retval : Bool}
    (hmutex : s.cbMutex = some (.returns cb callback retval)) :
    Inv { s with
      nameCb := s.nameCbs
      cbMutex := none
      reported := if callback && retval then some (.rule cb.rule) else none } where
  whole := h.whole
  wholePaths := h.wholePaths
  down hdown := ⟨(h.down hdown).reply, (h.down hdown).rule, nofun, (h.down hdown).path⟩
  unset hdown cb' := by
    have hdown : s.connState = .disconnected := hdown
    have hnone := (h.down (by simp [hdown])).nameCb
    refine Bool.eq_false_of_not_eq_true fun hset => ?_
    exact absurd (nameCb_of_nameCbs hnone hset) (by simp [h.unset hdown cb'])
  rules hup := (h.rules hup).congr rfl rfl (fun _ => id) fun _ => id
  paths := h.paths
  pathReturns := h.pathReturns
  reports r hr := by
    simp only [Bool.and_eq_true, Option.ite_none_right_eq_some, Option.some.injEq] at hr
    obtain ⟨⟨rfl, rfl⟩, rfl⟩ := hr
    have hup : s.connState = .connected := by
      by_contra hdown
      exact (h.down hdown).nameCb cb hmutex
    refine ⟨hup, fun bus changes hdrains => (h.rules hup bus changes hdrains).names cb ?_⟩
    simp [State.nameCbs, hmutex]

theorem inv_registerObjectPath (h : Inv s) {opath : Bytes} {succeeds : Bool}
    (hallowed : NoStaleEntry s (.registerObjectPath opath succeeds)) :
    Inv (registerObjectPath s opath succeeds) := by
  unfold registerObjectPath
  by_cases hmem : opath ∈ s.opathMap
  · rw [if_pos hmem]
    obtain ⟨hup, hfresh⟩ := hallowed.1 hmem
    refine ⟨h.whole, h.wholePaths, fun hdown => absurd hup hdown, h.unset,
      fun hup => (h.rules hup).congr rfl rfl (fun _ => id) fun _ => id, h.paths,
      fun hup p hp => ?_, reportsHold_of_none rfl⟩
    obtain rfl := Option.some.inj hp
    exact h.paths hup (Finset.mem_sdiff.mpr ⟨hmem, hfresh⟩)
  · rw [if_neg hmem]
    by_cases hup : s.connState = .connected
    · rw [if_neg (by simp [hup])]
      cases succeeds with
      | false => exact h.silent s.alive s.entered
      | true =>
        have hwhole := hallowed.2 hmem rfl
        simp only [if_true, cStr_eq_self hwhole]
        refine ⟨h.whole, fun p hp => ?_, fun hdown => absurd hup hdown, h.unset,
          fun hup => (h.rules hup).congr rfl rfl (fun _ => id) fun _ => id, fun _ p hp => ?_,
          fun _ p hp => ?_, reportsHold_of_none rfl⟩
        · obtain rfl | hp := Finset.mem_insert.mp hp
          · exact hwhole
          · exact h.wholePaths p hp
        · simp only [Finset.mem_sdiff, Finset.mem_insert] at hp ⊢
          obtain ⟨rfl | hp, hfresh⟩ := hp
          · exact .inl rfl
          · exact .inr (h.paths hup (Finset.mem_sdiff.mpr ⟨hp, hfresh⟩))
        · obtain rfl := Option.some.inj hp
          exact Finset.mem_insert_self _ _
    · rw [if_pos hup]
      exact h.silent s.alive s.entered

theorem inv_unregisterObjectPath (h : Inv s) (hfree : s.pathReturns = none) (opath : Bytes)
    (succeeds : Bool) : Inv (unregisterObjectPath s opath succeeds) := by
  unfold unregisterObjectPath
  by_cases hup : s.connState = .connected
  · rw [if_neg (by simp [hup])]
    by_cases hmem : opath ∈ s.opathMap
    · rw [if_neg (by simp [hmem])]
      cases succeeds with
      | false => exact h.silent s.alive s.entered
      | true =>
        simp only [if_true, cStr_eq_self (h.wholePaths opath hmem)]
        refine ⟨h.whole, fun p hp => h.wholePaths p (Finset.mem_of_mem_erase hp),
          fun hdown => absurd hup hdown, h.unset,
          fun hup => (h.rules hup).congr rfl rfl (fun _ => id) fun _ => id, fun _ p hp => ?_,
          fun _ p hp => absurd (hfree.symm.trans hp) nofun, reportsHold_of_none rfl⟩
        simp only [Finset.mem_sdiff, Finset.mem_erase] at hp ⊢
        refine ⟨hp.1.1, h.paths hup (Finset.mem_sdiff.mpr ⟨hp.1.2, fun hstale => ?_⟩)⟩
        exact hp.2 ⟨hp.1.1, hstale⟩
    · rw [if_pos hmem]
      exact h.silent s.alive s.entered
  · rw [if_pos hup]
    exact h.silent s.alive s.entered

theorem inv_returnPath (h : Inv s) :
    Inv { s with pathReturns := none, reported := s.pathReturns.map .path } where
  whole := h.whole
  wholePaths := h.wholePaths
  down hdown := ⟨(h.down hdown).reply, (h.down hdown).rule, (h.down hdown).nameCb, rfl⟩
  unset := h.unset
  rules hup := (h.rules hup).congr rfl rfl (fun _ => id) fun _ => id
  paths := h.paths
  pathReturns := nofun
  reports r hr := by
    obtain ⟨opath, hreturns, rfl⟩ := Option.map_eq_some_iff.mp hr
    have hup : s.connState = .connected := by
      by_contra hdown
      exact absurd ((h.down hdown).path.symm.trans hreturns) nofun
    exact ⟨hup, h.pathReturns hup opath hreturns⟩

theorem inv_step {a : Label} (h : Inv s) (hallowed : NoStaleEntry s a)
    (hstep : step s a = some s') : Inv s' := by
  cases a with
  | connect succeeds =>
    cases hstep
    exact inv_connect h succeeds
  | disconnect =>
    cases hstep
    unfold disconnect
    by_cases hup : s.connState = .connected
    · rw [if_pos hup]
      exact inv_disconnectImpl h (hallowed hup)
    · rw [if_neg hup]
      exact h.silent s.alive s.entered
  | isConnected =>
    cases hstep
    unfold isConnected
    by_cases hlost : s.lost = true
    · rw [if_pos hlost]
      exact inv_disconnectImpl h (hallowed hlost)
    · rw [if_neg hlost]
      exact h.silent s.alive s.entered
  | closed =>
    simp only [step, Option.ite_none_right_eq_some, Option.some.injEq] at hstep
    obtain ⟨hdown, rfl⟩ := hstep
    exact inv_closed h hdown
  | lose =>
    simp only [step, Option.ite_none_right_eq_some, Option.some.injEq] at hstep
    obtain ⟨-, rfl⟩ := hstep
    exact h.silent false s.entered
  | enter call =>
    simp only [step, enter, Option.ite_none_left_eq_some, Option.some.injEq] at hstep
    obtain ⟨-, rfl⟩ := hstep
    split
    · exact h.silent s.alive _
    · exact h.silent s.alive s.entered
  | filter a =>
    cases a with
    | call op receiver rule sent =>
      simp only [step, Option.ite_none_right_eq_some] at hstep
      obtain ⟨⟨-, hsend⟩, hstep⟩ := hstep
      refine inv_filterStep (h.withEntered _) ?_ (by cases op <;> exact hallowed) hstep
      rintro _ _ _ _ heq
      obtain ⟨-, -, -, rfl⟩ := MatchRules.Label.call.inj heq
      exact hsend
    | finish => exact inv_filterStep h (by simp) hallowed hstep
    | _ =>
      exact inv_filterStep h (by simp) hallowed (Option.ite_none_right_eq_some.mp hstep).2
  | returnRule =>
    simp only [step, Option.ite_none_left_eq_some, Option.some.injEq] at hstep
    obtain ⟨-, rfl⟩ := hstep
    exact inv_returnRule h
  | lockCbMutex cb callback =>
    simp only [step, Option.ite_none_right_eq_some, Option.some.injEq] at hstep
    obtain ⟨⟨-, hfree⟩, rfl⟩ := hstep
    exact inv_lockCbMutex (h.withEntered (s.entered.erase _)) hfree cb callback hallowed
  | askInMatch =>
    simp only [step] at hstep
    split at hstep
    case h_2 => cases hstep
    case h_1 cb callback hmutex =>
      simp only [Option.ite_none_left_eq_some, Option.some.injEq] at hstep
      obtain ⟨-, rfl⟩ := hstep
      refine inv_cbMutex h (fun cb' hcb' => ?_) fun _ cb' heq => ?_
      · have hnow : s.nameCbs = s.nameCb := by simp [State.nameCbs, hmutex]
        rw [hnow]
        by_cases hup : s.connState = .connected <;> simpa [State.nameCbs, hup] using hcb'
      · split at heq <;> simp at heq
  | requestInMatch sent =>
    simp only [step] at hstep
    split at hstep
    case h_2 => cases hstep
    case h_1 cb callback hmutex =>
      obtain ⟨hsend, hstep⟩ := Option.ite_none_right_eq_some.mp hstep
      exact inv_requestInMatch h hmutex hsend hallowed hstep
  | returnNameCb =>
    simp only [step] at hstep
    split at hstep
    case h_2 => cases hstep
    case h_1 cb callback retval hmutex =>
      exact Option.some.inj hstep ▸ inv_returnNameCb h hmutex
  | registerObjectPath opath succeeds =>
    simp only [step, Option.ite_none_right_eq_some, Option.some.injEq] at hstep
    exact hstep.2 ▸ inv_registerObjectPath h hallowed
  | unregisterObjectPath opath succeeds =>
    simp only [step, Option.ite_none_right_eq_some, Option.some.injEq] at hstep
    exact hstep.2 ▸ inv_unregisterObjectPath h hstep.1.1 opath succeeds
  | returnPath =>
    simp only [step, Option.ite_none_left_eq_some, Option.some.injEq] at hstep
    obtain ⟨-, rfl⟩ := hstep
    exact inv_returnPath h

end Steps

def Settled (s : State) (rule : Bytes) : Prop :=
  (∀ request ∈ s.filter.outgoing, request.rule ≠ rule) ∧
    ∀ change ∈ s.filter.unhandled, change.2 ≠ rule

instance (s : State) (rule : Bytes) : Decidable (Settled s rule) :=
  inferInstanceAs (Decidable (_ ∧ _))

/-- The reply to a `remove_match` comes too late, or the connection is closed after
    `set_name_lost_cb` has sent its request and before it returns. -/
def lateRun : List Label :=
  [.connect true, .enter (.filter .addMatch .nobody (text "type='signal'")),
    .filter (.call .addMatch .nobody (text "type='signal'") true), .filter (.answer true),
    .returnRule, .enter (.filter .removeMatch .callback (text "type='signal'")),
    .filter (.call .removeMatch .callback (text "type='signal'") true), .filter (.timeOut 0),
    .filter .dispatch, .filter (.answer true),
    .enter (.filter .addMatch .nobody (text "type='signal'")),
    .filter (.call .addMatch .nobody (text "type='signal'") true), .returnRule]

def closedRun : List Label :=
  [.connect true, .enter (.setNameCb .lost true), .lockCbMutex .lost true, .askInMatch,
    .requestInMatch true, .disconnect, .returnNameCb]

theorem lateAndClosedRuns_not_reportsHold :
    (∃ s, system.run initial lateRun = some s ∧ ¬ ReportsHold s) ∧
      ∃ s, system.run initial closedRun = some s ∧ ¬ ReportsHold s := by
  have hlate : system.run initial lateRun = some _ := rfl
  have hclosed : system.run initial closedRun = some _ := rfl
  refine ⟨⟨_, hlate, fun h => ?_⟩, _, hclosed, fun h => ?_⟩
  · have hmem := (h _ rfl).2 0 [] ⟨[], .nil _, rfl⟩
    exact absurd hmem (Multiset.notMem_zero _)
  · exact absurd (h _ rfl).1 (by decide)

end Ultrabus.Epochs
