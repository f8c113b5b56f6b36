import Mathlib.Data.Finset.Basic
import Ultrabus.Lib.Transition
import Ultrabus.Value.Signature

/-! # Match rules of a message filter

`message_filter::add_match` and `remove_match` from any threads on a connection that stays
up, the bus, which answers the requests in the order they were sent, and the dispatch
thread, which handles the replies in that order.

The time for a reply may be over before the bus has answered.  libdbus then completes the call
with an error, and what the bus answers later is thrown away.

What `match_rule_mutex` protects is one step up to the point where a synchronous call waits
for its reply; the call then keeps the mutex until it has handled the reply. -/

namespace Ultrabus.MatchRules

/-- The methods of the bus that the filter calls. -/
inductive Op where
  | addMatch
  | removeMatch
deriving DecidableEq, Repr

/-- Who waits for the reply to a request; nobody after `want_reply (false)`. -/
inductive Receiver where
  | waiter
  | callback
  | nobody
deriving DecidableEq, Repr

structure Request (ρ : Type) where
  op : Op
  rule : ρ
  receiver : Receiver
  -- the time for the reply is over
  timedOut : Bool
deriving DecidableEq, Repr

/-- A reply with the request it belongs to; `ok` when it is not an error. -/
structure Reply (ρ : Type) where
  request : Request ρ
  ok : Bool
deriving DecidableEq, Repr

structure State (ρ : Type) where
  matchRules : Finset ρ
  -- held by a synchronous call, with the reply once it has come
  matchRuleMutex : Option (Option (Reply ρ))
  -- the requests that the bus has not answered, oldest first
  outgoing : List (Request ρ)
  -- the replies that are not handled, oldest first
  replies : List (Reply ρ)
  -- the rules that the bus has for the filter
  bus : Multiset ρ

inductive Label (ρ : Type) where
  | call (op : Op) (receiver : Receiver) (rule : ρ) (sent : Bool)
  | answer (accept : Bool)
  | timeOut (position : Nat)
  | dispatch
  | finish
deriving DecidableEq, Repr

variable {ρ : Type} [DecidableEq ρ]

/-! ## The filter -/

/-- The look-up in `match_rules` that returns at once. -/
def Op.nothingToDo (matchRules : Finset ρ) (rule : ρ) : Op → Bool
  | .addMatch => rule ∈ matchRules
  | .removeMatch => rule ∉ matchRules

def Op.update (matchRules : Finset ρ) (rule : ρ) : Op → Finset ρ
  | .addMatch => insert rule matchRules
  | .removeMatch => matchRules.erase rule

/-- What a call returns; a synchronous call does not return before its reply. -/
inductive Outcome where
  | returned (value : Bool)
  | waits
deriving DecidableEq, Repr

/-- `conn.send` when it succeeds. -/
def State.send (s : State ρ) (request : Request ρ) : State ρ :=
  { s with outgoing := s.outgoing ++ [request] }

/-- The synchronous functions up to `send_and_wait`; `sent` is how its send comes out. -/
def callSync (op : Op) (s : State ρ) (rule : ρ) (sent : Bool) : State ρ × Outcome :=
  if op.nothingToDo s.matchRules rule then (s, .returned true)
  else if sent then
    ({ s.send ⟨op, rule, .waiter, false⟩ with matchRuleMutex := some none }, .waits)
  else (s, .returned false)

/-- The functions with a `callback`, which may be null; `sent` is how `conn.send` comes out. -/
def callAsync (op : Op) (s : State ρ) (rule : ρ) (callback : Bool) (sent : Bool) :
    State ρ × Outcome :=
  if op.nothingToDo s.matchRules rule then (s, .returned true)
  else if !callback then
    -- The set is changed before the request is sent, and stays so when the send fails.
    let s := { s with matchRules := op.update s.matchRules rule }
    (if sent then s.send ⟨op, rule, .nobody, false⟩ else s, .returned sent)
  else (if sent then s.send ⟨op, rule, .callback, false⟩ else s, .returned sent)

/-- `message_filter::add_match (rule, timeout)`. -/
def addMatch : State ρ → ρ → Bool → State ρ × Outcome := callSync .addMatch

/-- `message_filter::add_match (rule, callback, timeout)`. -/
def addMatchAsync : State ρ → ρ → Bool → Bool → State ρ × Outcome := callAsync .addMatch

/-- `message_filter::remove_match (rule, timeout)`. -/
def removeMatch : State ρ → ρ → Bool → State ρ × Outcome := callSync .removeMatch

/-- `message_filter::remove_match (rule, callback, timeout)`. -/
def removeMatchAsync : State ρ → ρ → Bool → Bool → State ρ × Outcome := callAsync .removeMatch

/-- The overload that a caller of each kind uses. -/
def call (op : Op) (receiver : Receiver) (s : State ρ) (rule : ρ) (sent : Bool) :
    State ρ × Outcome :=
  match op, receiver with
  | .addMatch, .waiter => addMatch s rule sent
  | .addMatch, .callback => addMatchAsync s rule true sent
  | .addMatch, .nobody => addMatchAsync s rule false sent
  | .removeMatch, .waiter => removeMatch s rule sent
  | .removeMatch, .callback => removeMatchAsync s rule true sent
  | .removeMatch, .nobody => removeMatchAsync s rule false sent

/-- What the code after `send_and_wait` and the reply callbacks make of a reply. -/
def Reply.handle (reply : Reply ρ) (matchRules : Finset ρ) : Finset ρ :=
  if reply.ok then reply.request.op.update matchRules reply.request.rule else matchRules

def replyTo (request : Request ρ) (ok : Bool) : List (Reply ρ) :=
  if request.receiver = .nobody then [] else [⟨request, ok⟩]

def initial : State ρ where
  matchRules := ∅
  matchRuleMutex := none
  outgoing := []
  replies := []
  bus := 0

/-- A synchronous call from its start to its end; `ok` when its request is sent and the bus
    accepts it. -/
def syncResult (op : Op) (matchRules : Finset ρ) (rule : ρ) (ok : Bool) : Finset ρ × Bool :=
  if op.nothingToDo matchRules rule then (matchRules, true)
  else if ok then (op.update matchRules rule, true)
  else (matchRules, false)

/-! ## The bus and the runs -/

/-- The rule in the message: `append_args` gives libdbus the `c_str ()` of it. -/
def Request.text (request : Request Bytes) : Bytes := cStr request.rule

/-- The bus adds or removes one copy, or refuses; it cannot remove a rule it does not have. -/
def busAnswer (bus : Multiset Bytes) (request : Request Bytes) (accept : Bool) :
    Multiset Bytes × Bool :=
  match request.op with
  | .addMatch => if accept then (request.text ::ₘ bus, true) else (bus, false)
  | .removeMatch =>
    if accept ∧ request.text ∈ bus then (bus.erase request.text, true) else (bus, false)

def step (s : State Bytes) : Label Bytes → Option (State Bytes)
  | .call op receiver rule sent =>
    if s.matchRuleMutex = none then some (call op receiver s rule sent).1 else none
  | .answer accept =>
    match s.outgoing with
    | [] => none
    | request :: rest =>
      let (bus, ok) := busAnswer s.bus request accept
      some { s with
        outgoing := rest
        bus := bus
        replies := s.replies ++ if request.timedOut then [] else replyTo request ok }
  | .timeOut position =>
    match s.outgoing[position]? with
    | none => none
    | some request =>
      if request.receiver = .nobody ∨ request.timedOut then none
      else
        some { s with
          outgoing := s.outgoing.set position { request with timedOut := true }
          replies := s.replies ++ [⟨request, false⟩] }
  | .dispatch =>
    match s.replies with
    | [] => none
    | reply :: rest =>
      if reply.request.receiver = .waiter then
        -- The callback of `send_and_wait`.
        if s.matchRuleMutex = some none then
          some { s with replies := rest, matchRuleMutex := some (some reply) }
        else none
      else if s.matchRuleMutex = none then
        some { s with replies := rest, matchRules := reply.handle s.matchRules }
      else none
  | .finish =>
    match s.matchRuleMutex with
    | some (some reply) =>
      some { s with matchRuleMutex := none, matchRules := reply.handle s.matchRules }
    | _ => none

def system : TransitionSystem (State Bytes) (Label Bytes) where
  init s := s = initial
  step := step

/-- No request is in flight. -/
def State.Quiet (s : State ρ) : Prop :=
  s.outgoing = [] ∧ s.replies = [] ∧ s.matchRuleMutex = none

/-- When no request is in flight, the bus has the elements of `match_rules`, each once. -/
def Mirrors (s : State ρ) : Prop := s.Quiet → s.bus = s.matchRules.val

/-- With no other request in flight a synchronous call runs to its end, and its result is
    that of `syncResult`. -/
theorem run_callSync {s : State Bytes} (hquiet : s.Quiet) {op : Op} {rule : Bytes}
    (accept : Bool) (hwork : op.nothingToDo s.matchRules rule = false) :
    ∃ s', system.run s
        [.call op .waiter rule true, .answer accept, .dispatch, .finish] = some s' ∧
      s'.Quiet ∧
      s'.matchRules =
        (syncResult op s.matchRules rule
          (busAnswer s.bus ⟨op, rule, .waiter, false⟩ accept).2).1 := by
  obtain ⟨houtgoing, hreplies, hmutex⟩ := hquiet
  have hcall : (call op .waiter s rule true).1 =
      { s.send ⟨op, rule, .waiter, false⟩ with matchRuleMutex := some none } := by
    cases op <;> simp only [call, addMatch, removeMatch, callSync, hwork] <;> rfl
  let answer := busAnswer s.bus ⟨op, rule, .waiter, false⟩ accept
  let final : State Bytes :=
    { matchRules := Reply.handle ⟨⟨op, rule, .waiter, false⟩, answer.2⟩ s.matchRules
      matchRuleMutex := none
      outgoing := []
      replies := []
      bus := answer.1 }
  refine ⟨final, ?_, ⟨rfl, rfl, rfl⟩, ?_⟩
  · simp [TransitionSystem.run, system, step, hmutex, hcall, State.send, houtgoing, hreplies,
      replyTo, final, answer]
  · simp only [syncResult, hwork, Bool.false_eq_true, if_false, final, Reply.handle, answer]
    split <;> rfl

/-! ## Where the requests in flight lead -/

/-- The changes of `match_rules` that a reply makes. -/
def Reply.changes (reply : Reply ρ) : List (Op × ρ) :=
  if reply.ok then [(reply.request.op, reply.request.rule)] else []

/-- The changes that the answer to a request makes, if it still reaches somebody. -/
def Request.changes (request : Request ρ) (ok : Bool) : List (Op × ρ) :=
  if ok ∧ request.receiver ≠ .nobody ∧ request.timedOut = false then [(request.op, request.rule)]
  else []

/-- `Drained answers bus outgoing bus' changes`: the bus has answered all of `outgoing`, each
    request as `answers` permits, and its replies make the changes. -/
inductive Drained (answers : Request Bytes → Bool → Prop) :
    Multiset Bytes → List (Request Bytes) → Multiset Bytes → List (Op × Bytes) → Prop where
  | nil (bus : Multiset Bytes) : Drained answers bus [] bus []
  | cons {bus bus' : Multiset Bytes} {request : Request Bytes} {rest : List (Request Bytes)}
      {accept : Bool} {changes : List (Op × Bytes)} :
      answers request accept → Drained answers (busAnswer bus request accept).1 rest bus' changes →
      Drained answers bus (request :: rest) bus'
        (request.changes (busAnswer bus request accept).2 ++ changes)

/-- The changes that the replies will make which are not handled yet. -/
def State.unhandled (s : State ρ) : List (Op × ρ) :=
  (s.matchRuleMutex.join.toList ++ s.replies).flatMap Reply.changes

/-- What the bus has and which changes are to be made, once it has answered everything. -/
def State.Drains (answers : Request Bytes → Bool → Prop) (s : State Bytes)
    (bus : Multiset Bytes) (changes : List (Op × Bytes)) : Prop :=
  ∃ later, Drained answers s.bus s.outgoing bus later ∧ changes = s.unhandled ++ later

/-- A call of `op` on the rule has succeeded or may still succeed, and its caller does not
    know yet. -/
def State.MayComplete (answers : Request Bytes → Bool → Prop) (s : State Bytes) (op : Op)
    (rule : Bytes) : Prop :=
  ∃ bus changes, s.Drains answers bus changes ∧ (op, rule) ∈ changes

variable {answers : Request Bytes → Bool → Prop}

theorem Drained.append {bus bus' bus'' : Multiset Bytes} {outgoing rest : List (Request Bytes)}
    {changes changes' : List (Op × Bytes)} (h : Drained answers bus outgoing bus' changes)
    (hrest : Drained answers bus' rest bus'' changes') :
    Drained answers bus (outgoing ++ rest) bus'' (changes ++ changes') := by
  induction h with
  | nil => exact hrest
  | cons hanswer _ ih =>
    rw [List.append_assoc]
    exact .cons hanswer (ih hrest)

theorem Drained.of_append {bus bus'' : Multiset Bytes} {outgoing rest : List (Request Bytes)}
    {changes'' : List (Op × Bytes)} (h : Drained answers bus (outgoing ++ rest) bus'' changes'') :
    ∃ bus' changes changes', Drained answers bus outgoing bus' changes ∧
      Drained answers bus' rest bus'' changes' ∧ changes'' = changes ++ changes' := by
  induction outgoing generalizing bus changes'' with
  | nil => exact ⟨bus, [], changes'', .nil bus, h, rfl⟩
  | cons request outgoing ih =>
    cases h with
    | cons hanswer hrest =>
      obtain ⟨bus', changes, changes', hfirst, hlast, rfl⟩ := ih hrest
      exact ⟨bus', _, changes', .cons hanswer hfirst, hlast, (List.append_assoc ..).symm⟩

/-- Every change answers a request that was outgoing. -/
theorem Drained.exists_request {bus bus' : Multiset Bytes} {outgoing : List (Request Bytes)}
    {changes : List (Op × Bytes)} (h : Drained answers bus outgoing bus' changes)
    {change : Op × Bytes} (hmem : change ∈ changes) :
    ∃ request ∈ outgoing, change = (request.op, request.rule) := by
  induction h with
  | nil => cases hmem
  | @cons _ _ request rest _ _ _ _ ih =>
    obtain hmem | hmem := List.mem_append.mp hmem
    · refine ⟨request, List.mem_cons_self, ?_⟩
      unfold Request.changes at hmem
      split at hmem
      case isTrue => exact List.mem_singleton.mp hmem
      case isFalse => cases hmem
    · obtain ⟨request', hrequest, heq⟩ := ih hmem
      exact ⟨request', List.mem_cons_of_mem _ hrequest, heq⟩

/-- Nothing may complete for a rule when no request on it is in flight. -/
theorem State.not_mayComplete {s : State Bytes} {rule : Bytes}
    (houtgoing : ∀ request ∈ s.outgoing, request.rule ≠ rule)
    (hunhandled : ∀ change ∈ s.unhandled, change.2 ≠ rule) (op : Op) :
    ¬ s.MayComplete answers op rule := by
  rintro ⟨bus, changes, ⟨later, hdrained, rfl⟩, hmem⟩
  obtain hbefore | hlater := List.mem_append.mp hmem
  · exact hunhandled _ hbefore rfl
  · obtain ⟨request, hrequest, heq⟩ := hdrained.exists_request hlater
    exact houtgoing request hrequest (congrArg Prod.snd heq).symm

/-- The changes in their order. -/
def handleAll (matchRules : Finset ρ) (changes : List (Op × ρ)) : Finset ρ :=
  changes.foldl (fun rules change => change.1.update rules change.2) matchRules

theorem handleAll_append (matchRules : Finset ρ) (changes changes' : List (Op × ρ)) :
    handleAll matchRules (changes ++ changes') =
      handleAll (handleAll matchRules changes) changes' :=
  List.foldl_append

theorem Reply.handle_eq (reply : Reply ρ) (matchRules : Finset ρ) :
    reply.handle matchRules = handleAll matchRules reply.changes := by
  unfold Reply.handle Reply.changes
  split <;> rfl

theorem mem_of_mem_handleAll {matchRules : Finset ρ} {changes : List (Op × ρ)} {rule : ρ}
    (h : rule ∈ handleAll matchRules changes) :
    rule ∈ matchRules ∨ (.addMatch, rule) ∈ changes := by
  induction changes generalizing matchRules with
  | nil => exact .inl h
  | cons change rest ih =>
    obtain ⟨op, rule'⟩ := change
    obtain hmem | hrest := ih h
    · cases op with
      | addMatch =>
        obtain rfl | hmem := Finset.mem_insert.mp hmem
        · exact .inr List.mem_cons_self
        · exact .inl hmem
      | removeMatch => exact .inl (Finset.mem_of_mem_erase hmem)
    · exact .inr (List.mem_cons_of_mem _ hrest)

/-- Two changes commute unless one of them undoes the other. -/
theorem Op.update_comm {op op' : Op} {rule rule' : ρ} (h : op' ≠ op → rule' ≠ rule)
    (matchRules : Finset ρ) :
    op'.update (op.update matchRules rule) rule' =
      op.update (op'.update matchRules rule') rule := by
  cases op with
  | addMatch =>
    cases op' with
    | addMatch => exact Finset.insert_comm _ _ _
    | removeMatch => exact Finset.erase_insert_of_ne (h (by simp)).symm
  | removeMatch =>
    cases op' with
    | addMatch => exact (Finset.erase_insert_of_ne (h (by simp))).symm
    | removeMatch => exact Finset.erase_right_comm

/-- A change commutes with others that do not undo it. -/
theorem handleAll_update (op : Op) (matchRules : Finset ρ) {changes : List (Op × ρ)} {rule : ρ}
    (h : ∀ op', op' ≠ op → (op', rule) ∉ changes) :
    handleAll (op.update matchRules rule) changes =
      op.update (handleAll matchRules changes) rule := by
  induction changes generalizing matchRules with
  | nil => rfl
  | cons change rest ih =>
    have hcomm : change.1.update (op.update matchRules rule) change.2 =
        op.update (change.1.update matchRules change.2) rule := by
      apply Op.update_comm
      rintro hop rfl
      exact h _ hop List.mem_cons_self
    have hrest := ih (change.1.update matchRules change.2) fun op' hop hmem =>
      h op' hop (List.mem_cons_of_mem _ hmem)
    simp only [handleAll, List.foldl_cons] at hrest ⊢
    rw [hcomm, hrest]

/-! ## The steps -/

/-- What a step does to the rules and to the requests in flight, unless a call times out. -/
inductive Effect (s s' : State Bytes) : Label Bytes → Prop where
  | call {op : Op} {receiver : Receiver} {rule : Bytes} {sent : Bool} :
      s.matchRuleMutex = none → s' = (call op receiver s rule sent).1 →
      Effect s s' (.call op receiver rule sent)
  | answer {accept : Bool} {request : Request Bytes} :
      s.outgoing = request :: s'.outgoing → s'.bus = (busAnswer s.bus request accept).1 →
      s'.unhandled = s.unhandled ++ request.changes (busAnswer s.bus request accept).2 →
      s'.matchRules = s.matchRules → Effect s s' (.answer accept)
  | handled {label : Label Bytes} (changes : List (Op × Bytes)) : s'.outgoing = s.outgoing →
      s'.bus = s.bus → s.unhandled = changes ++ s'.unhandled →
      s'.matchRules = handleAll s.matchRules changes → Effect s s' label

omit [DecidableEq ρ] in
theorem changes_replies (request : Request ρ) (ok : Bool) :
    (if request.timedOut then [] else replyTo request ok).flatMap Reply.changes =
      request.changes ok := by
  unfold Request.changes replyTo
  cases request.timedOut <;> cases ok <;> by_cases h : request.receiver = .nobody <;>
    simp [h, Reply.changes]

theorem effect_of_step {s s' : State Bytes} {a : Label Bytes}
    (htimeOut : ∀ position, a ≠ .timeOut position) (h : step s a = some s') : Effect s s' a := by
  cases a with
  | timeOut position => exact absurd rfl (htimeOut position)
  | call op receiver rule sent =>
    simp only [step, Option.ite_none_right_eq_some, Option.some.injEq] at h
    exact .call h.1 h.2.symm
  | answer accept =>
    simp only [step] at h
    split at h
    case h_1 => cases h
    case h_2 request rest houtgoing =>
      cases h
      refine .answer houtgoing rfl ?_ rfl
      rw [← changes_replies]
      simp only [State.unhandled, List.flatMap_append, List.append_assoc]
  | dispatch =>
    simp only [step] at h
    split at h
    case h_1 => cases h
    case h_2 reply rest hreplies =>
      by_cases hwaiter : reply.request.receiver = .waiter
      · simp only [if_pos hwaiter, Option.ite_none_right_eq_some, Option.some.injEq] at h
        obtain ⟨hmutex, rfl⟩ := h
        -- The reply is handed to the waiting call, which will handle it before all others.
        exact .handled [] rfl rfl (by simp [State.unhandled, hmutex, hreplies]) rfl
      · simp only [if_neg hwaiter, Option.ite_none_right_eq_some, Option.some.injEq] at h
        obtain ⟨hmutex, rfl⟩ := h
        exact .handled reply.changes rfl rfl (by simp [State.unhandled, hmutex, hreplies])
          (reply.handle_eq _)
  | finish =>
    simp only [step] at h
    split at h
    case h_1 reply hmutex =>
      cases h
      exact .handled reply.changes rfl rfl (by simp [State.unhandled, hmutex])
        (reply.handle_eq _)
    case h_2 => cases h

/-- A call that finds nothing to do changes nothing; any other call sends a request unless
    sending fails, and without a callback it changes the rules either way. -/
theorem call_spec (op : Op) (receiver : Receiver) {s : State ρ} (rule : ρ) (sent : Bool)
    (hfree : s.matchRuleMutex = none) :
    (call op receiver s rule sent).1.bus = s.bus ∧
    (call op receiver s rule sent).1.unhandled = s.unhandled ∧
    (call op receiver s rule sent).1.matchRules =
      (if op.nothingToDo s.matchRules rule = false ∧ receiver = .nobody then
        op.update s.matchRules rule
      else s.matchRules) ∧
    (call op receiver s rule sent).1.outgoing =
      s.outgoing ++
        (if op.nothingToDo s.matchRules rule = false ∧ sent = true then
          [⟨op, rule, receiver, false⟩]
        else []) := by
  cases hop : op <;> cases receiver <;> cases sent <;>
    cases hnothing : op.nothingToDo s.matchRules rule <;>
    simp [call, addMatch, addMatchAsync, removeMatch, removeMatchAsync, callSync, callAsync,
      State.send, State.unhandled, ← hop, hnothing, hfree]

theorem drains_call {op : Op} {receiver : Receiver} {s : State Bytes} {rule : Bytes} {sent : Bool}
    (hfree : s.matchRuleMutex = none) {bus : Multiset Bytes} {changes : List (Op × Bytes)}
    (hdrains : (call op receiver s rule sent).1.Drains answers bus changes) :
    if op.nothingToDo s.matchRules rule = false ∧ sent = true then
      ∃ bus' changes' accept, s.Drains answers bus' changes' ∧
        answers ⟨op, rule, receiver, false⟩ accept ∧
        bus = (busAnswer bus' ⟨op, rule, receiver, false⟩ accept).1 ∧
        changes = changes' ++ Request.changes ⟨op, rule, receiver, false⟩
          (busAnswer bus' ⟨op, rule, receiver, false⟩ accept).2
    else s.Drains answers bus changes := by
  obtain ⟨hbus, hunhandled, -, houtgoing⟩ := call_spec op receiver rule sent hfree
  obtain ⟨later, hdrained, rfl⟩ := hdrains
  rw [hbus, houtgoing] at hdrained
  rw [hunhandled]
  split at hdrained
  case isTrue hsent =>
    rw [if_pos hsent]
    obtain ⟨bus', before, last, hbefore, hlast, rfl⟩ := hdrained.of_append
    cases hlast with
    | cons hanswer hnil =>
      cases hnil
      exact ⟨bus', _, _, ⟨before, hbefore, rfl⟩, hanswer, rfl, by simp⟩
  case isFalse hsent =>
    rw [if_neg hsent]
    rw [List.append_nil] at hdrained
    exact ⟨later, hdrained, rfl⟩

/-- After a step that is not a call, the outcomes are among those before it, without the changes
    that the step has made. -/
theorem Effect.drains {s s' : State Bytes} {a : Label Bytes} (h : Effect s s' a)
    (hcall : ∀ op receiver rule sent, a ≠ .call op receiver rule sent)
    (hanswers : ∀ accept, a = .answer accept → ∀ request ∈ s.outgoing.head?, answers request accept)
    {bus : Multiset Bytes} {changes : List (Op × Bytes)} (hdrains : s'.Drains answers bus changes) :
    ∃ made, s.Drains answers bus (made ++ changes) ∧
      s'.matchRules = handleAll s.matchRules made := by
  obtain ⟨later, hdrained, rfl⟩ := hdrains
  cases h with
  | call => exact absurd rfl (hcall _ _ _ _)
  | @answer accept request houtgoing hbus hunhandled hrules =>
    rw [hbus] at hdrained
    have hanswer := hanswers accept rfl request (by simp [houtgoing])
    have hbefore : Drained answers s.bus s.outgoing bus
        (request.changes (busAnswer s.bus request accept).2 ++ later) :=
      houtgoing ▸ .cons hanswer hdrained
    refine ⟨[], ⟨_, hbefore, ?_⟩, hrules⟩
    rw [hunhandled, List.nil_append, List.append_assoc]
  | handled made houtgoing hbus hunhandled hrules =>
    rw [houtgoing, hbus] at hdrained
    refine ⟨made, ⟨later, hdrained, ?_⟩, hrules⟩
    rw [hunhandled, List.append_assoc]

theorem timeOut_cases {s s' : State Bytes} {position : Nat}
    (h : step s (.timeOut position) = some s') :
    ∃ request before after, s.outgoing[position]? = some request ∧
      request.receiver ≠ .nobody ∧ request.timedOut = false ∧
      s.outgoing = before ++ request :: after ∧
      s' = { s with
        outgoing := before ++ { request with timedOut := true } :: after
        replies := s.replies ++ [⟨request, false⟩] } := by
  simp only [step] at h
  split at h
  case h_1 => cases h
  case h_2 request hrequest =>
    simp only [Option.ite_none_left_eq_some, Option.some.injEq, not_or, Bool.not_eq_true] at h
    obtain ⟨⟨hreceiver, htimedOut⟩, rfl⟩ := h
    obtain ⟨hposition, hget⟩ := List.getElem?_eq_some_iff.mp hrequest
    refine ⟨request, s.outgoing.take position, s.outgoing.drop (position + 1), hrequest, hreceiver,
      htimedOut, ?_, ?_⟩
    · rw [← hget, List.cons_getElem_drop_succ, List.take_append_drop]
    · rw [List.set_eq_take_append_cons_drop, if_pos hposition]

/-- After a call has timed out, its request leads to what it has led to before, but the answer to
    it makes no change. -/
theorem drains_timeOut {s s' : State Bytes} {position : Nat}
    (h : step s (.timeOut position) = some s') {bus : Multiset Bytes}
    {changes : List (Op × Bytes)} (hdrains : s'.Drains answers bus changes)
    (hanswers : ∀ request accept, request.receiver ≠ .nobody → request.timedOut = false →
      answers { request with timedOut := true } accept → answers request accept) :
    ∃ request bus' accept before after, s.outgoing[position]? = some request ∧
      answers { request with timedOut := true } accept ∧
      s.Drains answers bus
        (before ++ request.changes (busAnswer bus' request accept).2 ++ after) ∧
      changes = before ++ after := by
  obtain ⟨request, before, after, hrequest, hreceiver, htimedOut, houtgoing, rfl⟩ :=
    timeOut_cases h
  obtain ⟨later, hdrained, rfl⟩ := hdrains
  obtain ⟨bus', first, last, hfirst, hlast, rfl⟩ := hdrained.of_append
  cases hlast with
  | @cons _ _ _ _ accept rest hanswer hrest =>
    have hnone : Request.changes { request with timedOut := true }
        (busAnswer bus' { request with timedOut := true } accept).2 = [] := by
      simp [Request.changes]
    have hdrained' : Drained answers s.bus s.outgoing bus
        (first ++ (request.changes (busAnswer bus' request accept).2 ++ rest)) :=
      houtgoing ▸ hfirst.append
        (.cons (hanswers request accept hreceiver htimedOut hanswer) hrest)
    refine ⟨request, bus', accept, s.unhandled ++ first, rest, hrequest, hanswer,
      ⟨_, hdrained', ?_⟩, ?_⟩
    · simp only [List.append_assoc]
    · rw [hnone]
      simp [State.unhandled, Reply.changes]

/-! ## Runs without overtaking -/

/-- The bus gets the whole rule: there is no NUL in it. -/
def Whole (rule : Bytes) : Prop := (0 : UInt8) ∉ rule

instance : DecidablePred Whole := fun rule => inferInstanceAs (Decidable ((0 : UInt8) ∉ rule))

/-- The bus accepts a request that nobody waits for.  It does not carry out one that has timed
    out, and it does not add a rule of which it gets a part. -/
def Permitted (request : Request Bytes) (accept : Bool) : Prop :=
  (request.receiver = .nobody → accept = true) ∧ (request.timedOut = true → accept = false) ∧
    (request.op = .addMatch → ¬ Whole request.rule → accept = false)

/-- A request without a callback is sent and accepted, and its rule has no NUL; and no
    `AddMatch` is sent for a rule while a call on that rule, whose reply would meet it in
    `match_rules`, has succeeded or may succeed.  The bus answers as `Permitted` says. -/
def NoOverlap (s : State Bytes) : Label Bytes → Prop
  | .call .addMatch receiver rule sent =>
    rule ∉ s.matchRules →
      (sent = true → ¬ s.MayComplete Permitted .addMatch rule) ∧
      (receiver = .nobody →
        sent = true ∧ Whole rule ∧ ¬ s.MayComplete Permitted .removeMatch rule)
  | .call .removeMatch receiver rule sent =>
    rule ∈ s.matchRules → receiver = .nobody → sent = true
  | .answer accept => ∀ request ∈ s.outgoing.head?, Permitted request accept
  | _ => True

/-- One outcome mirrors the bus, no rule will be added to where it is already, and the bus has
    all of every rule. -/
structure Fits (matchRules : Finset Bytes) (bus : Multiset Bytes)
    (changes : List (Op × Bytes)) : Prop where
  mirrored : bus = (handleAll matchRules changes).val
  once : ∀ rule,
    changes.count (.addMatch, rule) + (if rule ∈ matchRules then 1 else 0) ≤ 1
  whole : ∀ rule ∈ matchRules, Whole rule
  wholeChanges : ∀ change ∈ changes, Whole change.2

/-- However the bus answers what is in flight, the outcome fits. -/
def Inv (s : State Bytes) : Prop :=
  ∀ bus changes, s.Drains Permitted bus changes → Fits s.matchRules bus changes

section Fits

variable {matchRules : Finset Bytes} {bus : Multiset Bytes} {changes : List (Op × Bytes)}
  {rule : Bytes}

theorem Fits.notMem_changes (h : Fits matchRules bus changes) (hmem : rule ∈ matchRules) :
    (.addMatch, rule) ∉ changes := by
  have honce := h.once rule
  rw [if_pos hmem] at honce
  exact List.count_eq_zero.mp (by omega)

theorem Fits.handle_one {change : Op × Bytes} (h : Fits matchRules bus (change :: changes)) :
    Fits (change.1.update matchRules change.2) bus changes := by
  obtain ⟨hmirrored, honce, hwhole, hwholeChanges⟩ := h
  obtain ⟨op, rule⟩ := change
  have hlater : ∀ change ∈ changes, Whole change.2 := fun change hmem =>
    hwholeChanges change (List.mem_cons_of_mem _ hmem)
  refine ⟨hmirrored, fun r => ?_, fun r hmem => ?_, hlater⟩
  · have honce := honce r
    cases op with
    | addMatch =>
      by_cases heq : r = rule
      · -- The rule that has just been added is not added a second time.
        subst heq
        rw [List.count_cons_self] at honce
        split <;> omega
      · have hne : (Op.addMatch, rule) ≠ (Op.addMatch, r) := by simp [Ne.symm heq]
        simpa [Op.update, heq, List.count_cons_of_ne hne] using honce
    | removeMatch =>
      rw [List.count_cons_of_ne (by simp)] at honce
      refine le_trans (Nat.add_le_add_left ?_ _) honce
      split
      case isTrue hmem => rw [if_pos (Finset.mem_of_mem_erase hmem)]
      case isFalse => exact Nat.zero_le _
  · cases op with
    | addMatch =>
      obtain rfl | hmem := Finset.mem_insert.mp hmem
      · exact hwholeChanges _ List.mem_cons_self
      · exact hwhole r hmem
    | removeMatch => exact hwhole r (Finset.mem_of_mem_erase hmem)

theorem Fits.handle {made : List (Op × Bytes)} (h : Fits matchRules bus (made ++ changes)) :
    Fits (handleAll matchRules made) bus changes := by
  induction made generalizing matchRules with
  | nil => exact h
  | cons change made ih => exact ih h.handle_one

theorem Fits.notMem_handleAll (hnew : rule ∉ matchRules) (hadded : (.addMatch, rule) ∉ changes) :
    rule ∉ handleAll matchRules changes := fun hmem =>
  (mem_of_mem_handleAll hmem).elim hnew hadded

/-- An `AddMatch` whose reply somebody waits for. -/
theorem Fits.addMatch (h : Fits matchRules bus changes) {receiver : Receiver} {accept : Bool}
    (hreceiver : receiver ≠ .nobody)
    (hpermitted : Permitted ⟨.addMatch, rule, receiver, false⟩ accept)
    (hnew : rule ∉ matchRules) (hadded : (.addMatch, rule) ∉ changes) :
    Fits matchRules (busAnswer bus ⟨.addMatch, rule, receiver, false⟩ accept).1
      (changes ++ Request.changes ⟨.addMatch, rule, receiver, false⟩
        (busAnswer bus ⟨.addMatch, rule, receiver, false⟩ accept).2) := by
  obtain ⟨hmirrored, honce, hwhole, hwholeChanges⟩ := h
  cases accept with
  | false =>
    -- Refused: nothing will be changed.
    simpa [busAnswer, Request.changes] using ⟨hmirrored, honce, hwhole, hwholeChanges⟩
  | true =>
    -- Accepted: the reply will add the rule, which is not there by then.
    have hrule : Whole rule := by
      by_contra hnot
      exact Bool.noConfusion (hpermitted.2.2 rfl hnot)
    have hanswer : busAnswer bus ⟨.addMatch, rule, receiver, false⟩ true =
        (rule ::ₘ bus, true) := by
      simp only [busAnswer, Request.text, cStr_eq_self hrule, if_true]
    have hchanges : Request.changes ⟨.addMatch, rule, receiver, false⟩ true =
        [(.addMatch, rule)] := if_pos ⟨rfl, hreceiver, rfl⟩
    rw [hanswer, hchanges]
    refine ⟨?_, fun r => ?_, hwhole, fun change hmem => ?_⟩
    · rw [handleAll_append, hmirrored]
      exact (Finset.insert_val_of_notMem (Fits.notMem_handleAll hnew hadded)).symm
    · have honce := honce r
      rw [List.count_append]
      by_cases heq : r = rule
      · subst heq
        rw [List.count_eq_zero.mpr hadded, List.count_singleton_self, if_neg hnew]
      · have hne : ((Op.addMatch, rule) == (Op.addMatch, r)) = false := by simp [Ne.symm heq]
        rw [List.count_singleton, hne]
        exact honce
    · obtain hmem | hmem := List.mem_append.mp hmem
      · exact hwholeChanges change hmem
      · exact List.mem_singleton.mp hmem ▸ hrule

/-- An `AddMatch` that nobody waits for, accepted; the rule is in `match_rules` already. -/
theorem Fits.addMatch_silent (h : Fits matchRules bus changes) (hrule : Whole rule)
    (hnew : rule ∉ matchRules) (hadded : (.addMatch, rule) ∉ changes)
    (hremoved : (.removeMatch, rule) ∉ changes) :
    Fits (insert rule matchRules) (rule ::ₘ bus) changes := by
  obtain ⟨hmirrored, honce, hwhole, hwholeChanges⟩ := h
  have hcomm : handleAll (insert rule matchRules) changes =
      insert rule (handleAll matchRules changes) := by
    apply handleAll_update .addMatch
    intro op hop
    cases op with
    | addMatch => exact absurd rfl hop
    | removeMatch => exact hremoved
  refine ⟨?_, fun r => ?_, fun r hmem => ?_, hwholeChanges⟩
  · rw [hcomm, Finset.insert_val_of_notMem (Fits.notMem_handleAll hnew hadded), hmirrored]
  · by_cases heq : r = rule
    · rw [heq, List.count_eq_zero.mpr hadded]
      split <;> omega
    · simpa [heq] using honce r
  · obtain rfl | hmem := Finset.mem_insert.mp hmem
    · exact hrule
    · exact hwhole r hmem

theorem busAnswer_removeMatch (receiver : Receiver) (accept : Bool) (hrule : Whole rule) :
    busAnswer bus ⟨.removeMatch, rule, receiver, false⟩ accept =
      if accept ∧ rule ∈ bus then (bus.erase rule, true) else (bus, false) := by
  simp only [busAnswer, Request.text, cStr_eq_self hrule]

/-- A `RemoveMatch` whose reply somebody waits for. -/
theorem Fits.removeMatch (h : Fits matchRules bus changes) {receiver : Receiver} (accept : Bool)
    (hreceiver : receiver ≠ .nobody) (hrule : Whole rule) :
    Fits matchRules (busAnswer bus ⟨.removeMatch, rule, receiver, false⟩ accept).1
      (changes ++ Request.changes ⟨.removeMatch, rule, receiver, false⟩
        (busAnswer bus ⟨.removeMatch, rule, receiver, false⟩ accept).2) := by
  obtain ⟨hmirrored, honce, hwhole, hwholeChanges⟩ := h
  rw [busAnswer_removeMatch receiver accept hrule]
  split
  case isTrue =>
    -- The reply will take out the rule that the bus has taken out.
    have hchanges : Request.changes ⟨.removeMatch, rule, receiver, false⟩ true =
        [(.removeMatch, rule)] := if_pos ⟨rfl, hreceiver, rfl⟩
    rw [hchanges]
    refine ⟨?_, fun r => ?_, hwhole, fun change hmem => ?_⟩
    · rw [handleAll_append, hmirrored]
      exact (Finset.erase_val _ _).symm
    · simpa [List.count_append, List.count_singleton] using honce r
    · obtain hmem | hmem := List.mem_append.mp hmem
      · exact hwholeChanges change hmem
      · exact List.mem_singleton.mp hmem ▸ hrule
  case isFalse =>
    simpa [Request.changes] using ⟨hmirrored, honce, hwhole, hwholeChanges⟩

/-- A `RemoveMatch` that nobody waits for, accepted unless the bus does not have the rule;
    the rule is no longer in `match_rules`. -/
theorem Fits.removeMatch_silent (h : Fits matchRules bus changes) (hmem : rule ∈ matchRules) :
    Fits (matchRules.erase rule)
      (busAnswer bus ⟨.removeMatch, rule, .nobody, false⟩ true).1 changes := by
  have hadded := h.notMem_changes hmem
  obtain ⟨hmirrored, honce, hwhole, hwholeChanges⟩ := h
  have hbus : (busAnswer bus ⟨.removeMatch, rule, .nobody, false⟩ true).1 = bus.erase rule := by
    rw [busAnswer_removeMatch _ _ (hwhole rule hmem)]
    by_cases hrule : rule ∈ bus
    · simp only [hrule, and_self, if_true]
    · simp only [hrule, and_false, if_false, Multiset.erase_of_notMem hrule]
  have hcomm : handleAll (matchRules.erase rule) changes =
      (handleAll matchRules changes).erase rule := by
    apply handleAll_update .removeMatch
    intro op hop
    cases op with
    | addMatch => exact hadded
    | removeMatch => exact absurd rfl hop
  refine ⟨?_, fun r => ?_, fun r hr => hwhole r (Finset.mem_of_mem_erase hr), hwholeChanges⟩
  · rw [hbus, hcomm, hmirrored, Finset.erase_val]
  · refine le_trans (Nat.add_le_add_left ?_ _) (honce r)
    split
    case isTrue hr => rw [if_pos (Finset.mem_of_mem_erase hr)]
    case isFalse => exact Nat.zero_le _

end Fits

theorem inv_call {s : State Bytes} {op : Op} {receiver : Receiver} {rule : Bytes} {sent : Bool}
    (h : Inv s) (hfree : s.matchRuleMutex = none)
    (hallowed : NoOverlap s (.call op receiver rule sent)) :
    Inv (call op receiver s rule sent).1 := by
  intro bus changes hdrains
  have houtcome := drains_call hfree hdrains
  obtain ⟨-, -, hrules, -⟩ := call_spec op receiver rule sent hfree
  rw [hrules]
  cases hnothing : op.nothingToDo s.matchRules rule with
  | true =>
    rw [if_neg (by simp)]
    rw [if_neg (by simp [hnothing])] at houtcome
    exact h bus changes houtcome
  | false =>
    by_cases hnobody : receiver = .nobody
    · -- The rules are changed at once; the request is sent and will be accepted.
      subst hnobody
      have hsent : sent = true := by
        cases op with
        | addMatch => exact ((hallowed (by simpa [Op.nothingToDo] using hnothing)).2 rfl).1
        | removeMatch => exact hallowed (by simpa [Op.nothingToDo] using hnothing) rfl
      rw [if_pos ⟨hnothing, hsent⟩] at houtcome
      obtain ⟨bus', changes', accept, hbefore, haccept, rfl, rfl⟩ := houtcome
      obtain rfl := haccept.1 rfl
      rw [if_pos ⟨rfl, rfl⟩]
      cases op with
      | addMatch =>
        have hnew : rule ∉ s.matchRules := by simpa [Op.nothingToDo] using hnothing
        obtain ⟨hadded, hsilent⟩ := hallowed hnew
        obtain ⟨-, hrule, hremoved⟩ := hsilent rfl
        have hfits := (h bus' changes' hbefore).addMatch_silent hrule hnew
          (fun hmem => hadded hsent ⟨bus', changes', hbefore, hmem⟩)
          (fun hmem => hremoved ⟨bus', changes', hbefore, hmem⟩)
        simpa [busAnswer, Request.changes, Request.text, cStr_eq_self hrule, Op.update] using hfits
      | removeMatch =>
        have hmem : rule ∈ s.matchRules := by simpa [Op.nothingToDo] using hnothing
        simpa [Request.changes, Op.update] using (h bus' changes' hbefore).removeMatch_silent hmem
    · -- The rules are changed by the reply, if there is one.
      rw [if_neg (by simp [hnobody])]
      cases sent with
      | false =>
        rw [if_neg (by simp)] at houtcome
        exact h bus changes houtcome
      | true =>
        rw [if_pos ⟨hnothing, rfl⟩] at houtcome
        obtain ⟨bus', changes', accept, hbefore, haccept, rfl, rfl⟩ := houtcome
        have hfits := h bus' changes' hbefore
        cases op with
        | addMatch =>
          have hnew : rule ∉ s.matchRules := by simpa [Op.nothingToDo] using hnothing
          refine hfits.addMatch hnobody haccept hnew fun hmem => ?_
          exact (hallowed hnew).1 rfl ⟨bus', changes', hbefore, hmem⟩
        | removeMatch =>
          have hmem : rule ∈ s.matchRules := by simpa [Op.nothingToDo] using hnothing
          exact hfits.removeMatch accept hnobody (hfits.whole rule hmem)

/-- What has timed out is not carried out, so that the outcomes are those of a refusal. -/
theorem inv_timeOut {s s' : State Bytes} {position : Nat} (h : Inv s)
    (hstep : step s (.timeOut position) = some s') : Inv s' := by
  intro bus changes hdrains
  have hrules : s'.matchRules = s.matchRules := by
    obtain ⟨-, -, -, -, -, -, -, rfl⟩ := timeOut_cases hstep
    rfl
  have hanswers : ∀ (request : Request Bytes) (accept : Bool), request.receiver ≠ .nobody →
      request.timedOut = false → Permitted { request with timedOut := true } accept →
      Permitted request accept := fun request accept hreceiver htimedOut hpermitted =>
    ⟨fun hnobody => absurd hnobody hreceiver, fun hlate => by simp [htimedOut] at hlate,
      hpermitted.2.2⟩
  obtain ⟨request, bus', accept, before, after, -, hpermitted, hbefore, rfl⟩ :=
    drains_timeOut hstep hdrains hanswers
  obtain rfl : accept = false := hpermitted.2.1 rfl
  have hrefused : request.changes (busAnswer bus' request false).2 = [] := by
    cases hop : request.op <;> simp [busAnswer, hop, Request.changes]
  rw [hrefused, List.append_nil] at hbefore
  rw [hrules]
  exact h bus _ hbefore

theorem inv_step {s s' : State Bytes} {a : Label Bytes} (h : Inv s) (hallowed : NoOverlap s a)
    (hstep : step s a = some s') : Inv s' := by
  by_cases hcall : ∀ op receiver rule sent, a ≠ .call op receiver rule sent
  · by_cases htimeOut : ∀ position, a ≠ .timeOut position
    · -- The outcomes are those of the state before, perhaps with what is handled in front.
      intro bus changes hdrains
      obtain ⟨made, hbefore, hrules⟩ := (effect_of_step htimeOut hstep).drains hcall
        (by rintro accept rfl; exact hallowed) hdrains
      exact hrules ▸ (h bus _ hbefore).handle
    · push Not at htimeOut
      obtain ⟨position, rfl⟩ := htimeOut
      exact inv_timeOut h hstep
  · push Not at hcall
    obtain ⟨op, receiver, rule, sent, rfl⟩ := hcall
    simp only [step, Option.ite_none_right_eq_some, Option.some.injEq] at hstep
    exact hstep.2 ▸ inv_call h hstep.1 hallowed

theorem mirrors_of_inv {s : State Bytes} (h : Inv s) : Mirrors s := by
  rintro ⟨houtgoing, hreplies, hmutex⟩
  have hdrains : s.Drains Permitted s.bus [] := by
    refine ⟨[], houtgoing ▸ .nil _, ?_⟩
    simp [State.unhandled, hreplies, hmutex]
  exact (h _ _ hdrains).mirrored

/-- In every run in which requests without a callback succeed, what times out is not carried
    out, rules have no NUL and no `AddMatch` overtakes an unanswered call on its rule, the bus
    has exactly the rules of `match_rules`, each once, whenever no request is in flight. -/
theorem mirrors_of_noOverlap {s : State Bytes} (h : system.ReachableWhen NoOverlap s) :
    Mirrors s := by
  apply mirrors_of_inv
  apply h.invariant
  case initial =>
    rintro _ rfl bus changes ⟨later, hdrained, rfl⟩
    cases hdrained
    exact ⟨rfl, fun rule => by simp [initial], fun rule => by simp [initial], nofun⟩
  case preserved => exact fun _ _ _ => inv_step

/-- Three rules, one for each kind of call, and the second one removed again.  The bus refuses the
    third one and takes longer for it than the caller waits. -/
def disjointRun : List (Label Bytes) :=
  [.call .addMatch .callback (text "a") true, .call .addMatch .nobody (text "b") true,
    .answer true, .answer true, .dispatch, .call .addMatch .waiter (text "c") true, .timeOut 0,
    .dispatch, .answer false, .finish, .call .removeMatch .callback (text "b") true, .answer true,
    .dispatch]

theorem disjointRun_mirrors :
    ∃ s, system.run initial disjointRun = some s ∧ Mirrors s ∧ s.matchRules = {text "a"} := by
  have hrun : system.run initial disjointRun = some _ := rfl
  refine ⟨_, hrun, mirrors_of_noOverlap ?_, rfl⟩
  refine TransitionSystem.reachableWhen_of_run _ rfl ?_ hrun
  have hsettled : ∀ {s : State Bytes} {rule : Bytes} (op : Op),
      ((∀ request ∈ s.outgoing, request.rule ≠ rule) ∧
        ∀ change ∈ s.unhandled, change.2 ≠ rule) →
      ¬ s.MayComplete Permitted op rule := fun op h => State.not_mayComplete h.1 h.2 op
  refine ⟨fun _ => ⟨fun _ => hsettled _ (by decide), nofun⟩,
    fun _ => ⟨fun _ => hsettled _ (by decide), fun _ => ⟨rfl, by decide, hsettled _ (by decide)⟩⟩,
    ?_, ?_, trivial, fun _ => ⟨fun _ => hsettled _ (by decide), nofun⟩, trivial, trivial, ?_,
    trivial, fun _ => nofun, ?_, trivial, trivial⟩
  all_goals
    rintro _ ⟨⟩
    exact ⟨by decide, by decide, by decide⟩

/-- Two threads add the same rule before the first reply. -/
def overlappingRun : List (Label Bytes) :=
  [.call .addMatch .callback (text "a") true, .call .addMatch .callback (text "a") true,
    .answer true, .answer true, .dispatch, .dispatch]

/-- The bus has the rule twice, so that one `remove_match` will leave a copy behind. -/
theorem overlappingRun_not_mirrors :
    ∃ s, system.Reachable s ∧ s.Quiet ∧ s.matchRules = {text "a"} ∧ s.bus = {text "a", text "a"} ∧
      ¬ Mirrors s := by
  have hrun : system.run initial overlappingRun = some _ := rfl
  refine ⟨_, TransitionSystem.reachable_of_run _ rfl hrun, ⟨rfl, rfl, rfl⟩, rfl, rfl, fun h => ?_⟩
  exact absurd (h ⟨rfl, rfl, rfl⟩) (by decide)

/-- Two rules of which the bus gets the same part. -/
def cutRun : List (Label Bytes) :=
  [.call .addMatch .callback (text "a") true, .answer true, .dispatch,
    .call .addMatch .callback (text "a\x00b") true, .answer true, .dispatch]

/-- A request that is carried out after its time is over. -/
def lateRun : List (Label Bytes) :=
  [.call .addMatch .callback (text "a") true, .timeOut 0, .dispatch, .answer true]

/-- Rules with a NUL and requests that are carried out late break the mirror too. -/
theorem cutAndLateRuns_not_mirrors :
    (∃ s, system.run initial cutRun = some s ∧ s.bus = {text "a", text "a"} ∧ ¬ Mirrors s) ∧
      ∃ s, system.run initial lateRun = some s ∧ s.matchRules = ∅ ∧ ¬ Mirrors s := by
  refine ⟨⟨_, rfl, rfl, fun h => ?_⟩, _, rfl, rfl, fun h => ?_⟩
  · exact absurd (h ⟨rfl, rfl, rfl⟩) (by decide)
  · exact absurd (h ⟨rfl, rfl, rfl⟩) (by decide)

end Ultrabus.MatchRules
