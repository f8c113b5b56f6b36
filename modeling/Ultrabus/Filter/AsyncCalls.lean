import Mathlib.Data.Multiset.Count
import Mathlib.Data.Multiset.Filter
import Mathlib.Logic.Function.Basic
import Ultrabus.Filter.MatchRules

/-! # Callbacks of asynchronous match requests

Asynchronous calls of `add_match` and `remove_match` on a connection that stays up, each with its
own callback or with none.  Requests are answered in any order, some by an error of libdbus when
their time is over, and replies are handled in any order.  The result of a call that finds nothing
to do is that of a request that was queued, so that its caller waits for ever. -/

namespace Ultrabus.AsyncCalls

open MatchRules (Op Request Reply Outcome callAsync replyTo)

/-- One call and its callback. -/
structure Call where
  -- the `callback` is not null
  callback : Bool
  -- nothing before the call
  returned : Option Bool
  -- how often the callback has been run
  runs : Nat
deriving DecidableEq, Repr

/-- Requests and replies with the calls that they belong to. -/
structure State (κ ρ : Type) where
  matchRules : Finset ρ
  outgoing : Multiset (κ × Request ρ)
  replies : Multiset (κ × Reply ρ)
  call : κ → Call

/-- `notified` when libdbus completes the pending call after its notify function has been set. -/
inductive Label (κ ρ : Type) where
  | call (c : κ) (op : Op) (rule : ρ) (callback sent : Bool)
  | answer (c : κ) (request : Request ρ) (ok notified : Bool)
  | dispatch (c : κ) (reply : Reply ρ)

variable {κ ρ : Type} [DecidableEq κ] [DecidableEq ρ]

/-- What a call has returned. -/
def returnValue : Outcome → Option Bool
  | .returned value => some value
  | .waits => none

/-- A call from its start to its end, under the mutex. -/
def State.makeCall (s : State κ ρ) (c : κ) (op : Op) (rule : ρ) (callback sent : Bool) :
    State κ ρ :=
  let filter := { MatchRules.initial with matchRules := s.matchRules }
  let result := callAsync op filter rule callback sent
  { s with
    matchRules := result.1.matchRules
    outgoing := (result.1.outgoing.map (Prod.mk c) : List _) + s.outgoing
    call := Function.update s.call c ⟨callback, returnValue result.2, 0⟩ }

def step (s : State κ ρ) : Label κ ρ → Option (State κ ρ)
  | .call c op rule callback sent =>
    if (s.call c).returned = none then some (s.makeCall c op rule callback sent) else none
  | .answer c request ok notified =>
    if (c, request) ∈ s.outgoing then
      let reply := if notified then replyTo request ok else []
      some { s with
        outgoing := s.outgoing.erase (c, request)
        replies := (reply.map (Prod.mk c) : List _) + s.replies }
    else none
  | .dispatch c reply =>
    if (c, reply) ∈ s.replies then
      some { s with
        matchRules := reply.handle s.matchRules
        replies := s.replies.erase (c, reply)
        call := Function.update s.call c { s.call c with runs := (s.call c).runs + 1 } }
    else none

/-- Any rules are tracked, and no call has been made. -/
def system (κ ρ : Type) [DecidableEq κ] [DecidableEq ρ] :
    TransitionSystem (State κ ρ) (Label κ ρ) where
  init s := s.outgoing = 0 ∧ s.replies = 0 ∧ ∀ c, s.call c = ⟨false, none, 0⟩
  step := step

/-! ## What a caller can rely on -/

/-- The request carries the callback of the call, as every one does that wants a reply. -/
def Carries (c : κ) (sent : κ × Request ρ) : Prop := sent.1 = c ∧ sent.2.receiver ≠ .nobody

instance (c : κ) : DecidablePred (Carries (ρ := ρ) c) := fun sent =>
  inferInstanceAs (Decidable (sent.1 = c ∧ sent.2.receiver ≠ .nobody))

/-- The requests and the replies in flight that carry the callback of the call. -/
def State.waiting (s : State κ ρ) (c : κ) : Nat :=
  s.outgoing.countP (Carries c) + s.replies.countP (·.1 = c)

/-- Every request is answered, and every reply is handled. -/
def State.Quiet (s : State κ ρ) : Prop := s.outgoing = 0 ∧ s.replies = 0

/-- The call has a callback and was successful. -/
def Call.Accepted (call : Call) : Prop := call.callback = true ∧ call.returned = some true

instance (call : Call) : Decidable call.Accepted :=
  inferInstanceAs (Decidable (call.callback = true ∧ call.returned = some true))

/-- A request has been queued for every accepted call, and runs its callback once; the callback of
    a call that has failed is not run. -/
structure Answered (s : State κ ρ) : Prop where
  queued : ∀ c, (s.call c).Accepted → s.waiting c + (s.call c).runs = 1
  once : s.Quiet → ∀ c, (s.call c).Accepted → (s.call c).runs = 1
  refused : ∀ c, (s.call c).returned = some false → s.waiting c = 0 ∧ (s.call c).runs = 0

/-- A call with a callback finds something to do, and the reply to its request is not completed
    before the notify function is set. -/
def Asks (s : State κ ρ) : Label κ ρ → Prop
  | .call _ op rule callback _ => callback = true → op.nothingToDo s.matchRules rule = false
  | .answer _ request _ notified => request.receiver ≠ .nobody → notified = true
  | .dispatch _ _ => True

/-! ## What one step does -/

/-- A call that finds nothing to do succeeds and queues nothing; any other one queues its request
    exactly if it succeeds. -/
theorem State.makeCall_spec (s : State κ ρ) (c : κ) (op : Op) (rule : ρ) (callback sent : Bool) :
    (op.nothingToDo s.matchRules rule = true ∧
      s.makeCall c op rule callback sent =
        { s with call := Function.update s.call c ⟨callback, some true, 0⟩ }) ∨
    (op.nothingToDo s.matchRules rule = false ∧ ∃ matchRules,
      s.makeCall c op rule callback sent = { s with
        matchRules := matchRules
        outgoing :=
          (if sent then {(c, ⟨op, rule, if callback then .callback else .nobody, false⟩)} else 0)
            + s.outgoing
        call := Function.update s.call c ⟨callback, some sent, 0⟩ }) := by
  cases hwork : op.nothingToDo s.matchRules rule with
  | true => exact .inl ⟨rfl, by simp [makeCall, callAsync, hwork, MatchRules.initial, returnValue]⟩
  | false =>
    refine .inr ⟨rfl, ?_⟩
    cases callback <;> cases sent <;>
      exact ⟨_, by simp [makeCall, callAsync, hwork, MatchRules.initial, MatchRules.State.send,
        returnValue]; rfl⟩

/-- How often the callback of a call is to be run. -/
def Call.due (call : Call) : Nat := if call.Accepted then 1 else 0

@[simp] theorem Call.due_runs (call : Call) (runs : Nat) :
    Call.due { call with runs := runs } = call.due := rfl

/-- The callback of every call has been run or is in flight as often as it is due. -/
def Inv (s : State κ ρ) : Prop := ∀ c, s.waiting c + (s.call c).runs = (s.call c).due

omit [DecidableEq ρ] in
theorem Inv.answered {s : State κ ρ} (h : Inv s) : Answered s where
  queued c hc := by rw [h c, Call.due, if_pos hc]
  once hquiet c hc := by
    have hdue := h c
    rw [Call.due, if_pos hc, State.waiting, hquiet.1, hquiet.2] at hdue
    simpa using hdue
  refused c hc := by
    have hdue := h c
    have hnot : ¬ (s.call c).Accepted := by simp [Call.Accepted, hc]
    rw [Call.due, if_neg hnot] at hdue
    omega

omit [DecidableEq ρ] in
/-- A step about one call keeps the invariant exactly if it keeps it for that call. -/
theorem Inv.update_iff {s s' : State κ ρ} (h : Inv s) (c : κ)
    (hframe : ∀ c', c' ≠ c → s'.waiting c' = s.waiting c' ∧ s'.call c' = s.call c') :
    Inv s' ↔ s'.waiting c + (s'.call c).runs = (s'.call c).due := by
  constructor
  · exact fun h' => h' c
  · intro hc c'
    by_cases hcc : c' = c
    · exact hcc ▸ hc
    · rw [(hframe c' hcc).1, (hframe c' hcc).2]
      exact h c'

theorem countP_queued {α : Type} (p : α → Prop) [DecidablePred p] (sent : Bool) (x : α)
    (outgoing : Multiset α) :
    ((if sent then {x} else 0) + outgoing).countP p =
      outgoing.countP p + if sent = true ∧ p x then 1 else 0 := by
  cases sent with
  | true => simp [Multiset.countP_cons]
  | false => simp

theorem inv_makeCall_iff {s : State κ ρ} (h : Inv s) {c : κ} (hnew : (s.call c).returned = none)
    (op : Op) (rule : ρ) (callback sent : Bool) :
    Inv (s.makeCall c op rule callback sent) ↔
      (callback = true → op.nothingToDo s.matchRules rule = false) := by
  have hnone : s.waiting c = 0 := by
    have hdue := h c
    have hnot : ¬ (s.call c).Accepted := by simp [Call.Accepted, hnew]
    rw [Call.due, if_neg hnot] at hdue
    omega
  simp only [State.waiting] at hnone
  obtain ⟨hwork, heq⟩ | ⟨hwork, matchRules, heq⟩ := s.makeCall_spec c op rule callback sent
  · rw [heq, h.update_iff c]
    · simp only [State.waiting, hnone, Function.update_self, Call.due, Call.Accepted, and_true,
        hwork]
      cases callback <;> simp
    · intro c' hc
      exact ⟨rfl, Function.update_of_ne hc _ _⟩
  · rw [heq, h.update_iff c]
    · simp only [State.waiting, countP_queued, Function.update_self, Call.due, Call.Accepted,
        Carries, hwork]
      cases callback <;> cases sent <;> simp <;> omega
    · intro c' hc
      refine ⟨?_, Function.update_of_ne hc _ _⟩
      simp only [State.waiting, countP_queued, Carries, hc.symm, false_and, and_false, if_false,
        Nat.add_zero]

omit [DecidableEq ρ] in
/-- The reply to a request carries the callback that the request has carried. -/
theorem countP_reply (c c' : κ) (request : Request ρ) (ok notified : Bool) :
    Multiset.countP (·.1 = c')
        (((if notified then replyTo request ok else []).map (Prod.mk c) : List _) :
          Multiset (κ × Reply ρ)) =
      if notified = true ∧ Carries c' (c, request) then 1 else 0 := by
  cases notified with
  | false => simp
  | true =>
    simp only [if_true, replyTo, Carries, true_and]
    by_cases hreceiver : request.receiver = .nobody
    · simp [hreceiver]
    · simp [hreceiver, ← Multiset.cons_zero, Multiset.countP_cons]

/-- A callback stays in flight exactly if the reply to its request is handed on. -/
theorem inv_answer_iff {s : State κ ρ} (h : Inv s) {c : κ} {request : Request ρ}
    (hmem : (c, request) ∈ s.outgoing) (ok notified : Bool) :
    Inv { s with
      outgoing := s.outgoing.erase (c, request)
      replies := ((if notified then replyTo request ok else []).map (Prod.mk c) : List _)
        + s.replies } ↔
      (request.receiver ≠ .nobody → notified = true) := by
  obtain ⟨rest, hrest⟩ := Multiset.exists_cons_of_mem hmem
  rw [h.update_iff c]
  · have hdue := h c
    simp only [State.waiting, hrest, Multiset.countP_cons] at hdue
    simp only [State.waiting, hrest, Multiset.erase_cons_head, Multiset.countP_add, countP_reply]
    by_cases hreceiver : request.receiver = .nobody
    · have hcarries : ¬ Carries c (c, request) := fun hcarries => hcarries.2 hreceiver
      simp only [hcarries, if_false, and_false, Nat.zero_add, Nat.add_zero] at hdue ⊢
      exact iff_of_true hdue fun hne => absurd hreceiver hne
    · have hcarries : Carries c (c, request) := ⟨rfl, hreceiver⟩
      simp only [hcarries, if_true, and_true] at hdue ⊢
      cases notified with
      | true => exact iff_of_true (by simp only [if_true]; omega) fun _ => rfl
      | false =>
        refine iff_of_false ?_ fun hne => Bool.false_ne_true (hne hreceiver)
        simp only [Bool.false_eq_true, if_false]
        omega
  · intro c' hc
    have hcarries : ¬ Carries c' (c, request) := fun hcarries => hc hcarries.1.symm
    refine ⟨?_, rfl⟩
    simp only [State.waiting, hrest, Multiset.erase_cons_head, Multiset.countP_add,
      Multiset.countP_cons, countP_reply, hcarries, and_false, if_false, Nat.zero_add,
      Nat.add_zero]

/-- A reply that is handled runs the callback that was in flight with it. -/
theorem Inv.dispatch {s : State κ ρ} (h : Inv s) {c : κ} {reply : Reply ρ}
    (hmem : (c, reply) ∈ s.replies) :
    Inv { s with
      matchRules := reply.handle s.matchRules
      replies := s.replies.erase (c, reply)
      call := Function.update s.call c { s.call c with runs := (s.call c).runs + 1 } } := by
  obtain ⟨rest, hrest⟩ := Multiset.exists_cons_of_mem hmem
  rw [h.update_iff c]
  · have hdue := h c
    simp only [State.waiting, hrest, Multiset.countP_cons, if_true] at hdue
    simp only [State.waiting, hrest, Multiset.erase_cons_head, Function.update_self, Call.due_runs]
    omega
  · intro c' hc
    refine ⟨?_, Function.update_of_ne hc _ _⟩
    simp only [State.waiting, hrest, Multiset.erase_cons_head, Multiset.countP_cons, hc.symm,
      if_false, Nat.add_zero]

/-- A step keeps every callback that is due exactly if it is as `Asks` says. -/
theorem step_inv_iff {s s' : State κ ρ} (h : Inv s) {label : Label κ ρ}
    (hstep : step s label = some s') : Inv s' ↔ Asks s label := by
  cases label with
  | call c op rule callback sent =>
    obtain ⟨hnew, rfl⟩ := Option.ite_none_right_eq_some.mp hstep |>.imp_right Option.some.inj
    exact inv_makeCall_iff h hnew op rule callback sent
  | answer c request ok notified =>
    obtain ⟨hmem, rfl⟩ := Option.ite_none_right_eq_some.mp hstep |>.imp_right Option.some.inj
    exact inv_answer_iff h hmem ok notified
  | dispatch c reply =>
    obtain ⟨hmem, rfl⟩ := Option.ite_none_right_eq_some.mp hstep |>.imp_right Option.some.inj
    exact iff_of_true (h.dispatch hmem) trivial

/-! ## Whole runs -/

/-- In every run in which each call with a callback finds something to do and each reply comes
    after the notify function is set, every accepted call runs its callback once. -/
theorem answered_of_reachable {s : State κ ρ} (h : (system κ ρ).ReachableWhen Asks s) :
    Answered s := by
  apply Inv.answered
  apply h.invariant
  case initial =>
    rintro s ⟨houtgoing, hreplies, hcalls⟩ c
    simp [State.waiting, houtgoing, hreplies, hcalls, Call.due, Call.Accepted]
  case preserved =>
    intro s label s' hinv hasks hstep
    exact (step_inv_iff hinv hstep).mpr hasks

/-- What the calls have been given and have returned. -/
def State.SameCalls (s s' : State κ ρ) : Prop :=
  ∀ c, (s'.call c).callback = (s.call c).callback ∧ (s'.call c).returned = (s.call c).returned

omit [DecidableEq κ] [DecidableEq ρ] in
theorem State.SameCalls.trans {s s' s'' : State κ ρ} (h : s.SameCalls s') (h' : s'.SameCalls s'') :
    s.SameCalls s'' :=
  fun c => ⟨(h' c).1.trans (h c).1, (h' c).2.trans (h c).2⟩

/-- As long as something is in flight, the bus or the dispatch thread can do the next step. -/
theorem exists_step {s : State κ ρ} (h : ¬ s.Quiet) :
    ∃ label s', step s label = some s' ∧ Asks s label ∧ s.SameCalls s' ∧
      2 * s'.outgoing.card + s'.replies.card < 2 * s.outgoing.card + s.replies.card := by
  obtain hreplies | ⟨⟨c, reply⟩, hreply⟩ := Multiset.empty_or_exists_mem s.replies
  · obtain houtgoing | ⟨⟨c, request⟩, hrequest⟩ := Multiset.empty_or_exists_mem s.outgoing
    · exact absurd ⟨houtgoing, hreplies⟩ h
    · refine ⟨.answer c request true true, _, if_pos hrequest, fun _ => rfl,
        fun c' => ⟨rfl, rfl⟩, ?_⟩
      have hcard := Multiset.card_erase_add_one hrequest
      have hreply : (replyTo request true).length ≤ 1 := by
        rw [replyTo]
        split <;> simp
      simp only [if_true, Multiset.card_add, Multiset.coe_card, List.length_map]
      omega
  · refine ⟨.dispatch c reply, _, if_pos hreply, trivial, fun c' => ?_, ?_⟩
    · by_cases hc : c' = c
      · subst hc
        simp only [Function.update_self, and_self]
      · simp only [Function.update_of_ne hc, and_self]
    · have hcard := Multiset.card_erase_add_one hreply
      simp only
      omega

/-- Everything in flight can be answered and handled. -/
theorem exists_quiet {s : State κ ρ} (h : (system κ ρ).ReachableWhen Asks s) :
    ∃ s', (system κ ρ).ReachableWhen Asks s' ∧ s'.Quiet ∧ s.SameCalls s' := by
  by_cases hquiet : s.Quiet
  · exact ⟨s, h, hquiet, fun c => ⟨rfl, rfl⟩⟩
  · obtain ⟨label, next, hstep, hasks, hsame, hless⟩ := exists_step hquiet
    obtain ⟨s', hreach, hquiet', hsame'⟩ := exists_quiet (h.step hasks hstep)
    exact ⟨s', hreach, hquiet', hsame.trans hsame'⟩
termination_by 2 * s.outgoing.card + s.replies.card

/-- No call has been made. -/
def untouched (matchRules : Finset Nat) : State Nat Nat :=
  ⟨matchRules, 0, 0, fun _ => ⟨false, none, 0⟩⟩

/-- A rule is added by two calls at a time, and another one without a callback.  The bus answers
    the later of the two requests first and refuses the other one; the removal is not sent. -/
def overtakenRun : List (Label Nat Nat) :=
  [.call 0 .addMatch 1 true true, .call 1 .addMatch 1 true true, .call 2 .addMatch 2 false true,
    .answer 1 ⟨.addMatch, 1, .callback, false⟩ true true,
    .dispatch 1 ⟨⟨.addMatch, 1, .callback, false⟩, true⟩,
    .answer 0 ⟨.addMatch, 1, .callback, false⟩ false true,
    .answer 2 ⟨.addMatch, 2, .nobody, false⟩ true false,
    .call 3 .removeMatch 1 true false, .dispatch 0 ⟨⟨.addMatch, 1, .callback, false⟩, false⟩]

theorem overtakenRun_answered :
    ∃ s, (system Nat Nat).run (untouched ∅) overtakenRun = some s ∧ Answered s := by
  have hrun : (system Nat Nat).run (untouched ∅) overtakenRun = some _ := rfl
  refine ⟨_, hrun, answered_of_reachable ?_⟩
  refine TransitionSystem.reachableWhen_of_run _ ⟨rfl, rfl, fun _ => rfl⟩ ?_ hrun
  exact ⟨fun _ => rfl, fun _ => rfl, fun _ => rfl, fun _ => rfl, trivial, fun _ => rfl,
    fun h => absurd rfl h, fun _ => rfl, trivial, trivial⟩

/-- The second call for a rule succeeds and queues nothing, and its callback is never run. -/
theorem secondCall_not_answered :
    ∃ s, (system Nat Nat).Reachable s ∧ s.Quiet ∧
      s.call 1 = ⟨true, some true, 0⟩ ∧ ¬ Answered s := by
  have hrun : (system Nat Nat).run (untouched ∅)
      [.call 0 .addMatch 1 true true, .answer 0 ⟨.addMatch, 1, .callback, false⟩ true true,
        .dispatch 0 ⟨⟨.addMatch, 1, .callback, false⟩, true⟩, .call 1 .addMatch 1 true true] =
      some _ := rfl
  have hinit : (system Nat Nat).init (untouched ∅) := ⟨rfl, rfl, fun _ => rfl⟩
  refine ⟨_, TransitionSystem.reachable_of_run _ hinit hrun, ⟨rfl, rfl⟩, rfl, fun h => ?_⟩
  exact absurd (h.once ⟨rfl, rfl⟩ 1 ⟨rfl, rfl⟩) (by decide)

end Ultrabus.AsyncCalls
