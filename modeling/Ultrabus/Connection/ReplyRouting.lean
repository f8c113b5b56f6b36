import Ultrabus.Lib.RefHeap
import Ultrabus.Lib.Transition

/-! # Whose reply a callback gets

`connection::send` on any threads and `connection::on_pending_call` on the dispatch thread, with
the pending calls as objects of libdbus that count their references: the connection stays up,
messages have serials of their own, and an address is used again once the pending call at it has
been freed.  `pending_messages` knows a pending call by its address only.

That the notification of a pending call may come too early is the subject of
`Connection.PendingCall`; here replies are followed to the callbacks that get them. -/

namespace Ultrabus.ReplyRouting

open RefHeap (Variables Counted)
open RefHeap.Variables (held held_insert held_of_lookup erase_of_lookup mem_held_iff)

variable {κ : Type}

/-- What libdbus keeps for a pending call. -/
structure PendingCall where
  -- the serial of the message that was sent
  serial : Nat
  hasNotify : Bool
  -- the serial that the reply is for
  reply : Option Nat
deriving DecidableEq

/-- Where the thread is in `send` that holds `pending_mutex`; an empty `reply_cb` is `none`. -/
inductive Sending (κ : Type) where
  | locked (replyCb : Option κ)
  | sent (pending : Nat) (replyCb : Option κ)
  | notifySet (pending : Nat) (replyCb : Option κ)
  | inserted

/-- Where the dispatch thread is: in `msg_dispatcher`, in `on_pending_call` before and after it
    has taken the entry, or in the callback and the rest of the completion. -/
inductive Dispatch (κ : Type) where
  | idle
  | notified (pending : Nat)
  | found (pending : Nat) (callback : Option κ)
  | completing (pending : Nat)

structure State (κ : Type) where
  heap : RefHeap PendingCall
  nextSerial : Nat
  -- what libdbus waits for: the pending calls by the serials of their messages
  pendingReplies : Variables
  pendingMessages : AList fun _ : Nat => Option κ
  sending : Option (Sending κ)
  dispatch : Dispatch κ
  -- the messages that were sent, with the callbacks given for them
  sends : List (Nat × Option κ)
  -- the calls of callbacks, with the serial that the reply is for
  calls : List (κ × Nat)

inductive Label (κ : Type) where
  | lock (replyCb : Option κ)
  -- the address of the pending call; `none` when nothing can be sent
  | sendWithReply (pending : Option Nat)
  | setNotify
  | emplace
  | unlock
  -- the reply with this serial is dispatched, or the error that stands for it
  | complete (serial : Nat)
  | findEntry
  | takeReply
  | finish

namespace State

variable (s : State κ)

/-! ## Steps -/

/-- One reference is for the table of libdbus and one for the caller. -/
def sendWithReply (r : Nat) (replyCb : Option κ) : Option (State κ) := do
  let heap ← (s.heap.alloc r ⟨s.nextSerial, false, none⟩).ref r
  return { s with
    heap := heap
    nextSerial := s.nextSerial + 1
    pendingReplies := s.pendingReplies.insert s.nextSerial (some r)
    sending := some (.sent r replyCb)
    sends := s.sends ++ [(s.nextSerial, replyCb)] }

def setNotify (r : Nat) (replyCb : Option κ) : Option (State κ) := do
  let heap ← s.heap.modify r fun pending => { pending with hasNotify := true }
  return { s with heap := heap, sending := some (.notifySet r replyCb) }

/-- `std::map::emplace` leaves an entry as it is. -/
def emplace (r : Nat) (replyCb : Option κ) : State κ :=
  if r ∈ s.pendingMessages then { s with sending := some .inserted }
  else
    { s with
      pendingMessages := s.pendingMessages.insert r replyCb
      sending := some .inserted }

/-- The reference of the table goes to the thread that completes the call. -/
def complete (serial r : Nat) : Option (State κ) := do
  let heap ← s.heap.modify r fun pending => { pending with reply := some serial }
  let pending ← heap.read r
  return { s with
    heap := heap
    pendingReplies := s.pendingReplies.erase serial
    dispatch := if pending.hasNotify then .notified r else .completing r }

/-- The critical section of `on_pending_call`. -/
def findEntry (r : Nat) : State κ :=
  match s.pendingMessages.lookup r with
  | none => { s with dispatch := .completing r }
  | some callback =>
    { s with
      pendingMessages := s.pendingMessages.erase r
      dispatch := .found r callback }

/-- A message made of a null pointer is of no use to the callback. -/
def takeReply (r : Nat) : Option κ → Option (State κ)
  | none => do
    let heap ← s.heap.unref r
    return { s with heap := heap, dispatch := .completing r }
  | some callback => do
    let pending ← s.heap.read r
    let reply ← pending.reply
    let heap ← s.heap.modify r fun pending => { pending with reply := none }
    let heap ← heap.unref r
    return { s with
      heap := heap
      dispatch := .completing r
      calls := s.calls ++ [(callback, reply)] }

def finish (r : Nat) : Option (State κ) := do
  let heap ← s.heap.unref r
  return { s with heap := heap, dispatch := .idle }

/-- `some none` where a pending call is used that has been freed. -/
def step : Label κ → Option (Option (State κ))
  | .lock replyCb =>
    match s.sending with
    | none => some (some { s with sending := some (.locked replyCb) })
    | some _ => none
  | .sendWithReply pending =>
    match s.sending, pending with
    | some (.locked _), none => some (some { s with sending := none })
    | some (.locked replyCb), some r =>
      if (s.heap r).isNone then some (s.sendWithReply r replyCb) else none
    | _, _ => none
  | .setNotify =>
    match s.sending with
    | some (.sent r replyCb) => some (s.setNotify r replyCb)
    | _ => none
  | .emplace =>
    match s.sending with
    | some (.notifySet r replyCb) => some (some (s.emplace r replyCb))
    | _ => none
  | .unlock =>
    match s.sending with
    | some .inserted => some (some { s with sending := none })
    | _ => none
  | .complete serial =>
    match s.dispatch, s.pendingReplies.lookup serial with
    | .idle, some (some r) => some (s.complete serial r)
    | _, _ => none
  | .findEntry =>
    match s.dispatch, s.sending with
    | .notified r, none => some (some (s.findEntry r))
    | _, _ => none
  | .takeReply =>
    match s.dispatch with
    | .found r callback => some (s.takeReply r callback)
    | _ => none
  | .finish =>
    match s.dispatch with
    | .completing r => some (s.finish r)
    | _ => none

end State

def initial : State κ where
  heap := RefHeap.empty
  nextSerial := 1
  pendingReplies := ∅
  pendingMessages := ∅
  sending := none
  dispatch := .idle
  sends := []
  calls := []

def system (κ : Type) : TransitionSystem (Option (State κ)) (Label κ) where
  init m := m = some initial
  step m label := m.bind fun s => s.step label

/-! ## The references -/

/-- The pending call of the thread in `send` that is not in the table yet, with its callback. -/
def Sending.pending : Option (Sending κ) → Option (Nat × Option κ)
  | some (.sent r replyCb) => some (r, replyCb)
  | some (.notifySet r replyCb) => some (r, replyCb)
  | _ => none

def Sending.held (sending : Option (Sending κ)) : Multiset Nat :=
  ((Sending.pending sending).toList.map Prod.fst : List Nat)

def Dispatch.held : Dispatch κ → Multiset Nat
  | .idle => 0
  | .notified r => {r}
  | .found r _ => {r, r}
  | .completing r => {r}

/-- Who holds references: libdbus for the replies it waits for, the entries, the thread in `send`
    and the dispatch thread. -/
def State.holders (s : State κ) : Multiset Nat :=
  RefHeap.Variables.held s.pendingReplies + (s.pendingMessages.keys : Multiset Nat) +
    Sending.held s.sending + s.dispatch.held

/-! ## Serials -/

/-- The serial of the message that the pending call at an address is for. -/
def serialAt (heap : RefHeap PendingCall) (r : Nat) : Option Nat :=
  (heap.read r).map PendingCall.serial

def replyAt (heap : RefHeap PendingCall) (r : Nat) : Option Nat :=
  (heap.read r).bind PendingCall.reply

/-- The pending call at the address is for a message that was sent with this callback. -/
def State.SentWith (s : State κ) (r : Nat) (callback : Option κ) : Prop :=
  ∃ n, serialAt s.heap r = some n ∧ (n, callback) ∈ s.sends

/-- The reply of the pending call at the address has come, and no callback has got it. -/
def State.Answered (s : State κ) (r : Nat) : Prop :=
  ∃ n, serialAt s.heap r = some n ∧ replyAt s.heap r = some n ∧ n < s.nextSerial ∧
    s.pendingReplies.lookup n = none ∧ n ∉ s.calls.map Prod.snd

/-- What holds of the pending call that the dispatch thread completes. -/
def State.DispatchOk (s : State κ) : Prop :=
  match s.dispatch with
  | .notified r => s.Answered r
  | .found r callback => s.Answered r ∧ s.SentWith r callback
  | _ => True

structure Inv (s : State κ) : Prop where
  counted : Counted s.heap s.holders
  replies : ∀ n pending, s.pendingReplies.lookup n = some pending →
    (∀ r ∈ pending, serialAt s.heap r = some n) ∧ n < s.nextSerial ∧ n ∉ s.calls.map Prod.snd
  entries : ∀ r callback, s.pendingMessages.lookup r = some callback → s.SentWith r callback
  sending : ∀ r callback, Sending.pending s.sending = some (r, callback) →
    r ∉ s.pendingMessages ∧ s.SentWith r callback
  dispatch : s.DispatchOk
  sends : (s.sends.map Prod.fst).Nodup ∧ ∀ n ∈ s.sends.map Prod.fst, n < s.nextSerial
  calls : (s.calls.map Prod.snd).Nodup ∧ ∀ call ∈ s.calls, (call.2, some call.1) ∈ s.sends

theorem inv_initial : Inv (initial : State κ) where
  counted := RefHeap.counted_empty
  replies := nofun
  entries := nofun
  sending := nofun
  dispatch := trivial
  sends := ⟨.nil, nofun⟩
  calls := ⟨.nil, nofun⟩

section Frame

variable {s s' : State κ} {r : Nat} {callback : Option κ}

theorem mem_holders_of_reply {n : Nat} (h : s.pendingReplies.lookup n = some (some r)) :
    r ∈ s.holders := by
  simp only [State.holders, Multiset.mem_add]
  exact .inl (.inl (.inl (mem_held_iff.mpr ⟨n, h⟩)))

theorem mem_holders_of_entry (h : s.pendingMessages.lookup r = some callback) : r ∈ s.holders := by
  simp only [State.holders, Multiset.mem_add]
  exact .inl (.inl (.inr (AList.mem_keys.mp (AList.lookup_isSome.mp (by simp [h])))))

theorem mem_holders_of_sending (h : Sending.pending s.sending = some (r, callback)) :
    r ∈ s.holders := by
  simp only [State.holders, Multiset.mem_add]
  exact .inl (.inr (by simp [Sending.held, h]))

theorem mem_holders_of_dispatch (h : r ∈ s.dispatch.held) : r ∈ s.holders := by
  simp only [State.holders, Multiset.mem_add]
  exact .inr h

theorem State.SentWith.mono (h : s.SentWith r callback)
    (hserial : serialAt s'.heap r = serialAt s.heap r)
    (hsends : ∀ sent ∈ s.sends, sent ∈ s'.sends) : s'.SentWith r callback := by
  obtain ⟨n, hn, hsent⟩ := h
  exact ⟨n, hserial.trans hn, hsends _ hsent⟩

/-- A step that sends nothing, stores no entry and runs no callback. -/
theorem Inv.frame (h : Inv s) (hcounted : Counted s'.heap s'.holders)
    (hserial : ∀ r ∈ s'.holders, serialAt s'.heap r = serialAt s.heap r)
    (hreplies : ∀ n pending, s'.pendingReplies.lookup n = some pending →
      s.pendingReplies.lookup n = some pending)
    (hentries : ∀ r callback, s'.pendingMessages.lookup r = some callback →
      s.pendingMessages.lookup r = some callback)
    (hsending : ∀ p, Sending.pending s'.sending = some p → Sending.pending s.sending = some p)
    (hdispatch : s'.DispatchOk) (hnext : s'.nextSerial = s.nextSerial)
    (hsends : s'.sends = s.sends) (hcalls : s'.calls = s.calls) : Inv s' where
  counted := hcounted
  replies n pending hlookup := by
    obtain ⟨hr, hlt, hcall⟩ := h.replies n pending (hreplies n pending hlookup)
    refine ⟨?_, hnext ▸ hlt, hcalls ▸ hcall⟩
    rintro r rfl
    rw [hserial r (mem_holders_of_reply hlookup)]
    exact hr r rfl
  entries r callback hlookup :=
    (h.entries r callback (hentries r callback hlookup)).mono
      (hserial r (mem_holders_of_entry hlookup)) (hsends ▸ fun _ hsent => hsent)
  sending r callback hpending := by
    obtain ⟨hnot, hsent⟩ := h.sending r callback (hsending _ hpending)
    refine ⟨fun hmem => hnot ?_, hsent.mono (hserial r (mem_holders_of_sending hpending))
      (hsends ▸ fun _ hsent => hsent)⟩
    obtain ⟨found, hfound⟩ := Option.isSome_iff_exists.mp (AList.lookup_isSome.mpr hmem)
    exact AList.lookup_isSome.mp (by simp [hentries r found hfound])
  dispatch := hdispatch
  sends := by
    rw [hsends, hnext]
    exact h.sends
  calls := by
    rw [hsends, hcalls]
    exact h.calls

/-- What the dispatch thread knows stays true while the other threads send. -/
theorem State.DispatchOk.mono (h : s.DispatchOk) (hdispatch : s'.dispatch = s.dispatch)
    (hserial : ∀ r ∈ s.dispatch.held, serialAt s'.heap r = serialAt s.heap r ∧
      replyAt s'.heap r = replyAt s.heap r)
    (hnext : s.nextSerial ≤ s'.nextSerial)
    (hreplies : ∀ n < s.nextSerial, s.pendingReplies.lookup n = none →
      s'.pendingReplies.lookup n = none)
    (hsends : ∀ sent ∈ s.sends, sent ∈ s'.sends) (hcalls : s'.calls = s.calls) :
    s'.DispatchOk := by
  have hanswered : ∀ r ∈ s.dispatch.held, s.Answered r → s'.Answered r := by
    rintro r hheld ⟨n, hn, hreply, hlt, hlookup, hcall⟩
    exact ⟨n, (hserial r hheld).1.trans hn, (hserial r hheld).2.trans hreply,
      Nat.lt_of_lt_of_le hlt hnext, hreplies n hlt hlookup, hcalls ▸ hcall⟩
  rw [State.DispatchOk, hdispatch]
  rw [State.DispatchOk] at h
  cases hd : s.dispatch with
  | idle | completing r => trivial
  | notified r =>
    rw [hd] at h
    exact hanswered r (by simp [hd, Dispatch.held]) h
  | found r callback =>
    rw [hd] at h
    have hheld : r ∈ s.dispatch.held := by simp [hd, Dispatch.held]
    exact ⟨hanswered r hheld h.1, h.2.mono (hserial r hheld).1 hsends⟩

theorem serialAt_congr {heap heap' : RefHeap PendingCall} (h : heap'.read r = heap.read r) :
    serialAt heap' r = serialAt heap r ∧ replyAt heap' r = replyAt heap r := by
  rw [serialAt, replyAt, h]
  exact ⟨rfl, rfl⟩

end Frame

/-! ## What each step keeps -/

/-- The step is defined and keeps the invariant. -/
def Keeps (m : Option (State κ)) : Prop := ∃ s', m = some s' ∧ Inv s'

section Steps

variable {s : State κ} {r : Nat} {replyCb : Option κ}

theorem lock_keeps (h : Inv s) (hfree : s.sending = none) :
    Keeps (some { s with sending := some (.locked replyCb) }) := by
  refine ⟨_, rfl, h.frame ?_ (fun _ _ => rfl) (fun _ _ => id) (fun _ _ => id) nofun h.dispatch rfl
    rfl rfl⟩
  have hcounted := h.counted
  rw [State.holders, hfree] at hcounted
  exact hcounted

theorem release_keeps (h : Inv s) (hpending : Sending.pending s.sending = none) :
    Keeps (some { s with sending := none }) := by
  refine ⟨_, rfl, h.frame ?_ (fun _ _ => rfl) (fun _ _ => id) (fun _ _ => id) nofun h.dispatch rfl
    rfl rfl⟩
  have hcounted := h.counted
  rw [State.holders, Sending.held, hpending] at hcounted
  exact hcounted

theorem sendWithReply_keeps (h : Inv s) (hsending : s.sending = some (.locked replyCb))
    (hfree : s.heap r = none) : Keeps (s.sendWithReply r replyCb) := by
  have hcounted := h.counted
  have hnew : r ∉ s.holders := hcounted.eq_none_iff.mp hfree
  obtain ⟨heap, hheap, hcounted', hread⟩ :=
    (hcounted.alloc hfree ⟨s.nextSerial, false, none⟩).ref (Multiset.mem_cons_self r _)
  have hold : ∀ r' ∈ s.holders, heap.read r' = s.heap.read r' := fun r' hheld =>
    (hread r').trans (hcounted.read_alloc hfree _ hheld)
  have hself : serialAt heap r = some s.nextSerial := by
    rw [serialAt, hread, RefHeap.read_alloc_self]
    rfl
  have hlookup : s.pendingReplies.lookup s.nextSerial = none := by
    by_contra hsome
    obtain ⟨pending, hpending⟩ := Option.ne_none_iff_exists'.mp hsome
    exact Nat.lt_irrefl _ (h.replies _ _ hpending).2.1
  have hsends : ∀ sent ∈ s.sends, sent ∈ s.sends ++ [(s.nextSerial, replyCb)] :=
    fun sent hsent => List.mem_append_left _ hsent
  have hfresh : s.nextSerial ∉ s.calls.map Prod.snd := by
    intro hcall
    obtain ⟨call, hmem, heq⟩ := List.mem_map.mp hcall
    have hlt := h.sends.2 call.2 (List.mem_map_of_mem (h.calls.2 call hmem))
    omega
  refine ⟨_, by rw [State.sendWithReply, hheap]; rfl, ?_⟩
  constructor
  case counted =>
    refine (congrArg (Counted heap) ?_).mp hcounted'
    simp only [State.holders, held_insert, erase_of_lookup hlookup, hsending, Sending.held,
      Sending.pending, ← Multiset.singleton_add]
    simp only [Option.toList_some, Multiset.coe_singleton, List.map_cons, List.map_nil,
      Option.toList_none, Multiset.coe_nil, Multiset.add_zero]
    refine Multiset.ext.mpr fun r' => ?_
    simp only [Multiset.count_add]
    omega
  case replies =>
    intro n pending hfound
    by_cases heq : n = s.nextSerial
    · subst heq
      obtain rfl := Option.some.inj ((AList.lookup_insert _).symm.trans hfound)
      refine ⟨?_, Nat.lt_succ_self _, hfresh⟩
      rintro r' hr'
      obtain rfl := Option.some.inj hr'
      exact hself
    · rw [AList.lookup_insert_ne heq] at hfound
      obtain ⟨hr, hlt, hcall⟩ := h.replies n pending hfound
      refine ⟨?_, Nat.lt_succ_of_lt hlt, hcall⟩
      rintro r' rfl
      rw [(serialAt_congr (hold r' (mem_holders_of_reply hfound))).1]
      exact hr r' rfl
  case entries =>
    intro r' callback hfound
    exact (h.entries r' callback hfound).mono
      (serialAt_congr (hold r' (mem_holders_of_entry hfound))).1 hsends
  case sending =>
    intro r' callback hpending
    obtain ⟨rfl, rfl⟩ := Prod.mk.inj (Option.some.inj hpending)
    refine ⟨fun hmem => hnew ?_, s.nextSerial, hself, by simp⟩
    obtain ⟨found, hfound⟩ := Option.isSome_iff_exists.mp (AList.lookup_isSome.mpr hmem)
    exact mem_holders_of_entry hfound
  case dispatch =>
    refine h.dispatch.mono rfl (fun r' hheld => ?_) (Nat.le_succ _) ?_ hsends rfl
    · exact serialAt_congr (hold r' (mem_holders_of_dispatch hheld))
    · intro n hlt hnone
      rw [AList.lookup_insert_ne (Nat.ne_of_lt hlt)]
      exact hnone
  case sends =>
    rw [List.map_append, List.nodup_append]
    refine ⟨⟨h.sends.1, List.nodup_singleton _, ?_⟩, ?_⟩
    · rintro n hn _ hlast rfl
      obtain rfl := List.mem_singleton.mp hlast
      exact Nat.lt_irrefl _ (h.sends.2 _ hn)
    · intro n hn
      rcases List.mem_append.mp hn with hn | hn
      · exact Nat.lt_succ_of_lt (h.sends.2 n hn)
      · obtain rfl := List.mem_singleton.mp hn
        exact Nat.lt_succ_self _
  case calls => exact ⟨h.calls.1, fun call hcall => hsends _ (h.calls.2 call hcall)⟩

/-- A pending call changes without its serial. -/
theorem exists_modify {heap : RefHeap PendingCall} {holders : Multiset Nat}
    (hcounted : Counted heap holders) (hheld : r ∈ holders) (f : PendingCall → PendingCall)
    (hf : ∀ pending, (f pending).serial = pending.serial) :
    ∃ heap' pending, heap.modify r f = some heap' ∧ Counted heap' holders ∧
      heap.read r = some pending ∧ heap'.read r = some (f pending) ∧
      (∀ r', serialAt heap' r' = serialAt heap r') ∧
      ∀ r', r' ≠ r → replyAt heap' r' = replyAt heap r' := by
  obtain ⟨pending, hpending⟩ := hcounted.read hheld
  obtain ⟨heap', hheap, hcounted', hself, hother⟩ := hcounted.modify hheld f
  rw [hpending] at hself
  refine ⟨heap', pending, hheap, hcounted', hpending, hself, fun r' => ?_,
    fun r' hne => (serialAt_congr (hother r' hne)).2⟩
  by_cases heq : r' = r
  · rw [heq, serialAt, serialAt, hself, hpending]
    exact congrArg some (hf pending)
  · exact (serialAt_congr (hother r' heq)).1

theorem setNotify_keeps (h : Inv s) (hsending : s.sending = some (.sent r replyCb)) :
    Keeps (s.setNotify r replyCb) := by
  have hpending : Sending.pending s.sending = some (r, replyCb) := by rw [hsending]; rfl
  obtain ⟨heap, pending, hheap, hcounted, hread, hself, hserial, hother⟩ :=
    exists_modify h.counted (mem_holders_of_sending hpending)
      (fun pending => { pending with hasNotify := true }) fun _ => rfl
  have hreply : ∀ r', replyAt heap r' = replyAt s.heap r' := by
    intro r'
    by_cases heq : r' = r
    · rw [heq, replyAt, replyAt, hself, hread]
      rfl
    · exact hother r' heq
  refine ⟨_, by rw [State.setNotify, hheap]; rfl, ?_⟩
  refine h.frame ?_ (fun r' _ => hserial r') (fun _ _ => id) (fun _ _ => id) ?_ ?_ rfl rfl rfl
  · rw [State.holders, hsending] at hcounted
    exact hcounted
  · rintro p hp
    exact hpending.trans hp
  · exact h.dispatch.mono rfl (fun r' _ => ⟨hserial r', hreply r'⟩) le_rfl (fun _ _ => id)
      (fun _ => id) rfl

theorem emplace_keeps (h : Inv s) (hsending : s.sending = some (.notifySet r replyCb)) :
    Keeps (some (s.emplace r replyCb)) := by
  have hpending : Sending.pending s.sending = some (r, replyCb) := by rw [hsending]; rfl
  obtain ⟨hnot, hsent⟩ := h.sending r replyCb hpending
  refine ⟨_, rfl, ?_⟩
  rw [State.emplace, if_neg hnot]
  constructor
  case counted =>
    refine (congrArg (Counted s.heap) ?_).mp h.counted
    have hkeys : r ∉ s.pendingMessages.keys := fun hmem => hnot (AList.mem_keys.mpr hmem)
    simp only [State.holders, hsending, Sending.held, Sending.pending, AList.keys_insert,
      List.erase_of_not_mem hkeys, ← Multiset.cons_coe, ← Multiset.singleton_add]
    refine Multiset.ext.mpr fun r' => ?_
    simp only [Option.toList_some, List.map_cons, List.map_nil, Multiset.coe_singleton,
      Option.toList_none, Multiset.coe_nil, Multiset.count_add, Multiset.count_zero]
    omega
  case replies => exact h.replies
  case entries =>
    intro r' callback hfound
    by_cases heq : r' = r
    · subst heq
      obtain rfl := Option.some.inj ((AList.lookup_insert _).symm.trans hfound)
      exact hsent
    · rw [AList.lookup_insert_ne heq] at hfound
      exact h.entries r' callback hfound
  case sending => exact nofun
  case dispatch => exact h.dispatch
  case sends => exact h.sends
  case calls => exact h.calls

theorem complete_keeps (h : Inv s) (hidle : s.dispatch = .idle) {serial : Nat}
    (hlookup : s.pendingReplies.lookup serial = some (some r)) : Keeps (s.complete serial r) := by
  obtain ⟨hr, hlt, hcall⟩ := h.replies serial (some r) hlookup
  obtain ⟨heap, pending, hheap, hcounted, hread, hself, hserial, hother⟩ :=
    exists_modify h.counted (mem_holders_of_reply hlookup)
      (fun pending => { pending with reply := some serial }) fun _ => rfl
  have hanswered : ∀ dispatch, State.Answered { s with
      heap := heap, pendingReplies := s.pendingReplies.erase serial, dispatch := dispatch } r :=
    fun _ => ⟨serial, (hserial r).trans (hr r rfl), by rw [replyAt, hself]; rfl, hlt,
      AList.lookup_erase _ _, hcall⟩
  refine ⟨_, by rw [State.complete, hheap, Option.bind_eq_bind, Option.bind_some, hself]; rfl, ?_⟩
  refine h.frame ?_ (fun r' _ => hserial r') ?_ (fun _ _ => id) (fun _ => id) ?_ rfl rfl rfl
  · refine (congrArg (Counted heap) ?_).mp hcounted
    simp only [State.holders, held_of_lookup hlookup, hidle]
    refine Multiset.ext.mpr fun r' => ?_
    split <;> simp only [Option.toList_some, Multiset.coe_singleton, Dispatch.held,
      Multiset.count_add, Multiset.count_zero] <;> omega
  · intro n found hfound
    by_cases heq : n = serial
    · subst heq
      cases (AList.lookup_erase _ _).symm.trans hfound
    · rwa [AList.lookup_erase_ne heq] at hfound
  · show State.DispatchOk _
    rw [State.DispatchOk]
    cases pending.hasNotify with
    | true => exact hanswered _
    | false => trivial

theorem findEntry_keeps (h : Inv s) (hnotified : s.dispatch = .notified r) :
    Keeps (some (s.findEntry r)) := by
  have hanswered : s.Answered r := by
    have hok := h.dispatch
    rw [State.DispatchOk, hnotified] at hok
    exact hok
  refine ⟨_, rfl, ?_⟩
  rw [State.findEntry]
  cases hlookup : s.pendingMessages.lookup r with
  | none =>
    refine h.frame ?_ (fun _ _ => rfl) (fun _ _ => id) (fun _ _ => id) (fun _ => id) trivial rfl
      rfl rfl
    have hcounted := h.counted
    rw [State.holders, hnotified] at hcounted
    exact hcounted
  | some callback =>
    have hmem : r ∈ s.pendingMessages.keys :=
      AList.mem_keys.mp (AList.lookup_isSome.mp (by simp [hlookup]))
    refine h.frame ?_ (fun _ _ => rfl) (fun _ _ => id) ?_ (fun _ => id)
      ⟨hanswered, h.entries r callback hlookup⟩ rfl rfl rfl
    · refine (congrArg (Counted s.heap) ?_).mp h.counted
      have hkeys : (s.pendingMessages.keys : Multiset Nat) =
          {r} + ((s.pendingMessages.keys.erase r : List Nat) : Multiset Nat) := by
        rw [Multiset.singleton_add, Multiset.cons_coe]
        exact Multiset.coe_eq_coe.mpr (List.perm_cons_erase hmem)
      simp only [State.holders, hkeys, hnotified, AList.keys_erase]
      refine Multiset.ext.mpr fun r' => ?_
      simp only [Dispatch.held, Multiset.insert_eq_cons, ← Multiset.singleton_add,
        Multiset.count_add]
      omega
    · intro r' found hfound
      by_cases heq : r' = r
      · subst heq
        cases (AList.lookup_erase _ _).symm.trans hfound
      · rwa [AList.lookup_erase_ne heq] at hfound

/-- The dispatch thread gives a reference back. -/
theorem exists_unref (dispatch : Dispatch κ) (hheld : s.dispatch.held = r ::ₘ dispatch.held)
    {heap : RefHeap PendingCall} (hcounted : Counted heap s.holders) :
    ∃ heap', heap.unref r = some heap' ∧ Counted heap' { s with dispatch := dispatch }.holders ∧
      ∀ r' ∈ { s with dispatch := dispatch }.holders, heap'.read r' = heap.read r' := by
  refine Counted.unref ((congrArg (Counted heap) ?_).mp hcounted)
  rw [State.holders, hheld, Multiset.add_cons]
  rfl

/-- An entry without a callback. -/
theorem takeReply_none_keeps (h : Inv s) (hdispatch : s.dispatch = .found r none) :
    Keeps (s.takeReply r none) := by
  obtain ⟨heap, hheap, hcounted, hread⟩ :=
    exists_unref (.completing r) (by rw [hdispatch]; rfl) h.counted
  refine ⟨_, by rw [State.takeReply, hheap]; rfl, ?_⟩
  exact h.frame hcounted (fun r' hheld => (serialAt_congr (hread r' hheld)).1) (fun _ _ => id)
    (fun _ _ => id) (fun _ => id) trivial rfl rfl rfl

/-- The callback of an entry gets the reply to the message that was sent with it. -/
theorem takeReply_some_keeps (h : Inv s) {callback : κ}
    (hdispatch : s.dispatch = .found r (some callback)) :
    Keeps (s.takeReply r (some callback)) := by
  have hok := h.dispatch
  rw [State.DispatchOk, hdispatch] at hok
  obtain ⟨⟨n, hn, hreply, hlt, hlookup, hcall⟩, n', hn', hsent⟩ := hok
  obtain rfl : n = n' := Option.some.inj (hn.symm.trans hn')
  have hheld : r ∈ s.dispatch.held := by simp [hdispatch, Dispatch.held]
  obtain ⟨taken, pending, htaken, hcounted, hpending, -, hserial, -⟩ :=
    exists_modify h.counted (mem_holders_of_dispatch hheld)
      (fun pending => { pending with reply := none }) fun _ => rfl
  obtain ⟨heap, hheap, hcounted', hread⟩ :=
    exists_unref (.completing r) (by rw [hdispatch]; rfl) hcounted
  have hserial' : ∀ r' ∈ { s with dispatch := .completing r }.holders,
      serialAt heap r' = serialAt s.heap r' :=
    fun r' hheld => (serialAt_congr (hread r' hheld)).1.trans (hserial r')
  have hresult : pending.reply = some n := by simpa [replyAt, hpending] using hreply
  refine ⟨_, by simp only [State.takeReply, hpending, Option.bind_eq_bind, Option.bind_some,
    hresult, htaken, hheap]; rfl, ?_⟩
  constructor
  case counted => exact hcounted'
  case replies =>
    intro serial found hfound
    obtain ⟨hr, hltold, hold⟩ := h.replies serial found hfound
    refine ⟨?_, hltold, ?_⟩
    · rintro r' rfl
      exact (hserial' r' (mem_holders_of_reply hfound)).trans (hr r' rfl)
    · rw [List.map_append, List.mem_append]
      rintro (hmem | hmem)
      · exact hold hmem
      · -- The serial that has been answered is no longer in the table.
        obtain rfl := List.mem_singleton.mp hmem
        cases hlookup.symm.trans hfound
  case entries =>
    intro r' found hfound
    exact (h.entries r' found hfound).mono (hserial' r' (mem_holders_of_entry hfound))
      fun _ => id
  case sending =>
    intro r' found hfound
    obtain ⟨hnot, hwith⟩ := h.sending r' found hfound
    exact ⟨hnot, hwith.mono (hserial' r' (mem_holders_of_sending hfound)) fun _ => id⟩
  case dispatch => exact trivial
  case sends => exact h.sends
  case calls =>
    constructor
    · rw [List.map_append, List.nodup_append]
      refine ⟨h.calls.1, List.nodup_singleton _, ?_⟩
      rintro serial hmem _ hlast rfl
      obtain rfl := List.mem_singleton.mp hlast
      exact hcall hmem
    · intro call hmem
      rcases List.mem_append.mp hmem with hmem | hmem
      · exact h.calls.2 call hmem
      · obtain rfl := List.mem_singleton.mp hmem
        exact hsent

theorem finish_keeps (h : Inv s) (hdispatch : s.dispatch = .completing r) :
    Keeps (s.finish r) := by
  obtain ⟨heap, hheap, hcounted, hread⟩ :=
    exists_unref (r := r) .idle (by rw [hdispatch]; rfl) h.counted
  refine ⟨_, by rw [State.finish, hheap]; rfl, ?_⟩
  exact h.frame hcounted (fun r' hheld => (serialAt_congr (hread r' hheld)).1) (fun _ _ => id)
    (fun _ _ => id) (fun _ => id) trivial rfl rfl rfl

theorem step_keeps (h : Inv s) {label : Label κ} {m : Option (State κ)}
    (hstep : s.step label = some m) : Keeps m := by
  cases label with
  | lock replyCb =>
    simp only [State.step] at hstep
    split at hstep
    case h_1 hfree => exact Option.some.inj hstep ▸ lock_keeps h hfree
    case h_2 => cases hstep
  | sendWithReply pending =>
    simp only [State.step] at hstep
    split at hstep
    case h_1 hsending =>
      exact Option.some.inj hstep ▸ release_keeps h (by rw [hsending]; rfl)
    case h_2 replyCb r hsending =>
      split at hstep
      case isTrue hfree =>
        exact Option.some.inj hstep ▸
          sendWithReply_keeps h hsending (Option.isNone_iff_eq_none.mp hfree)
      case isFalse => cases hstep
    case h_3 => cases hstep
  | setNotify =>
    simp only [State.step] at hstep
    split at hstep
    case h_1 r replyCb hsending => exact Option.some.inj hstep ▸ setNotify_keeps h hsending
    case h_2 => cases hstep
  | emplace =>
    simp only [State.step] at hstep
    split at hstep
    case h_1 r replyCb hsending => exact Option.some.inj hstep ▸ emplace_keeps h hsending
    case h_2 => cases hstep
  | unlock =>
    simp only [State.step] at hstep
    split at hstep
    case h_1 hsending => exact Option.some.inj hstep ▸ release_keeps h (by rw [hsending]; rfl)
    case h_2 => cases hstep
  | complete serial =>
    simp only [State.step] at hstep
    split at hstep
    case h_1 r hidle hlookup => exact Option.some.inj hstep ▸ complete_keeps h hidle hlookup
    case h_2 => cases hstep
  | findEntry =>
    simp only [State.step] at hstep
    split at hstep
    case h_1 r hnotified _ => exact Option.some.inj hstep ▸ findEntry_keeps h hnotified
    case h_2 => cases hstep
  | takeReply =>
    simp only [State.step] at hstep
    split at hstep
    case h_1 r callback hfound =>
      obtain rfl := Option.some.inj hstep
      cases callback with
      | none => exact takeReply_none_keeps h hfound
      | some callback => exact takeReply_some_keeps h hfound
    case h_2 => cases hstep
  | finish =>
    simp only [State.step] at hstep
    split at hstep
    case h_1 r hcompleting => exact Option.some.inj hstep ▸ finish_keeps h hcompleting
    case h_2 => cases hstep

end Steps

/-! ## Runs -/

/-- In every run no pending call is used that has been freed, a pending call lives exactly as long
    as libdbus, an entry of `pending_messages` or a thread refers to it, every callback gets the
    reply to a message that was sent with it, and no reply is handed out twice. -/
theorem own_reply_of_reachable {m : Option (State κ)} (h : (system κ).Reachable m) :
    ∃ s, m = some s ∧
      (∀ r, s.heap.refs r = s.holders.count r) ∧
      (∀ r ∈ s.pendingMessages, s.heap r ≠ none) ∧
      (∀ call ∈ s.calls, (call.2, some call.1) ∈ s.sends) ∧
      (s.calls.map Prod.snd).Nodup ∧ (s.sends.map Prod.fst).Nodup := by
  have hinv : Keeps m := by
    apply h.invariant
    case initial =>
      rintro _ rfl
      exact ⟨_, rfl, inv_initial⟩
    case preserved =>
      rintro _ label m' ⟨s, rfl, hinv⟩ hstep
      exact step_keeps hinv hstep
  obtain ⟨s, rfl, hinv⟩ := hinv
  refine ⟨s, rfl, hinv.counted.refs, fun r hmem hfree => ?_, hinv.calls.2, hinv.calls.1,
    hinv.sends.1⟩
  obtain ⟨found, hfound⟩ := Option.isSome_iff_exists.mp (AList.lookup_isSome.mpr hmem)
  exact hinv.counted.eq_none_iff.mp hfree (mem_holders_of_entry hfound)

/-- Two calls one after the other, the second with the address of the first; the reply to the
    first is handled before its sender has given up the lock. -/
def reusing : List (Label Nat) :=
  [.lock (some 10), .sendWithReply (some 5), .setNotify, .complete 1, .emplace, .unlock,
    .findEntry, .takeReply, .finish,
    .lock (some 20), .sendWithReply (some 5), .setNotify, .emplace, .unlock,
    .complete 2, .findEntry, .takeReply]

def reusingEnd : Option (Option (State Nat)) := (system Nat).run (some initial) reusing

theorem reusing_own_reply :
    ∃ s, reusingEnd = some (some s) ∧ s.calls = [(10, 1), (20, 2)] ∧
      ∀ call ∈ s.calls, (call.2, some call.1) ∈ s.sends := by
  have hrun : ∃ s, reusingEnd = some (some s) ∧ s.calls = [(10, 1), (20, 2)] := ⟨_, rfl, rfl⟩
  obtain ⟨s, hs, hcalls⟩ := hrun
  obtain ⟨s', hs', -, -, hown, -⟩ :=
    own_reply_of_reachable (TransitionSystem.reachable_of_run reusing rfl hs)
  obtain rfl := Option.some.inj hs'
  exact ⟨s, hs, hcalls, hown⟩

end Ultrabus.ReplyRouting
