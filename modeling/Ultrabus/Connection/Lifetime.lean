import Ultrabus.Connection.Stages

/-! # What holds of a connection over its life

The results for every interleaving of `connect`, `is_connected` and `disconnect`, and for the
threads that `disconnect_impl` joins. -/

namespace Ultrabus.Lifecycle

variable {ι : Type}

/-! ## States and members -/

def Pc.inImpl : Pc → Bool
  | .impl _ _ => true
  | _ => false

def Pc.inSetup : Pc → Bool
  | .setup _ _ _ => true
  | _ => false

/-- The descriptor has been opened and not been closed. -/
def State.IsOpen (s : State ι) (held : Option Nat) : Prop :=
  ∃ fd, held = some fd ∧ fd < s.nextFd ∧ s.closes fd = 0

structure IsUp (s : State ι) : Prop where
  ctx : s.ctx = true
  pollfd : s.IsOpen s.pollfd
  timerfd : s.IsOpen s.timerfd

structure IsDown (s : State ι) : Prop where
  ctx : s.ctx = false
  pollfd : s.pollfd = none
  timerfd : s.timerfd = none
  ioThread : s.ioThread = .notJoinable
  dispatchThread : s.dispatchThread = .notJoinable
  timers : s.timers = 0
  fdMap : s.fdMap = 0
  pendingMessages : s.pendingMessages = 0

/-- The lifecycle is kept: one thread at a time in `disconnect_impl` and none in `connect` then,
    the members are as `conn_state` says, and no descriptor is closed twice or left open. -/
structure LifecycleKept (s : State ι) : Prop where
  exclusive : ∀ t t', (s.pc t).inImpl = true →
    (s.pc t').inImpl = true ∨ (s.pc t').inSetup = true → t = t'
  connected : s.connState = .connected → IsUp s
  disconnected : s.connState = .disconnected → IsDown s
  closes : ∀ fd, s.closes fd ≤ 1
  closed : s.connState ≠ .connected → (∀ t, (s.pc t).inImpl = false ∧ (s.pc t).inSetup = false) →
    ∀ fd < s.nextFd, s.closes fd = 1

theorem stage_ne_none {p : Pc} (h : p.inImpl = true ∨ p.inSetup = true) : p.stage ≠ none := by
  cases p with
  | impl pc op =>
    obtain ⟨stage, hstage⟩ := stage_impl pc op
    simp [hstage]
  | setup pc type privateConnection => exact nofun
  | _ => obtain h | h := h <;> cases h

theorem stage_eq_none {p : Pc} (h : p.inImpl = false ∧ p.inSetup = false) : p.stage = none := by
  cases p with
  | impl pc op => cases h.1
  | setup pc type privateConnection => cases h.2
  | _ => rfl

theorem FdsBalanced.isOpen {s : State ι} (h : FdsBalanced s false false) {held : Option Nat}
    (hheld : held = s.pollfd ∨ held = s.timerfd) (hsome : held.isSome = true) : s.IsOpen held := by
  obtain ⟨fd, rfl⟩ := Option.isSome_iff_exists.mp hsome
  have hfd := h fd
  have hle := Bool.toNat_le (decide (fd < s.nextFd))
  refine ⟨fd, rfl, ?_, ?_⟩
  · by_contra hnot
    obtain heq | heq := hheld <;> simp [← heq, hnot] at hfd
  · obtain heq | heq := hheld <;> simp [← heq] at hfd <;> omega

theorem AtStage.isDown {s : State ι} (h : AtStage s .down) (hpending : s.pendingMessages = 0) :
    IsDown s where
  ctx := h.ctx false rfl
  pollfd := h.pollfd_eq_none rfl
  timerfd := h.timerfd_eq_none rfl
  ioThread := by
    have hjoinable := h.ioThread false rfl
    cases hworker : s.ioThread <;> simp [hworker, Worker.joinable] at hjoinable ⊢
  dispatchThread := by
    have hjoinable := h.dispatchThread false rfl
    cases hworker : s.dispatchThread <;> simp [hworker, Worker.joinable] at hjoinable ⊢
  timers := (h.maps.resolve_left nofun).1
  fdMap := (h.maps.resolve_left nofun).2
  pendingMessages := hpending

theorem AtStage.isUp {s : State ι} {stage : Stage} (h : AtStage s stage)
    (hup : stage = .up ∨ stage = .closing) : IsUp s := by
  obtain rfl | rfl := hup
  all_goals
    exact ⟨h.ctx true rfl, h.fds.isOpen (.inl rfl) (h.pollfd true rfl),
      h.fds.isOpen (.inr rfl) (h.timerfd true rfl)⟩

theorem FdsBalanced.closes_le {s : State ι} {pollfdClosed timerfdClosed : Bool}
    (h : FdsBalanced s pollfdClosed timerfdClosed) (fd : Nat) : s.closes fd ≤ 1 := by
  have hfd := h fd
  have hle := Bool.toNat_le (decide (fd < s.nextFd))
  omega

theorem AtStage.closed {s : State ι} {stage : Stage} (h : AtStage s stage) (hdown : stage = .down)
    {fd : Nat} (hfd : fd < s.nextFd) : s.closes fd = 1 := by
  subst hdown
  have hbalance := h.fds fd
  simpa [h.pollfd_eq_none rfl, h.timerfd_eq_none rfl, hfd] using hbalance

variable [DecidableEq ι]

/-! ## Callbacks that keep off -/

/-- No callback calls `disconnect` while the connection is up, or tests `is_connected` when the
    bus has dropped and no other thread has noticed. -/
def CallbacksKeepOff (s : State ι) : Label ι → Prop
  | .test .dispatcher => s.connState = .connected →
    s.pc .dispatcher ≠ .locked .disconnect ∧
      (s.pc .dispatcher = .locked .isConnected → s.busUp = true)
  | _ => True

theorem testStep_dispatcher {s : State ι} {op : Op} (h : Inv True s)
    (hallowed : CallbacksKeepOff s (.test .dispatcher)) (hpc : s.pc .dispatcher = .locked op) :
    ∃ result, testStep s .dispatcher op = s.leave .dispatcher result := by
  obtain hleave | ⟨type, privateConnection, hdown, -⟩ | ⟨hup, hop, -⟩ :=
    testStep_cases s .dispatcher op
  · exact hleave
  · -- The dispatch thread is still running, so `conn_state` is not `disconnected`.
    obtain ⟨stage, owner, hat, -⟩ := h.stage
    obtain rfl := hat.eq_down hdown
    have hrunning := h.dispatcher (by rw [hpc]; rfl)
    have hjoinable := hat.dispatchThread false rfl
    simp [hrunning, Worker.joinable] at hjoinable
  · obtain ⟨hdisconnect, hisConnected⟩ := hallowed hup
    obtain rfl | ⟨rfl, hdropped⟩ := hop
    · exact absurd hpc hdisconnect
    · simp [hisConnected hpc] at hdropped

theorem Moves.stage_eq_none {s s' : State ι} {a : Label ι} (hmoves : Moves s a s')
    (h : Inv True s) (hallowed : CallbacksKeepOff s a) (hidle : (s.pc .dispatcher).stage = none) :
    (s'.pc .dispatcher).stage = none := by
  have hupdate : ∀ (t : Thread ι) (p : Pc), (s.pc t).stage ≠ none ∨ p.stage = none →
      (Function.update s.pc t p .dispatcher).stage = none := by
    intro t p hor
    rw [Function.update_apply]
    split
    case isTrue heq =>
      obtain hworks | hnone := hor
      · exact absurd (heq ▸ hidle) hworks
      · exact hnone
    case isFalse => exact hidle
  cases hmoves with
  | start t op last _ _ => exact hupdate t (.atLock op) (.inr rfl)
  | lock t op _ _ => exact hupdate t (.locked op) (.inr rfl)
  | returnState t _ result => exact hupdate t (.idle result) (.inr rfl)
  | test t op hpc =>
    by_cases heq : t = .dispatcher
    · subst heq
      obtain ⟨result, hleave⟩ := testStep_dispatcher h hallowed hpc
      rw [hleave]
      exact hupdate .dispatcher (.idle result) (.inr rfl)
    · have hsame : ∀ p, Function.update s.pc t p .dispatcher = s.pc .dispatcher :=
        fun p => Function.update_of_ne (Ne.symm heq) p s.pc
      obtain ⟨result, hcase⟩ | ⟨type, privateConnection, -, hcase⟩ | ⟨-, -, hcase⟩ :=
        testStep_cases s t op <;> rw [hcase] <;> exact (congrArg Pc.stage (hsame _)).trans hidle
  | setup t pc type privateConnection success hpc =>
    obtain ⟨p, hp, -⟩ := setupStep_pc s t type privateConnection success pc
    rw [hp]
    exact hupdate t p (.inl (by rw [hpc]; exact nofun))
  | impl t pc op s' hpc himpl =>
    obtain ⟨p, hp, -⟩ := implStep_pc himpl
    obtain ⟨stage, hstage⟩ := stage_impl pc op
    rw [hp]
    exact hupdate t p (.inl (by rw [hpc, hstage]; exact nofun))
  | joinSelf t pc op hpc _ =>
    obtain ⟨stage, hstage⟩ := stage_impl pc op
    exact hupdate t _ (.inl (by rw [hpc, hstage]; exact nofun))
  | environment a s' henv _ => rw [henv.pc]; exact hidle

theorem inv_of_reachableWhen {allowed : State ι → Label ι → Prop} {s : State ι}
    (h : (system ι).ReachableWhen allowed s) : Inv True s := by
  apply h.invariant
  case initial =>
    rintro _ rfl
    exact inv_initial
  case preserved => exact fun _ _ _ hinv _ hstep => inv_step hinv (.inl trivial) hstep

/-- The dispatch thread never works on the connection where its callbacks keep off. -/
theorem dispatcher_stage_eq_none {allowed : State ι → Label ι → Prop} {s : State ι}
    (himp : ∀ s a, allowed s a → CallbacksKeepOff s a) (h : (system ι).ReachableWhen allowed s) :
    (s.pc .dispatcher).stage = none := by
  apply h.invariant_over fun _ => inv_of_reachableWhen
  case initial =>
    rintro _ rfl
    rfl
  case preserved =>
    intro s a s' hinv hidle hallowed hstep
    exact (moves_of_step hstep).stage_eq_none hinv (himp s a hallowed) hidle

/-! ## The lifecycle -/

/-- All threads start, no thread comes to join itself, and no entry is put into
    `pending_messages` that is not cleared. -/
def Orderly (s : State ι) (a : Label ι) : Prop :=
  ThreadsStart s a ∧ CallbacksKeepOff s a ∧ NoLateEntry s a

theorem inv_of_orderly {s : State ι} (h : (system ι).ReachableWhen Orderly s) : Inv False s := by
  apply h.invariant_over fun _ => dispatcher_stage_eq_none fun _ _ hallowed => hallowed.2.1
  case initial =>
    rintro _ rfl
    exact inv_initial
  case preserved =>
    rintro s a s' hidle hinv ⟨hstart, -, hentry⟩ hstep
    exact inv_step hinv (.inr ⟨hstart, hidle, hentry⟩) hstep

/-- The lifecycle is kept in every orderly run. -/
theorem lifecycleKept_of_orderly {s : State ι} (h : (system ι).ReachableWhen Orderly s) :
    LifecycleKept s := by
  obtain ⟨stage, owner, hat, howner, horder⟩ := (inv_of_orderly h).stage
  have horder : InOrder s stage := horder.resolve_left id
  have heq : ∀ t, (s.pc t).inImpl = true ∨ (s.pc t).inSetup = true → t = owner := by
    intro t hworks
    by_contra hne
    exact stage_ne_none hworks (howner.others t hne)
  refine ⟨fun t t' himpl hworks => ?_, fun hup => hat.isUp (hat.eq_up hup), fun hdown => ?_,
    hat.fds.closes_le, fun hnotUp hidle fd hfd => ?_⟩
  · rw [heq t (.inl himpl), heq t' hworks]
  · obtain rfl := hat.eq_down hdown
    exact hat.isDown (horder.entries.resolve_left nofun)
  · refine hat.closed ?_ hfd
    have hown := (stage_eq_none (hidle owner)).symm.trans howner.own
    cases stage with
    | down => rfl
    | up => exact absurd hat.connState hnotUp
    | stuck => exact absurd rfl horder.started
    | abandoned => exact absurd rfl horder.joined
    | _ => cases hown

/-- A client connects. -/
def connectLabels (success : Bool) : List (Label Unit) :=
  [.start (.client ()) (.connect .session false), .lock (.client ()), .test (.client ()),
    .setup (.client ()) true, .setup (.client ()) true, .setup (.client ()) true,
    .setup (.client ()) true, .setup (.client ()) true, .setup (.client ()) success]

/-- The connection comes up, a message is sent, the bus drops, and a client notices it. -/
def droppedRun : List (Label Unit) :=
  connectLabels true ++
  [.setup (.client ()) true, .addWatch, .setup (.client ()) true, .setup (.client ()) true,
    .enterSend, .sendWithReply true, .emplace, .dropBus, .start (.client ()) .isConnected,
    .lock (.client ()), .test (.client ()), .impl (.client ()), .impl (.client ()),
    .impl (.client ()), .impl (.client ()), .impl (.client ()), .endIo, .impl (.client ()),
    .impl (.client ()), .endDispatch, .impl (.client ()), .impl (.client ()), .impl (.client ()),
    .impl (.client ()), .impl (.client ()), .impl (.client ()), .impl (.client ()),
    .returnState (.client ())]

theorem droppedRun_lifecycleKept :
    ∃ s, (system Unit).run initial droppedRun = some s ∧ LifecycleKept s ∧
      s.connState = .disconnected ∧ s.nextFd = 2 := by
  have hrun : (system Unit).run initial droppedRun = some _ := rfl
  refine ⟨_, hrun, lifecycleKept_of_orderly
    (TransitionSystem.reachableWhen_of_run droppedRun rfl ?_ hrun), rfl, rfl⟩
  have hstart : ∀ (s : State Unit), Orderly s (.setup (.client ()) true) :=
    fun _ => ⟨fun _ _ _ => rfl, trivial, trivial⟩
  have hother : True ∧ True ∧ True := ⟨trivial, trivial, trivial⟩
  refine ⟨hother, hother, hother, hstart _, hstart _, hstart _, hstart _, hstart _, hstart _,
    hstart _, hother, hstart _, hstart _, hother, hother, ⟨trivial, trivial, .inl rfl⟩, hother,
    hother, hother, hother, hother, hother, hother, hother, hother, hother, hother, hother, hother,
    hother, hother, hother, hother, hother, hother, hother, hother, trivial⟩

/-- The I/O thread cannot be started. -/
theorem connectLabels_not_lifecycleKept :
    ∃ s, (system Unit).run initial (connectLabels false) = some s ∧ ¬ LifecycleKept s ∧
      s.pc (.client ()) = .idle .exception ∧ s.connState = .connecting := by
  have hrun : (system Unit).run initial (connectLabels false) = some _ := rfl
  refine ⟨_, hrun, fun h => ?_, rfl, rfl⟩
  have hclosed := h.closed nofun (fun t => ?_) 0 (by decide)
  · cases hclosed
  · match t with
    | .client () | .dispatcher | .io => exact ⟨rfl, rfl⟩

/-! ## Threads that are joined -/

/-- A thread is in front of the `join` of the `std::thread` that it runs on. -/
def JoinsItself (s : State ι) : Prop :=
  (∃ op, s.pc .io = .impl .atJoinIo op ∧ s.ioThread.joinable = true) ∨
    ∃ op, s.pc .dispatcher = .impl .atJoinDispatch op ∧ s.dispatchThread.joinable = true

/-- No thread joins itself in a run in which the callbacks keep off. -/
theorem not_joinsItself_of_callbacksKeepOff {s : State ι}
    (h : (system ι).ReachableWhen CallbacksKeepOff s) : ¬ JoinsItself s := by
  have hio := (inv_of_reachableWhen h).io
  have hidle := dispatcher_stage_eq_none (fun _ _ hallowed => hallowed) h
  rintro (⟨op, hpc, -⟩ | ⟨op, hpc, -⟩)
  · rw [hpc] at hio
    cases hio
  · rw [hpc] at hidle
    cases hidle

/-- A callback tests `is_connected` while the bus is up, and then a client disconnects. -/
def callbackRun : List (Label Unit) :=
  connectLabels true ++
  [.setup (.client ()) true, .setup (.client ()) true, .setup (.client ()) true,
    .start .dispatcher .isConnected, .lock .dispatcher, .test .dispatcher,
    .start (.client ()) .disconnect, .lock (.client ()), .test (.client ()),
    .impl (.client ()), .impl (.client ()), .impl (.client ()), .impl (.client ()),
    .impl (.client ()), .endIo, .impl (.client ()), .impl (.client ()), .endDispatch,
    .impl (.client ())]

theorem callbackRun_not_joinsItself :
    ∃ s, (system Unit).run initial callbackRun = some s ∧ ¬ JoinsItself s ∧
      s.pc .dispatcher = .idle (.value true) ∧ s.dispatchThread = .notJoinable := by
  have hrun : (system Unit).run initial callbackRun = some _ := rfl
  refine ⟨_, hrun, not_joinsItself_of_callbacksKeepOff
    (TransitionSystem.reachableWhen_of_run callbackRun rfl ?_ hrun), rfl, rfl⟩
  exact ⟨trivial, trivial, trivial, trivial, trivial, trivial, trivial, trivial, trivial, trivial,
    trivial, trivial, trivial, trivial, fun _ => ⟨nofun, fun _ => rfl⟩, trivial, trivial, trivial,
    trivial, trivial, trivial, trivial, trivial, trivial, trivial, trivial, trivial, trivial,
    trivial⟩

/-- A callback tests `is_connected` when the bus has dropped. -/
def droppedCallbackRun : List (Label Unit) :=
  connectLabels true ++
  [.setup (.client ()) true, .setup (.client ()) true, .setup (.client ()) true, .dropBus,
    .start .dispatcher .isConnected, .lock .dispatcher, .test .dispatcher,
    .impl .dispatcher, .impl .dispatcher, .impl .dispatcher, .impl .dispatcher,
    .impl .dispatcher, .endIo, .impl .dispatcher, .impl .dispatcher]

theorem droppedCallbackRun_joinsItself :
    ∃ s, (system Unit).run initial droppedCallbackRun = some s ∧ JoinsItself s :=
  ⟨_, rfl, .inr ⟨.isConnected, rfl, rfl⟩⟩

/-- A message is sent after `pending_messages` has been cleared. -/
def lateEntryRun : List (Label Unit) :=
  connectLabels true ++
  [.setup (.client ()) true, .setup (.client ()) true, .setup (.client ()) true, .enterSend,
    .start (.client ()) .disconnect, .lock (.client ()), .test (.client ()), .impl (.client ()),
    .impl (.client ()), .impl (.client ()), .impl (.client ()), .sendWithReply true, .emplace,
    .impl (.client ()), .endIo, .impl (.client ()), .impl (.client ()), .endDispatch,
    .impl (.client ()), .impl (.client ()), .impl (.client ()), .impl (.client ()),
    .impl (.client ()), .impl (.client ()), .impl (.client ())]

/-- A thread that joins itself leaves the descriptors open for ever, and a late entry stays. -/
theorem joinsItself_lateEntry_not_lifecycleKept :
    (∃ s, (system Unit).run initial (droppedCallbackRun ++ [.impl .dispatcher]) = some s ∧
      ¬ LifecycleKept s ∧ s.pc .dispatcher = .idle .exception ∧ s.connState = .disconnecting) ∧
    ∃ s, (system Unit).run initial lateEntryRun = some s ∧ ¬ LifecycleKept s ∧
      s.connState = .disconnected ∧ s.pendingMessages = 1 := by
  constructor
  · have hrun : (system Unit).run initial (droppedCallbackRun ++ [.impl .dispatcher]) = some _ :=
      rfl
    refine ⟨_, hrun, fun h => ?_, rfl, rfl⟩
    have hclosed := h.closed nofun (fun t => ?_) 0 (by decide)
    · cases hclosed
    · match t with
      | .client () | .dispatcher | .io => exact ⟨rfl, rfl⟩
  · have hrun : (system Unit).run initial lateEntryRun = some _ := rfl
    refine ⟨_, hrun, fun h => ?_, rfl, rfl⟩
    cases (h.disconnected rfl).pendingMessages

end Ultrabus.Lifecycle
