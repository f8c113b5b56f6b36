import Mathlib.Tactic.Push
import Ultrabus.Connection.Teardown

/-! # The steps of a teardown

What the steps of the clients, of the dispatch thread and of `disconnect_impl` do to the
entries of `pending_messages` and to the calls, and the invariant of every run. -/

namespace Ultrabus.Teardown

variable {κ : Type} [LinearOrder κ]

/-! ## The invariant of every run -/

/-- Where `conn_state` is while `disconnect_impl` is at `pc`. -/
def TeardownPc.connState : TeardownPc κ → ConnState
  | .notStarted => .connected
  | .done => .disconnected
  | _ => .disconnecting

/-- What `ctx` is while `disconnect_impl` is at `pc`. -/
def TeardownPc.ctx : TeardownPc κ → Ctx
  | .atNullCtx => .dangling
  | .atFinish | .done => .null
  | _ => .live

/-- The loop of `dbus_pending_call_unref` has released the entry of the call. -/
def TeardownPc.passed : TeardownPc κ → κ → Bool
  | .notStarted, _ | .atTestBus, _ | .atCancel, _ | .atClose, _ | .atReset, _ => false
  | .atUnref pos, c => pos.any fun last => c ≤ last
  | .atRead current, c | .atUnrefCall current, c => c < current
  | _, _ => true

/-- The entry at which the loop is. -/
def TeardownPc.current : TeardownPc κ → Option κ
  | .atRead c | .atUnrefCall c => some c
  | _ => none

/-- The loop is at the entry of the call or has released it. -/
def TeardownPc.reached (pc : TeardownPc κ) (c : κ) : Bool := pc.passed c || pc.current = some c

/-- `dispatch_thread.join ()` has returned. -/
def TeardownPc.joined : TeardownPc κ → Bool
  | .atUnrefCtx | .atNullCtx | .atFinish | .done => true
  | _ => false

/-- The entry of the call has been put into the map. -/
def Call.isEmplaced (k : Call) : Bool := k.hasNotify && k.pc ≠ .notifySet

/-- Whether the notify function is set at `pc`; a call that has returned may have one or not. -/
def ClientPc.notified : ClientPc → Option Bool
  | .notifySet | .inserted | .waiting => some true
  | .returned _ => none
  | _ => some false

def Call.Consistent (k : Call) : Prop := ∀ notified ∈ k.pc.notified, k.hasNotify = notified

/-- In front of handing `ctx` to libdbus, after `is_connected`. -/
def ClientPc.handsOver : ClientPc → Bool
  | .atSend | .atLock | .locked => true
  | _ => false

/-- What the dispatch thread still has to do for an entry that it has taken out of the map. -/
def DispatchPc.disposal : DispatchPc κ → DispatchPc κ
  | .atLock _ | .locked _ => .idle
  | dispatch => dispatch

omit [LinearOrder κ] in
theorem eq_of_disposal_eq {d d' : DispatchPc κ} (h : d'.disposal = d.disposal)
    (hbusy : d.disposal ≠ .idle) : d' = d := by
  cases d <;> cases d' <;> simp_all [DispatchPc.disposal]

/-- The invariant of every run. -/
structure Inv (s : State κ) : Prop where
  connState : s.connState = s.teardown.connState
  ctx : s.ctx = s.teardown.ctx
  joined : s.teardown.joined = true → s.dispatch = .finished
  tearsDown : s.teardown ≠ .done → ∀ c ∈ s.teardownBy, (s.call c).pc = .tearsDown
  consistent : ∀ c, (s.call c).Consistent
  stored : ∀ entry ∈ s.pendingMessages,
    (s.call entry.1).isEmplaced = true ∧ entry.2 = (s.call entry.1).kind.hasCallback

/-! ## What the steps of the dispatch thread do -/

theorem findEntry_cases {s s' : State κ} (hstep : step s .findEntry = some s') :
    ∃ c, s.dispatch = .locked c ∧
      ((s.entry c = none ∧ s' = { s with pendingMutex := none, dispatch := .idle }) ∨
        ∃ callback, s.entry c = some callback ∧
          s' = { s with
            pendingMessages := s.pendingMessages.filter fun entry => entry.1 ≠ c
            pendingMutex := none
            dispatch := .found c callback }) := by
  simp only [step] at hstep
  split at hstep
  case h_1 c hat =>
    refine ⟨c, hat, ?_⟩
    split at hstep <;> cases hstep
    case h_1 hentry => exact .inl ⟨hentry, rfl⟩
    case h_2 callback hentry => exact .inr ⟨callback, hentry, rfl⟩
  case h_2 => cases hstep

theorem releaseCall_cases {s s' : State κ} (hstep : step s .releaseCall = some s') :
    ∃ c callback, s.dispatch = .found c callback ∧
      s' = { s.setCall c { s.call c with unrefs := (s.call c).unrefs + 1 } with
        dispatch := if callback then .released c else .idle } := by
  simp only [step] at hstep
  split at hstep
  case h_1 c callback hat => exact ⟨c, callback, hat, (Option.some.inj hstep).symm⟩
  case h_2 => cases hstep

theorem runCallback_cases {s s' : State κ} (hstep : step s .runCallback = some s') :
    ∃ c, s.dispatch = .released c ∧
      s' = { s.setCall c { s.call c with runs := (s.call c).runs + 1 } with
        dispatch := .idle } := by
  simp only [step] at hstep
  split at hstep
  case h_1 c hat => exact ⟨c, hat, (Option.some.inj hstep).symm⟩
  case h_2 => cases hstep

/-! ## Steps that leave the accounts of the calls as they are -/

/-- What holds of all calls holds after one of them is replaced. -/
theorem forall_setCall {P : κ → Call → Prop} {s : State κ} {c : κ} {k : Call}
    (h : ∀ c', P c' (s.call c')) (hk : P c k) (c' : κ) : P c' ((s.setCall c k).call c') := by
  simp only [State.setCall, Function.update_apply]
  split
  case isTrue heq => exact heq ▸ hk
  case isFalse => exact h c'

/-- A step from `k` to `k'` that is not the one that puts the entry into the map. -/
structure Call.SameEntry (connected : Prop) (k k' : Call) : Prop where
  consistent : k'.Consistent
  isEmplaced : k'.isEmplaced = k.isEmplaced
  kind : k.isEmplaced = true → k'.kind = k.kind
  handsOver : k'.pc.handsOver = true → k.pc.handsOver = true ∨ connected

/-- A step that neither runs the callback nor releases the call either. -/
structure Call.Follows (connected : Prop) (k k' : Call) : Prop extends
    Call.SameEntry connected k k' where
  runs : k'.runs = k.runs
  unrefs : k'.unrefs = k.unrefs

omit [LinearOrder κ] in
theorem Call.Follows.refl {connected : Prop} {k : Call} (h : k.Consistent) :
    k.Follows connected k :=
  ⟨⟨h, rfl, fun _ => rfl, .inl⟩, rfl, rfl⟩

theorem Call.Follows.setPc {connected : Prop} {k : Call} {pc : ClientPc} (h : k.Consistent)
    (hnotified : ∀ notified ∈ pc.notified, notified ∈ k.pc.notified)
    (hfrom : k.pc ≠ .notifySet) (hto : pc ≠ .notifySet)
    (hhandsOver : pc.handsOver = true → k.pc.handsOver = true ∨ connected) :
    k.Follows connected { k with pc := pc } where
  consistent notified hpc := h notified (hnotified notified hpc)
  isEmplaced := by simp [Call.isEmplaced, hfrom, hto]
  kind _ := rfl
  runs := rfl
  unrefs := rfl
  handsOver := hhandsOver

/-- The label neither touches the map nor a reference nor runs a callback. -/
def Label.isQuiet : Label κ → Bool
  | .emplace _ | .findEntry | .releaseCall | .runCallback | .stopDispatcher | .teardown => false
  | _ => true

structure QuietStep (s s' : State κ) : Prop where
  pendingMessages : s'.pendingMessages = s.pendingMessages
  disposal : s'.dispatch.disposal = s.dispatch.disposal
  call : ∀ c, (s.call c).Follows (s.connState = .connected) (s'.call c)

theorem follows_setCall {connected : Prop} {s : State κ} {c : κ} {k : Call}
    (h : ∀ c, (s.call c).Consistent) (hk : (s.call c).Follows connected k) (c' : κ) :
    (s.call c').Follows connected ((s.setCall c k).call c') :=
  forall_setCall (P := fun c' k => (s.call c').Follows connected k) (fun c' => .refl (h c')) hk c'

/-- A step in which the thread of a call only goes on. -/
theorem follows_setPc {connected : Prop} {s : State κ} {c : κ} {pc : ClientPc}
    (h : ∀ c, (s.call c).Consistent)
    (hnotified : ∀ notified ∈ pc.notified, notified ∈ (s.call c).pc.notified)
    (hfrom : (s.call c).pc ≠ .notifySet) (hto : pc ≠ .notifySet)
    (hhandsOver : pc.handsOver = true → (s.call c).pc.handsOver = true ∨ connected) (c' : κ) :
    (s.call c').Follows connected ((s.setPc c pc).call c') :=
  follows_setCall h (.setPc (h c) hnotified hfrom hto hhandsOver) c'

theorem quietStep_isConnected {s : State κ} {c : κ} {next : ClientPc}
    (h : ∀ c, (s.call c).Consistent)
    (hfrom : (s.call c).pc.notified = some false)
    (hnext : next.notified = some false) : QuietStep s (isConnected s c next) := by
  have hpc : (s.call c).pc ≠ .notifySet := by
    intro hpc
    simp [hpc, ClientPc.notified] at hfrom
  unfold isConnected
  split
  case isTrue hconnected =>
    split
    · refine ⟨rfl, rfl, follows_setPc h ?_ hpc ?_ fun _ => .inr hconnected⟩
      · rw [hnext, hfrom]
        exact fun _ => id
      · rintro rfl
        cases hnext
    · refine ⟨rfl, rfl, follows_setPc h ?_ hpc ?_ fun _ => .inr hconnected⟩
      · rw [hfrom]
        exact fun _ => id
      · exact nofun
  case isFalse =>
    exact ⟨rfl, rfl, follows_setPc h nofun hpc nofun nofun⟩

theorem quietStep_of_step {s s' : State κ} {a : Label κ} (h : ∀ c, (s.call c).Consistent)
    (ha : a.isQuiet = true) (hstep : step s a = some s') : QuietStep s s' := by
  have hrefl : ∀ c, (s.call c).Follows (s.connState = .connected) (s.call c) :=
    fun c => .refl (h c)
  cases a with
  | emplace | findEntry | releaseCall | runCallback | stopDispatcher | teardown => cases ha
  | enter c kind =>
    simp only [step, Option.ite_none_right_eq_some, Option.some.injEq] at hstep
    obtain ⟨hpc, rfl⟩ := hstep
    have hc := h c false (by simp [hpc, ClientPc.notified])
    refine ⟨rfl, rfl, follows_setCall h ?_⟩
    refine ⟨⟨?_, ?_, ?_, ?_⟩, rfl, rfl⟩ <;> split <;>
      simp [Call.Consistent, Call.isEmplaced, ClientPc.notified, ClientPc.handsOver, hc, hpc]
  | firstCheck c =>
    simp only [step, Option.ite_none_right_eq_some, Option.some.injEq] at hstep
    obtain ⟨hpc, rfl⟩ := hstep
    exact quietStep_isConnected h (by simp [hpc, ClientPc.notified]) rfl
  | check c =>
    simp only [step, Option.ite_none_right_eq_some, Option.some.injEq] at hstep
    obtain ⟨hpc, rfl⟩ := hstep
    exact quietStep_isConnected h (by simp [hpc, ClientPc.notified]) (by split <;> rfl)
  | sendPlain c result =>
    simp only [step, Option.ite_none_right_eq_some, Option.some.injEq] at hstep
    obtain ⟨hpc, rfl⟩ := hstep
    exact ⟨rfl, rfl, follows_setPc h nofun (by simp [hpc]) nofun nofun⟩
  | lock c =>
    simp only [step, Option.ite_none_right_eq_some, Option.some.injEq] at hstep
    obtain ⟨⟨hpc, -⟩, rfl⟩ := hstep
    refine ⟨rfl, rfl, follows_setPc h ?_ ?_ ?_ ?_⟩ <;>
      simp [hpc, ClientPc.notified, ClientPc.handsOver]
  | sendWithReply c result =>
    simp only [step, Option.ite_none_right_eq_some] at hstep
    obtain ⟨⟨hpc, -⟩, hstep⟩ := hstep
    have hc := h c false (by simp [hpc, ClientPc.notified])
    split at hstep <;> cases hstep
    · refine ⟨rfl, rfl, follows_setCall h ?_⟩
      refine ⟨⟨?_, ?_, ?_, ?_⟩, rfl, rfl⟩ <;>
        simp [Call.Consistent, Call.isEmplaced, ClientPc.notified, ClientPc.handsOver, hc, hpc]
    · exact ⟨rfl, rfl, follows_setPc h nofun (by simp [hpc]) nofun nofun⟩
  | setNotify c =>
    simp only [step, Option.ite_none_right_eq_some, Option.some.injEq] at hstep
    obtain ⟨hpc, rfl⟩ := hstep
    have hc := h c false (by simp [hpc, ClientPc.notified])
    refine ⟨rfl, rfl, follows_setCall h ?_⟩
    refine ⟨⟨?_, ?_, ?_, ?_⟩, rfl, rfl⟩ <;>
      simp [Call.Consistent, Call.isEmplaced, ClientPc.notified, ClientPc.handsOver, hc, hpc]
  | unlock c =>
    simp only [step, Option.ite_none_right_eq_some, Option.some.injEq] at hstep
    obtain ⟨hpc, rfl⟩ := hstep
    refine ⟨rfl, rfl, ?_⟩
    split
    · refine follows_setPc h ?_ ?_ nofun nofun <;> simp [hpc, ClientPc.notified]
    · exact follows_setPc h nofun (by simp [hpc]) nofun nofun
  | finishWait c =>
    simp only [step, Option.ite_none_right_eq_some, Option.some.injEq] at hstep
    obtain ⟨⟨hpc, -⟩, rfl⟩ := hstep
    exact ⟨rfl, rfl, follows_setPc h nofun (by simp [hpc]) nofun nofun⟩
  | dropBus =>
    cases hstep
    exact ⟨rfl, rfl, hrefl⟩
  | complete c =>
    simp only [step, Option.ite_none_right_eq_some, Option.some.injEq] at hstep
    obtain ⟨⟨-, -, -, hidle⟩, rfl⟩ := hstep
    refine ⟨rfl, ?_, follows_setCall h ⟨⟨h c, rfl, fun _ => rfl, .inl⟩, rfl, rfl⟩⟩
    rw [hidle]
    dsimp only
    split <;> rfl
  | lockPending =>
    simp only [step] at hstep
    split at hstep
    case h_1 c hat =>
      simp only [Option.ite_none_right_eq_some, Option.some.injEq] at hstep
      obtain ⟨-, rfl⟩ := hstep
      exact ⟨rfl, by simp [hat, DispatchPc.disposal], hrefl⟩
    case h_2 => cases hstep
  | disconnect =>
    simp only [step, Option.ite_none_right_eq_some, Option.some.injEq] at hstep
    obtain ⟨-, rfl⟩ := hstep
    exact ⟨rfl, rfl, hrefl⟩

/-- What a step of `disconnect_impl` does to the entries and the calls. -/
inductive TeardownMove (s s' : State κ) : Prop where
  | advance (pos : Option κ) (c : κ) (hat : s.teardown = .atUnref pos)
      (hnext : s.nextEntry pos = some c) (heq : s' = { s with teardown := .atRead c })
  | read (c : κ) (hat : s.teardown = .atRead c) (heq : s' = { s with teardown := .atUnrefCall c })
  | unref (c : κ) (hat : s.teardown = .atUnrefCall c)
      (heq : s' = { s.setCall c { s.call c with unrefs := (s.call c).unrefs + 1 } with
        teardown := .atUnref (some c) })
  | unrefEnd (pos : Option κ) (hat : s.teardown = .atUnref pos) (hnext : s.nextEntry pos = none)
      (heq : s' = { s with teardown := .atClear })
  | clear (hat : s.teardown = .atClear)
      (heq : s' = { s with pendingMessages := [], teardown := .atJoinIo })
  | other (hquiet : QuietStep s s') (hdispatch : s'.dispatch = s.dispatch)
      (hpassed : s'.teardown.passed = s.teardown.passed) (hcurrent : s'.teardown.current = none)
      (hby : s'.teardown ≠ .done →
        s'.teardownBy = s.teardownBy ∧ ∀ c, (s'.call c).pc = (s.call c).pc)

theorem teardownMove_of_step {s s' : State κ} (h : Inv s) (hstep : teardownStep s = some s') :
    TeardownMove s s' := by
  have hrefl : ∀ c, (s.call c).Follows (s.connState = .connected) (s.call c) :=
    fun c => .refl (h.consistent c)
  have other : ∀ {s' : State κ}, s'.call = s.call → s'.pendingMessages = s.pendingMessages →
      s'.dispatch = s.dispatch → s'.teardownBy = s.teardownBy →
      s'.teardown.passed = s.teardown.passed → s'.teardown.current = none → TeardownMove s s' :=
    fun hcall hpending hdispatch hby hpassed hcurrent =>
      .other ⟨hpending, by rw [hdispatch], hcall ▸ hrefl⟩ hdispatch hpassed hcurrent
        fun _ => ⟨hby, fun _ => by rw [hcall]⟩
  unfold teardownStep at hstep
  split at hstep
  case h_1 | h_16 => cases hstep
  case h_2 hat =>
    cases hstep
    refine other rfl rfl rfl rfl ?_ ?_
    · rw [hat]
      dsimp only
      split <;> rfl
    · dsimp only
      split <;> rfl
  case h_3 hat =>
    simp only [Option.ite_none_right_eq_some, Option.some.injEq] at hstep
    obtain ⟨-, rfl⟩ := hstep
    refine .other ⟨rfl, rfl, fun c => ?_⟩ rfl (by rw [hat]; rfl) rfl
      fun _ => ⟨rfl, fun _ => rfl⟩
    exact ⟨⟨h.consistent c, rfl, fun _ => rfl, .inl⟩, rfl, rfl⟩
  case h_6 pos hat =>
    split at hstep <;> cases hstep
    case h_1 c hnext => exact .advance pos c hat hnext rfl
    case h_2 hnext => exact .unrefEnd pos hat hnext rfl
  case h_7 c hat =>
    cases hstep
    exact .read c hat rfl
  case h_8 c hat =>
    cases hstep
    exact .unref c hat rfl
  case h_9 hat =>
    cases hstep
    exact .clear hat rfl
  case h_15 hat =>
    cases hby : s.teardownBy with
    | none =>
      simp only [hby] at hstep
      cases hstep
      exact other rfl rfl rfl hby.symm (by rw [hat]; rfl) rfl
    | some c =>
      simp only [hby] at hstep
      cases hstep
      have hpc := h.tearsDown (by simp [hat]) c hby
      exact .other ⟨rfl, rfl, follows_setPc h.consistent nofun (by simp [hpc]) nofun nofun⟩ rfl
        (by rw [hat]; rfl) rfl fun hdone => absurd rfl hdone
  case h_12 hat =>
    simp only [Option.ite_none_right_eq_some, Option.some.injEq] at hstep
    obtain ⟨-, rfl⟩ := hstep
    exact other rfl rfl rfl rfl (by rw [hat]; rfl) rfl
  case h_4 hat | h_5 hat | h_10 hat | h_11 hat | h_13 hat | h_14 hat =>
    cases hstep
    exact other rfl rfl rfl rfl (by rw [hat]; rfl) rfl

theorem isConnected_call_of_ne {s : State κ} {c c' : κ} {next : ClientPc} (hne : c' ≠ c) :
    (isConnected s c next).call c' = s.call c' := by
  unfold isConnected
  split
  · split <;> exact Function.update_of_ne hne _ _
  · exact Function.update_of_ne hne _ _

theorem pc_setCall {s : State κ} {c : κ} {k : Call} (hk : k.pc = (s.call c).pc) (c' : κ) :
    ((s.setCall c k).call c').pc = (s.call c').pc :=
  forall_setCall (P := fun c' k => k.pc = (s.call c').pc) (fun _ => rfl) hk c'

/-- The thread that runs `disconnect_impl` does nothing else. -/
theorem tearsDown_step {s s' : State κ} {a : Label κ} {c : κ} (hstep : step s a = some s')
    (ha : a ≠ .teardown) (hc : (s.call c).pc = .tearsDown) : (s'.call c).pc = .tearsDown := by
  have hne : ∀ {c' : κ} {pc : ClientPc}, (s.call c').pc = pc → pc ≠ .tearsDown → c ≠ c' := by
    rintro c' pc hpc hpc' rfl
    exact hpc' (hpc.symm.trans hc)
  cases a with
  | teardown => exact absurd rfl ha
  | firstCheck c' | check c' =>
    simp only [step, Option.ite_none_right_eq_some, Option.some.injEq] at hstep
    obtain ⟨hpc, rfl⟩ := hstep
    rwa [isConnected_call_of_ne (hne hpc nofun)]
  | enter c' kind | sendPlain c' result | setNotify c' | emplace c' | unlock c' =>
    simp only [step, Option.ite_none_right_eq_some, Option.some.injEq] at hstep
    obtain ⟨hpc, rfl⟩ := hstep
    exact (congrArg Call.pc (Function.update_of_ne (hne hpc nofun) _ _)).trans hc
  | lock c' | finishWait c' =>
    simp only [step, Option.ite_none_right_eq_some, Option.some.injEq] at hstep
    obtain ⟨⟨hpc, -⟩, rfl⟩ := hstep
    exact (congrArg Call.pc (Function.update_of_ne (hne hpc nofun) _ _)).trans hc
  | sendWithReply c' result =>
    simp only [step, Option.ite_none_right_eq_some] at hstep
    obtain ⟨⟨hpc, -⟩, hstep⟩ := hstep
    split at hstep <;> cases hstep <;>
      exact (congrArg Call.pc (Function.update_of_ne (hne hpc nofun) _ _)).trans hc
  | complete c' =>
    simp only [step, Option.ite_none_right_eq_some, Option.some.injEq] at hstep
    obtain ⟨-, rfl⟩ := hstep
    refine (pc_setCall ?_ c).trans hc
    rfl
  | releaseCall =>
    obtain ⟨c', callback, -, rfl⟩ := releaseCall_cases hstep
    refine (pc_setCall ?_ c).trans hc
    rfl
  | runCallback =>
    obtain ⟨c', -, rfl⟩ := runCallback_cases hstep
    refine (pc_setCall ?_ c).trans hc
    rfl
  | findEntry =>
    obtain ⟨c', -, ⟨-, rfl⟩ | ⟨callback, -, rfl⟩⟩ := findEntry_cases hstep <;> exact hc
  | dropBus | disconnect | stopDispatcher | lockPending =>
    grind [step, State.beginTeardown]

/-! ## The invariant is kept -/

theorem mem_of_entry {s : State κ} {c : κ} {callback : Bool} (h : s.entry c = some callback) :
    (c, callback) ∈ s.pendingMessages := by
  simp only [State.entry, Option.map_eq_some_iff] at h
  obtain ⟨entry, hfind, rfl⟩ := h
  have hkey : entry.1 = c := by simpa using List.find?_some hfind
  exact hkey ▸ List.mem_of_find?_eq_some hfind

/-- What holds after every step but the one that puts an entry into the map. -/
theorem sameEntry_of_step {s s' : State κ} {a : Label κ} (h : Inv s)
    (ha : ∀ c, a ≠ .emplace c) (hstep : step s a = some s') (c : κ) :
    (s.call c).SameEntry (s.connState = .connected) (s'.call c) := by
  have hrefl : ∀ c, (s.call c).SameEntry (s.connState = .connected) (s.call c) :=
    fun c => (Call.Follows.refl (h.consistent c)).toSameEntry
  have hset : ∀ {c' : κ} {k : Call}, (s.call c').SameEntry (s.connState = .connected) k →
      (s.call c).SameEntry (s.connState = .connected) ((s.setCall c' k).call c) := fun hk =>
    forall_setCall (P := fun c' k => (s.call c').SameEntry (s.connState = .connected) k) hrefl hk c
  by_cases hquiet : a.isQuiet = true
  · exact ((quietStep_of_step h.consistent hquiet hstep).call c).toSameEntry
  cases a with
  | emplace c' => exact absurd rfl (ha c')
  | findEntry =>
    obtain ⟨c', -, ⟨-, rfl⟩ | ⟨callback, -, rfl⟩⟩ := findEntry_cases hstep <;> exact hrefl c
  | releaseCall =>
    obtain ⟨c', callback, -, rfl⟩ := releaseCall_cases hstep
    refine hset ?_
    exact ⟨h.consistent c', rfl, fun _ => rfl, .inl⟩
  | runCallback =>
    obtain ⟨c', -, rfl⟩ := runCallback_cases hstep
    refine hset ?_
    exact ⟨h.consistent c', rfl, fun _ => rfl, .inl⟩
  | stopDispatcher =>
    simp only [step, Option.ite_none_right_eq_some, Option.some.injEq] at hstep
    obtain ⟨-, rfl⟩ := hstep
    exact hrefl c
  | teardown =>
    cases teardownMove_of_step h hstep with
    | unref c' _ heq =>
      subst heq
      refine hset ?_
      exact ⟨h.consistent c', rfl, fun _ => rfl, .inl⟩
    | advance _ _ _ _ heq | read _ _ heq | unrefEnd _ _ _ heq | clear _ heq => exact heq ▸ hrefl c
    | other hquiet => exact (hquiet.call c).toSameEntry
  | _ => exact absurd rfl hquiet

theorem emplace_cases {s s' : State κ} {c : κ} (hstep : step s (.emplace c) = some s') :
    (s.call c).pc = .notifySet ∧
      s' = { s.setPc c .inserted with
        pendingMessages :=
          OrderedMap.emplace addressLess c (s.call c).kind.hasCallback s.pendingMessages } := by
  simp only [step, Option.ite_none_right_eq_some, Option.some.injEq] at hstep
  exact ⟨hstep.1, hstep.2.symm⟩

/-- Only the step that puts an entry into the map makes it longer. -/
theorem pendingMessages_sublist {s s' : State κ} {a : Label κ} (h : Inv s)
    (ha : ∀ c, a ≠ .emplace c) (hstep : step s a = some s') :
    s'.pendingMessages.Sublist s.pendingMessages := by
  by_cases hquiet : a.isQuiet = true
  · rw [(quietStep_of_step h.consistent hquiet hstep).pendingMessages]
  cases a with
  | emplace c' => exact absurd rfl (ha c')
  | findEntry =>
    obtain ⟨c', -, ⟨-, rfl⟩ | ⟨callback, -, rfl⟩⟩ := findEntry_cases hstep
    · exact .refl _
    · exact List.filter_sublist
  | releaseCall =>
    obtain ⟨c', callback, -, rfl⟩ := releaseCall_cases hstep
    exact .refl _
  | runCallback =>
    obtain ⟨c', -, rfl⟩ := runCallback_cases hstep
    exact .refl _
  | stopDispatcher =>
    simp only [step, Option.ite_none_right_eq_some, Option.some.injEq] at hstep
    obtain ⟨-, rfl⟩ := hstep
    exact .refl _
  | teardown =>
    cases teardownMove_of_step h hstep with
    | advance _ _ _ _ heq | read _ _ heq | unref _ _ heq | unrefEnd _ _ _ heq =>
      subst heq
      exact .refl _
    | clear _ heq =>
      subst heq
      exact List.nil_sublist _
    | other hquiet => rw [hquiet.pendingMessages]
  | _ => exact absurd rfl hquiet

theorem consistent_step {s s' : State κ} {a : Label κ} (h : Inv s) (hstep : step s a = some s')
    (c : κ) : (s'.call c).Consistent := by
  by_cases ha : ∀ c, a ≠ .emplace c
  · exact (sameEntry_of_step h ha hstep c).consistent
  push Not at ha
  obtain ⟨c', rfl⟩ := ha
  obtain ⟨hpc, rfl⟩ := emplace_cases hstep
  have hnotify := h.consistent c' true (by simp [hpc, ClientPc.notified])
  refine forall_setCall (P := fun _ => Call.Consistent) h.consistent ?_ c
  simp [Call.Consistent, ClientPc.notified, hnotify]

theorem stored_step {s s' : State κ} {a : Label κ} (h : Inv s) (hstep : step s a = some s') :
    ∀ entry ∈ s'.pendingMessages,
      (s'.call entry.1).isEmplaced = true ∧ entry.2 = (s'.call entry.1).kind.hasCallback := by
  intro entry hentry
  by_cases ha : ∀ c, a ≠ .emplace c
  · have hold := (pendingMessages_sublist h ha hstep).subset hentry
    obtain ⟨hemplaced, hcallback⟩ := h.stored entry hold
    have hsame := sameEntry_of_step h ha hstep entry.1
    exact ⟨hsame.isEmplaced.trans hemplaced, by rw [hcallback, hsame.kind hemplaced]⟩
  push Not at ha
  obtain ⟨c, rfl⟩ := ha
  obtain ⟨hpc, rfl⟩ := emplace_cases hstep
  have hnotify := h.consistent c true (by simp [hpc, ClientPc.notified])
  obtain rfl | hold := OrderedMap.mem_emplace hentry
  · simp [State.setPc, State.setCall, Call.isEmplaced, hnotify]
  · -- The entry of another call.
    have hne : entry.1 ≠ c := by
      intro heq
      have := (h.stored entry hold).1
      simp [heq, Call.isEmplaced, hpc] at this
    simpa [State.setPc, State.setCall, hne] using h.stored entry hold

theorem teardownStep_connState {s s' : State κ} (h : Inv s) (hstep : teardownStep s = some s') :
    s'.connState = s'.teardown.connState ∧ s'.ctx = s'.teardown.ctx := by
  have hconn := h.connState
  have hctx := h.ctx
  unfold teardownStep at hstep
  grind [TeardownPc.connState, TeardownPc.ctx, State.cancelAll, State.setCall, State.setPc]

theorem teardownStep_dispatch {s s' : State κ} (h : Inv s) (hstep : teardownStep s = some s') :
    s'.dispatch = s.dispatch ∧ (s'.teardown.joined = true → s.dispatch = .finished) := by
  have hjoined := h.joined
  unfold teardownStep at hstep
  grind [TeardownPc.joined, State.cancelAll, State.setCall, State.setPc]

theorem tearsDown_teardownStep {s s' : State κ} (h : Inv s) (hstep : teardownStep s = some s')
    (hdone : s'.teardown ≠ .done) : ∀ c ∈ s'.teardownBy, (s'.call c).pc = .tearsDown := by
  have hold : s.teardown ≠ .done := by
    intro hold
    simp [teardownStep, hold] at hstep
  have hpc := h.tearsDown hold
  cases teardownMove_of_step h hstep with
  | unref c' _ heq =>
    subst heq
    intro c hc
    refine (pc_setCall ?_ c).trans (hpc c hc)
    rfl
  | advance _ _ _ _ heq | read _ _ heq | unrefEnd _ _ _ heq | clear _ heq => exact heq ▸ hpc
  | other _ _ _ _ hby =>
    obtain ⟨hby, hcalls⟩ := hby hdone
    intro c hc
    exact (hcalls c).trans (hpc c (hby ▸ hc))

theorem step_dispatch_finished {s s' : State κ} {a : Label κ} (hstep : step s a = some s')
    (ha : a ≠ .teardown) (hfinished : s.dispatch = .finished) : s'.dispatch = .finished := by
  cases a with
  | teardown => exact absurd rfl ha
  | firstCheck c | check c =>
    simp only [step, isConnected, Option.ite_none_right_eq_some, Option.some.injEq] at hstep
    obtain ⟨-, rfl⟩ := hstep
    split
    · split <;> exact hfinished
    · exact hfinished
  | _ => grind [step, State.beginTeardown, State.setCall, State.setPc]

omit [LinearOrder κ] in
theorem Inv.notStarted {s : State κ} (h : Inv s) (hconnected : s.connState = .connected) :
    s.teardown = .notStarted := by
  have hconn := h.connState
  rw [hconnected] at hconn
  cases hat : s.teardown <;> simp [hat, TeardownPc.connState] at hconn ⊢

omit [LinearOrder κ] in
/-- When the connection is down the dispatch thread has ended. -/
theorem Inv.finished {s : State κ} (h : Inv s) (hdown : s.connState = .disconnected) :
    s.dispatch = .finished := by
  apply h.joined
  have hconn := h.connState
  rw [hdown] at hconn
  cases hat : s.teardown <;> simp [hat, TeardownPc.connState] at hconn
  rfl

/-- A step of another thread than the one in `disconnect_impl` leaves the connection as it
    is or begins the teardown. -/
theorem step_control {s s' : State κ} {a : Label κ} (hstep : step s a = some s')
    (ha : a ≠ .teardown) :
    (s'.teardown = s.teardown ∧ s'.connState = s.connState ∧ s'.ctx = s.ctx ∧
        s'.teardownBy = s.teardownBy) ∨
      (s.connState = .connected ∧ s'.teardown = .atTestBus ∧ s'.connState = .disconnecting ∧
        s'.ctx = s.ctx ∧ ∀ c ∈ s'.teardownBy, (s'.call c).pc = .tearsDown) := by
  cases a with
  | teardown => exact absurd rfl ha
  | firstCheck c | check c =>
    simp only [step, isConnected, Option.ite_none_right_eq_some, Option.some.injEq] at hstep
    obtain ⟨-, rfl⟩ := hstep
    split
    case isFalse => exact .inl ⟨rfl, rfl, rfl, rfl⟩
    case isTrue hconnected =>
      split
      · exact .inl ⟨rfl, rfl, rfl, rfl⟩
      · refine .inr ⟨hconnected, rfl, rfl, rfl, ?_⟩
        rintro _ ⟨⟩
        simp [State.beginTeardown, State.setPc, State.setCall]
  | disconnect =>
    simp only [step, Option.ite_none_right_eq_some, Option.some.injEq] at hstep
    obtain ⟨hconnected, rfl⟩ := hstep
    exact .inr ⟨hconnected, rfl, rfl, rfl, nofun⟩
  | _ =>
    left
    grind [step, State.setCall, State.setPc]

theorem inv_step {s s' : State κ} {a : Label κ} (h : Inv s) (hstep : step s a = some s') :
    Inv s' := by
  by_cases ha : a = .teardown
  · subst ha
    obtain ⟨hconn, hctx⟩ := teardownStep_connState h hstep
    obtain ⟨hdispatch, hjoined⟩ := teardownStep_dispatch h hstep
    exact
      { connState := hconn
        ctx := hctx
        joined := fun hj => hdispatch.trans (hjoined hj)
        tearsDown := tearsDown_teardownStep h hstep
        consistent := consistent_step h hstep
        stored := stored_step h hstep }
  · refine ⟨?_, ?_, ?_, ?_, consistent_step h hstep, stored_step h hstep⟩ <;>
      obtain ⟨hteardown, hconn, hctx, hby⟩ | ⟨hconnected, hteardown, hconn, hctx, hby⟩ :=
        step_control hstep ha
    · rw [hconn, hteardown, h.connState]
    · rw [hconn, hteardown]
      rfl
    · rw [hctx, hteardown, h.ctx]
    · rw [hctx, hteardown, h.ctx, h.notStarted hconnected]
      rfl
    · rw [hteardown]
      exact fun hj => step_dispatch_finished hstep ha (h.joined hj)
    · simp [hteardown, TeardownPc.joined]
    · rw [hteardown, hby]
      exact fun hdone c hc => tearsDown_step hstep ha (h.tearsDown hdone c hc)
    · exact fun _ => hby

omit [LinearOrder κ] in
theorem inv_initial (privateConnection : Bool) : Inv (initial privateConnection : State κ) where
  connState := rfl
  ctx := rfl
  joined := nofun
  tearsDown _ := nofun
  consistent _ := by simp [initial, Call.Consistent, ClientPc.notified]
  stored := nofun

theorem inv_of_reachableWhen {allowed : State κ → Label κ → Prop} {s : State κ}
    (h : (system κ).ReachableWhen allowed s) : Inv s := by
  apply h.invariant
  case initial =>
    rintro _ ⟨privateConnection, rfl⟩
    exact inv_initial privateConnection
  case preserved => exact fun _ _ _ hinv _ hstep => inv_step hinv hstep

theorem equiv_addressLess {a b : κ} : OrderedMap.equiv addressLess a b = true ↔ a = b := by
  simp only [OrderedMap.equiv, addressLess, Bool.and_eq_true, Bool.not_eq_true',
    decide_eq_false_iff_not, not_lt]
  exact and_comm.trans le_antisymm_iff.symm

/-- There is no entry yet when the client puts its own into the map. -/
theorem mem_emplaced {s : State κ} {c : κ} {callback : Bool} (h : Inv s)
    (hpc : (s.call c).pc = .notifySet) {entry : κ × Bool} :
    entry ∈ OrderedMap.emplace addressLess c callback s.pendingMessages ↔
      entry = (c, callback) ∨ entry ∈ s.pendingMessages := by
  rw [(OrderedMap.emplace_perm callback fun entry hentry => ?_).mem_iff, List.mem_cons]
  rw [Bool.eq_false_iff, Ne, equiv_addressLess]
  intro heq
  have := (h.stored entry hentry).1
  simp [heq, Call.isEmplaced, hpc] at this

end Ultrabus.Teardown
