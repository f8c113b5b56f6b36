import Ultrabus.Connection.TeardownSteps

/-! # Clients of a connection that is torn down

When a client may still use the connection that `disconnect_impl` releases, and when it
leaves a thread in `send_and_wait` behind. -/

namespace Ultrabus.Teardown

variable {κ : Type} [LinearOrder κ]

/-! ## Use of a connection that is torn down -/

/-- The call hands `ctx` to libdbus. -/
def Label.handsOver : Label κ → Bool
  | .sendPlain _ _ | .sendWithReply _ _ => true
  | _ => false

/-- The thread is in `send`. -/
def ClientPc.inSend : ClientPc → Bool
  | .atCheck | .tearsDown | .atSend | .atLock | .locked | .sent | .notifySet | .inserted => true
  | _ => false

/-- `ctx` is never handed over after it is released, and a connection that is down has no
    pending messages. -/
structure UsedWhileUp (s : State κ) : Prop where
  handsOver : ∀ a s', a.handsOver = true → step s a = some s' → s.ctx = .live
  pendingMessages : s.connState = .disconnected → (∀ c, (s.call c).pc.inSend = false) →
    s.pendingMessages = []

/-- `ctx` is released only when no client is between `is_connected` and handing it over, and
    the dispatch thread ends only when the map is empty and stays so. -/
def NoLateClient (s : State κ) : Label κ → Prop
  | .teardown => s.teardown = .atUnrefCtx → ∀ c, (s.call c).pc.handsOver = false
  | .stopDispatcher => s.pendingMessages = []
  | .emplace _ => s.dispatch ≠ .finished
  | _ => True

theorem live_of_handsOver {s s' : State κ} {a : Label κ}
    (h : s.ctx ≠ .live → ∀ c, (s.call c).pc.handsOver = false) (ha : a.handsOver = true)
    (hstep : step s a = some s') : s.ctx = .live := by
  by_contra hctx
  cases a with
  | sendPlain c result =>
    simp only [step, Option.ite_none_right_eq_some] at hstep
    have := h hctx c
    simp [hstep.1, ClientPc.handsOver] at this
  | sendWithReply c result =>
    simp only [step, Option.ite_none_right_eq_some] at hstep
    have := h hctx c
    simp [hstep.1.1, ClientPc.handsOver] at this
  | _ => cases ha

/-- Only one step of `disconnect_impl` makes a `ctx` that is live something else. -/
theorem atUnrefCtx_of_live {s s' : State κ} {a : Label κ} (h : Inv s)
    (hstep : step s a = some s') (hlive : s.ctx = .live) (hctx : s'.ctx ≠ .live) :
    a = .teardown ∧ s.teardown = .atUnrefCtx := by
  by_cases ha : a = .teardown
  · subst ha
    refine ⟨rfl, ?_⟩
    have hat := h.ctx
    change teardownStep s = some s' at hstep
    unfold teardownStep at hstep
    grind [TeardownPc.ctx, State.cancelAll, State.setCall, State.setPc]
  · have hsame : s'.ctx = s.ctx := by
      obtain ⟨-, -, hctx, -⟩ | ⟨-, -, -, hctx, -⟩ := step_control hstep ha <;> exact hctx
    exact absurd (hsame.trans hlive) hctx

theorem noHandsOver_step {s s' : State κ} {a : Label κ} (hinv : Inv s)
    (h : s.ctx ≠ .live → ∀ c, (s.call c).pc.handsOver = false) (hallowed : NoLateClient s a)
    (hstep : step s a = some s') (hctx : s'.ctx ≠ .live) (c : κ) :
    (s'.call c).pc.handsOver = false := by
  have hold : ∀ c, (s.call c).pc.handsOver = false := by
    by_cases hlive : s.ctx = .live
    · obtain ⟨rfl, hat⟩ := atUnrefCtx_of_live hinv hstep hlive hctx
      exact hallowed hat
    · exact h hlive
  by_cases ha : ∀ c, a ≠ .emplace c
  · rw [Bool.eq_false_iff]
    intro hover
    obtain hover | hconnected := (sameEntry_of_step hinv ha hstep c).handsOver hover
    · simp [hold c] at hover
    · -- The client finds the connection up, so that no teardown has begun.
      have hlive : s.ctx = .live := by rw [hinv.ctx, hinv.notStarted hconnected]; rfl
      obtain ⟨rfl, hat⟩ := atUnrefCtx_of_live hinv hstep hlive hctx
      simp [hinv.notStarted hconnected] at hat
  · push Not at ha
    obtain ⟨c', rfl⟩ := ha
    obtain ⟨-, rfl⟩ := emplace_cases hstep
    exact forall_setCall (P := fun _ k => k.pc.handsOver = false) hold rfl c

theorem finished_cases {s s' : State κ} {a : Label κ} (h : Inv s) (hstep : step s a = some s')
    (hfinished : s'.dispatch = .finished) : s.dispatch = .finished ∨ a = .stopDispatcher := by
  by_cases hquiet : a.isQuiet = true
  · have hsame := (quietStep_of_step h.consistent hquiet hstep).disposal
    rw [hfinished] at hsame
    left
    cases hat : s.dispatch <;> simp [hat, DispatchPc.disposal] at hsame ⊢
  cases a with
  | stopDispatcher => exact .inr rfl
  | teardown =>
    rw [(teardownStep_dispatch h hstep).1] at hfinished
    exact .inl hfinished
  | emplace c =>
    obtain ⟨-, rfl⟩ := emplace_cases hstep
    exact .inl hfinished
  | findEntry =>
    obtain ⟨c, -, ⟨-, rfl⟩ | ⟨callback, -, rfl⟩⟩ := findEntry_cases hstep <;> cases hfinished
  | releaseCall =>
    obtain ⟨c, callback, -, rfl⟩ := releaseCall_cases hstep
    cases callback <;> cases hfinished
  | runCallback =>
    obtain ⟨c, -, rfl⟩ := runCallback_cases hstep
    cases hfinished
  | _ => exact absurd rfl hquiet

theorem pendingMessages_nil_step {s s' : State κ} {a : Label κ} (hinv : Inv s)
    (h : s.dispatch = .finished → s.pendingMessages = []) (hallowed : NoLateClient s a)
    (hstep : step s a = some s') (hfinished : s'.dispatch = .finished) :
    s'.pendingMessages = [] := by
  have hold : s.pendingMessages = [] := by
    obtain hold | rfl := finished_cases hinv hstep hfinished
    · exact h hold
    · exact hallowed
  have ha : ∀ c, a ≠ .emplace c := by
    rintro c rfl
    obtain ⟨-, rfl⟩ := emplace_cases hstep
    exact hallowed hfinished
  have hsublist := pendingMessages_sublist hinv ha hstep
  rw [hold] at hsublist
  exact List.sublist_nil.mp hsublist

/-- In every run without late clients no client uses a connection that is torn down. -/
theorem usedWhileUp_of_noLateClient {s : State κ}
    (h : (system κ).ReachableWhen NoLateClient s) : UsedWhileUp s := by
  have hover : s.ctx ≠ .live → ∀ c, (s.call c).pc.handsOver = false := by
    apply h.invariant_over fun _ => inv_of_reachableWhen
    case initial =>
      rintro _ ⟨privateConnection, rfl⟩
      exact fun hctx => absurd rfl hctx
    case preserved => exact fun _ _ _ => noHandsOver_step
  have hnil : s.dispatch = .finished → s.pendingMessages = [] := by
    apply h.invariant_over fun _ => inv_of_reachableWhen
    case initial =>
      rintro _ ⟨privateConnection, rfl⟩
      exact nofun
    case preserved => exact fun _ _ _ => pendingMessages_nil_step
  exact ⟨fun a s' ha hstep => live_of_handsOver hover ha hstep,
    fun hdown _ => hnil ((inv_of_reachableWhen h).finished hdown)⟩

/-- A call is sent, and then the connection is torn down. -/
def sentRun : List (Label Unit) :=
  [.enter () (.withReply true), .check (), .lock (), .sendWithReply () true, .setNotify (),
    .emplace (), .unlock (), .disconnect, .teardown, .teardown, .teardown, .teardown, .teardown,
    .teardown, .teardown, .teardown, .teardown, .teardown, .teardown, .stopDispatcher, .teardown,
    .teardown, .teardown, .teardown]

theorem sentRun_usedWhileUp :
    ∃ s, (system Unit).run (initial false) sentRun = some s ∧ UsedWhileUp s ∧
      s.connState = .disconnected := by
  have hrun : (system Unit).run (initial false) sentRun = some _ := rfl
  refine ⟨_, hrun, usedWhileUp_of_noLateClient
    (TransitionSystem.reachableWhen_of_run sentRun ⟨false, rfl⟩ ?_ hrun), rfl⟩
  refine ⟨trivial, trivial, trivial, trivial, trivial, nofun, trivial, trivial, nofun, nofun, nofun,
    nofun, nofun, nofun, nofun, nofun, nofun, nofun, nofun, rfl, nofun, fun _ _ => rfl, nofun,
    nofun, trivial⟩

/-- The connection is torn down while the client is between `is_connected` and the mutex. -/
def releasedRun : List (Label Unit) :=
  [.enter () (.withReply true), .check (), .disconnect, .teardown, .teardown, .teardown, .teardown,
    .teardown, .teardown, .teardown, .teardown, .stopDispatcher, .teardown, .teardown, .teardown,
    .teardown, .lock ()]

/-- The client sends between the call of `clear` and the release of `ctx`. -/
def lateEntryRun : List (Label Unit) :=
  [.enter () (.withReply true), .check (), .disconnect, .teardown, .teardown, .teardown, .teardown,
    .teardown, .teardown, .lock (), .sendWithReply () true, .setNotify (), .emplace (), .unlock (),
    .teardown, .teardown, .stopDispatcher, .teardown, .teardown, .teardown, .teardown]

theorem lateRuns_not_usedWhileUp :
    (∃ s, (system Unit).Reachable s ∧ s.ctx = .null ∧
        (step s (.sendWithReply () false)).isSome = true ∧ ¬ UsedWhileUp s) ∧
      ∃ s, (system Unit).Reachable s ∧ s.connState = .disconnected ∧
        s.pendingMessages = [((), true)] ∧ ¬ UsedWhileUp s := by
  have hreleased : (system Unit).run (initial false) releasedRun = some _ := rfl
  have hlate : (system Unit).run (initial false) lateEntryRun = some _ := rfl
  refine ⟨⟨_, TransitionSystem.reachable_of_run _ ⟨false, rfl⟩ hreleased, rfl, rfl, ?_⟩,
    ⟨_, TransitionSystem.reachable_of_run _ ⟨false, rfl⟩ hlate, rfl, rfl, ?_⟩⟩
  · intro h
    have hlive := h.handsOver (.sendWithReply () false) _ rfl rfl
    cases hlive
  · intro h
    have hnil := h.pendingMessages rfl fun _ => rfl
    cases hnil

/-! ## Threads that are left waiting -/

/-- The dispatch thread is going to run the callback of the call. -/
def CallbackDue (s : State κ) (c : κ) : Prop :=
  s.dispatch = .found c true ∨ s.dispatch = .released c ∨
    ((s.dispatch = .atLock c ∨ s.dispatch = .locked c) ∧ s.entry c = some true)

/-- The connection is down and the thread waits for a reply callback that will not be run. -/
def Stranded (s : State κ) (c : κ) : Prop :=
  s.connState = .disconnected ∧ (s.call c).kind = .andWait ∧ (s.call c).pc = .waiting ∧
    (s.call c).runs = 0 ∧ ¬ CallbackDue s c

/-- No entry of a `send_and_wait` call is in the map. -/
def NoWaiterStored (s : State κ) : Prop :=
  ∀ entry ∈ s.pendingMessages, (s.call entry.1).kind ≠ .andWait

/-- No entry of a `send_and_wait` call is dropped: there is none in the map when it is cleared
    and when the dispatch thread ends, and none is put in after that. -/
def NoWaiterDropped (s : State κ) : Label κ → Prop
  | .teardown => s.teardown = .atClear → NoWaiterStored s
  | .stopDispatcher => NoWaiterStored s
  | .emplace c => s.dispatch = .finished → (s.call c).kind ≠ .andWait
  | _ => True

/-- The callback of the call has been run or still can be. -/
def Served (s : State κ) (c : κ) : Prop :=
  (s.call c).runs ≠ 0 ∨ s.dispatch = .found c true ∨ s.dispatch = .released c ∨
    ((c, true) ∈ s.pendingMessages ∧ s.dispatch ≠ .finished)

/-- Every `send_and_wait` call whose entry has been put into the map is served. -/
def WaitersServed (s : State κ) : Prop :=
  ∀ c, (s.call c).isEmplaced = true → (s.call c).kind = .andWait → Served s c

theorem runs_ne_zero_setCall {s : State κ} {c c' : κ} {k : Call}
    (hk : (s.call c).runs ≠ 0 → k.runs ≠ 0) (h : (s.call c').runs ≠ 0) :
    ((s.setCall c k).call c').runs ≠ 0 :=
  forall_setCall (P := fun c' k => (s.call c').runs ≠ 0 → k.runs ≠ 0) (fun _ => id) hk c' h

omit [LinearOrder κ] in
theorem served_quietStep {s s' : State κ} {c : κ} (h : Served s c) (hquiet : QuietStep s s') :
    Served s' c := by
  obtain hruns | hfound | hreleased | ⟨hmem, hrunning⟩ := h
  · exact .inl ((hquiet.call c).runs ▸ hruns)
  · right; left
    rw [eq_of_disposal_eq hquiet.disposal (by simp [hfound, DispatchPc.disposal]), hfound]
  · right; right; left
    rw [eq_of_disposal_eq hquiet.disposal (by simp [hreleased, DispatchPc.disposal]), hreleased]
  · refine .inr (.inr (.inr ⟨hquiet.pendingMessages ▸ hmem, fun hfinished => hrunning ?_⟩))
    rw [eq_of_disposal_eq hquiet.disposal.symm (by simp [hfinished, DispatchPc.disposal]),
      hfinished]

/-- A call whose entry is in the map is served after every step but those that drop it. -/
theorem served_step {s s' : State κ} {a : Label κ} {c : κ} (hinv : Inv s)
    (hallowed : NoWaiterDropped s a) (hkind : (s.call c).kind = .andWait) (h : Served s c)
    (hstep : step s a = some s') : Served s' c := by
  by_cases hquiet : a.isQuiet = true
  · exact served_quietStep h (quietStep_of_step hinv.consistent hquiet hstep)
  cases a with
  | emplace c' =>
    obtain ⟨hpc, rfl⟩ := emplace_cases hstep
    obtain hruns | hfound | hreleased | ⟨hmem, hrunning⟩ := h
    · left
      refine runs_ne_zero_setCall ?_ hruns
      exact id
    · exact .inr (.inl hfound)
    · exact .inr (.inr (.inl hreleased))
    · exact .inr (.inr (.inr ⟨(mem_emplaced hinv hpc).mpr (.inr hmem), hrunning⟩))
  | findEntry =>
    obtain ⟨c', hlocked, hentry⟩ := findEntry_cases hstep
    obtain hruns | hfound | hreleased | ⟨hmem, hrunning⟩ := h
    · obtain ⟨-, rfl⟩ | ⟨callback, -, rfl⟩ := hentry <;> exact .inl hruns
    · simp [hlocked] at hfound
    · simp [hlocked] at hreleased
    · obtain ⟨-, rfl⟩ | ⟨callback, hentry, rfl⟩ := hentry
      · exact .inr (.inr (.inr ⟨hmem, by simp⟩))
      · by_cases heq : c = c'
        · -- The stored callback is the one of `send_and_wait`.
          subst heq
          have hcallback := (hinv.stored _ (mem_of_entry hentry)).2
          rw [hkind] at hcallback
          exact .inr (.inl (congrArg (DispatchPc.found c) hcallback))
        · exact .inr (.inr (.inr ⟨by simp [hmem, heq], by simp⟩))
  | releaseCall =>
    obtain ⟨c', callback, hat, rfl⟩ := releaseCall_cases hstep
    obtain hruns | hfound | hreleased | ⟨hmem, hrunning⟩ := h
    · left
      refine runs_ne_zero_setCall ?_ hruns
      exact id
    · obtain ⟨rfl, rfl⟩ := DispatchPc.found.inj (hat.symm.trans hfound)
      exact .inr (.inr (.inl rfl))
    · simp [hat] at hreleased
    · refine .inr (.inr (.inr ⟨hmem, ?_⟩))
      cases callback <;> simp
  | runCallback =>
    obtain ⟨c', hat, rfl⟩ := runCallback_cases hstep
    obtain hruns | hfound | hreleased | ⟨hmem, hrunning⟩ := h
    · left
      refine runs_ne_zero_setCall ?_ hruns
      exact fun _ => Nat.succ_ne_zero _
    · simp [hat] at hfound
    · obtain rfl := DispatchPc.released.inj (hat.symm.trans hreleased)
      left
      simp [State.setCall]
    · exact .inr (.inr (.inr ⟨hmem, by simp⟩))
  | stopDispatcher =>
    simp only [step, Option.ite_none_right_eq_some, Option.some.injEq] at hstep
    obtain ⟨⟨hidle, -⟩, rfl⟩ := hstep
    obtain hruns | hfound | hreleased | ⟨hmem, hrunning⟩ := h
    · exact .inl hruns
    · simp [hidle] at hfound
    · simp [hidle] at hreleased
    · exact absurd hkind (hallowed _ hmem)
  | teardown =>
    cases teardownMove_of_step hinv hstep with
    | unref c' hat heq =>
      subst heq
      refine h.imp_left fun hruns => ?_
      refine runs_ne_zero_setCall ?_ hruns
      exact id
    | advance _ _ _ _ heq | read _ _ heq | unrefEnd _ _ _ heq => exact heq ▸ h
    | clear hat heq =>
      subst heq
      obtain hruns | hfound | hreleased | ⟨hmem, hrunning⟩ := h
      · exact .inl hruns
      · exact .inr (.inl hfound)
      · exact .inr (.inr (.inl hreleased))
      · exact absurd hkind (hallowed hat _ hmem)
    | other hquiet => exact served_quietStep h hquiet
  | _ => exact absurd rfl hquiet

theorem waitersServed_step {s s' : State κ} {a : Label κ} (hinv : Inv s) (h : WaitersServed s)
    (hallowed : NoWaiterDropped s a) (hstep : step s a = some s') : WaitersServed s' := by
  intro c hemplaced hkind
  by_cases ha : ∀ c', a ≠ .emplace c'
  · have hsame := sameEntry_of_step hinv ha hstep c
    rw [hsame.isEmplaced] at hemplaced
    rw [hsame.kind hemplaced] at hkind
    exact served_step hinv hallowed hkind (h c hemplaced hkind) hstep
  push Not at ha
  obtain ⟨c', rfl⟩ := ha
  obtain ⟨hpc, rfl⟩ := emplace_cases hstep
  by_cases heq : c = c'
  · subst heq
    have hkind : (s.call c).kind = .andWait := by simpa [State.setPc, State.setCall] using hkind
    refine .inr (.inr (.inr ⟨?_, fun hfinished => hallowed hfinished hkind⟩))
    exact (mem_emplaced hinv hpc).mpr (.inl (by rw [hkind]; rfl))
  · simp only [State.setPc, State.setCall, Function.update_of_ne heq] at hemplaced hkind
    exact served_step hinv hallowed hkind (h c hemplaced hkind) hstep

/-- In every run in which no entry of a `send_and_wait` call is dropped, no thread is left
    waiting when the connection is down. -/
theorem not_stranded_of_noWaiterDropped {s : State κ} {c : κ}
    (h : (system κ).ReachableWhen NoWaiterDropped s) : ¬ Stranded s c := by
  have hinv := inv_of_reachableWhen h
  have hserved : WaitersServed s := by
    apply h.invariant_over fun _ => inv_of_reachableWhen
    case initial =>
      rintro _ ⟨privateConnection, rfl⟩
      exact fun _ => nofun
    case preserved => exact fun _ _ _ => waitersServed_step
  rintro ⟨hdown, hkind, hwaiting, hruns, -⟩
  have hfinished := hinv.finished hdown
  have hnotify := hinv.consistent c true (by simp [hwaiting, ClientPc.notified])
  have hemplaced : (s.call c).isEmplaced = true := by simp [Call.isEmplaced, hnotify, hwaiting]
  obtain hran | hfound | hreleased | ⟨-, hrunning⟩ := hserved c hemplaced hkind
  · exact hran hruns
  · simp [hfinished] at hfound
  · simp [hfinished] at hreleased
  · exact hrunning hfinished

/-- The reply of a `send_and_wait` call is dispatched while the connection is torn down. -/
def answeredRun : List (Label Unit) :=
  [.enter () .andWait, .firstCheck (), .check (), .lock (), .sendWithReply () true, .setNotify (),
    .emplace (), .unlock (), .complete (), .lockPending, .disconnect, .findEntry, .teardown,
    .teardown, .teardown, .teardown, .teardown, .teardown, .teardown, .teardown, .releaseCall,
    .runCallback, .stopDispatcher, .teardown, .teardown, .teardown, .teardown]

theorem answeredRun_not_stranded :
    ∃ s, (system Unit).run (initial false) answeredRun = some s ∧ ¬ Stranded s () ∧
      s.connState = .disconnected ∧ (s.call ()).pc = .waiting := by
  have hrun : (system Unit).run (initial false) answeredRun = some _ := rfl
  refine ⟨_, hrun, not_stranded_of_noWaiterDropped
    (TransitionSystem.reachableWhen_of_run answeredRun ⟨false, rfl⟩ ?_ hrun), rfl, rfl⟩
  refine ⟨trivial, trivial, trivial, trivial, trivial, trivial, nofun, trivial, trivial, trivial,
    trivial, trivial, nofun, nofun, nofun, nofun, nofun, fun _ => nofun, nofun, nofun, trivial,
    trivial, nofun, nofun, nofun, nofun, nofun, trivial⟩

/-- The connection is torn down before the reply comes. -/
def unansweredRun : List (Label Unit) :=
  [.enter () .andWait, .firstCheck (), .check (), .lock (), .sendWithReply () true, .setNotify (),
    .emplace (), .unlock (), .disconnect, .teardown, .teardown, .teardown, .teardown, .teardown,
    .teardown, .teardown, .teardown, .teardown, .teardown, .teardown, .stopDispatcher, .teardown,
    .teardown, .teardown, .teardown]

theorem unansweredRun_stranded : ∃ s, (system Unit).Reachable s ∧ Stranded s () := by
  have hrun : (system Unit).run (initial false) unansweredRun = some _ := rfl
  refine ⟨_, TransitionSystem.reachable_of_run _ ⟨false, rfl⟩ hrun, rfl, rfl, rfl, rfl, ?_⟩
  rintro (hfound | hreleased | ⟨hat | hat, -⟩)
  · cases hfound
  · cases hreleased
  · cases hat
  · cases hat

end Ultrabus.Teardown
