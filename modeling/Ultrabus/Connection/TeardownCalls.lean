import Ultrabus.Connection.TeardownSteps

/-! # Releasing the pending calls

The dispatch thread in `on_pending_call` and `disconnect_impl` both release the calls in
`pending_messages`, each in its own way.  For each call an account says how many references
are given back and how many still have to be. -/

namespace Ultrabus.Teardown

variable {κ : Type} [LinearOrder κ]

def State.stored (s : State κ) (c : κ) : Bool := (s.entry c).isSome

/-- The dispatch thread has taken the entry of the call and still has to release it. -/
def DispatchPc.owes : DispatchPc κ → κ → Bool
  | .found c' _, c => c' = c
  | _, _ => false

/-- The dispatch thread still may run the callback of the call. -/
def DispatchPc.mayRun : DispatchPc κ → κ → Bool
  | .found c' _, c | .released c', c => c' = c
  | _, _ => false

/-- The account of a call: the references that are given back, the one in the map that
    `disconnect_impl` will give back and the one that the dispatch thread has taken out make
    up the one that was put into the map, and so do the runs of the callback. -/
def State.Balanced (s : State κ) (c : κ) : Prop :=
  (s.call c).unrefs + (s.stored c && !s.teardown.passed c).toNat + (s.dispatch.owes c).toNat =
      (s.call c).isEmplaced.toNat ∧
    (s.call c).runs + (s.stored c).toNat + (s.dispatch.mayRun c).toNat ≤
      (s.call c).isEmplaced.toNat

structure Accounts (s : State κ) : Prop where
  sorted : OrderedMap.Sorted addressLess s.pendingMessages
  -- the entry at which the loop is has not been erased
  current : ∀ c ∈ s.teardown.current, s.stored c = true
  balanced : ∀ c, s.Balanced c

/-- Each call is released once, and no callback starts when `disconnect` has returned. -/
structure ReleasedOnce (s : State κ) : Prop where
  runs : ∀ c, (s.call c).runs ≤ 1
  unrefs : ∀ c, (s.call c).unrefs ≤ 1
  released : s.teardown = .done → ∀ c, (s.call c).isEmplaced = true → (s.call c).unrefs = 1
  noCallback : s.teardown = .done → step s .runCallback = none

/-- All entries are put into the map before the connection is torn down, and the dispatch
    thread finds none that the loop of `dbus_pending_call_unref` has come to. -/
def NotFoundBehind (s : State κ) : Label κ → Prop
  | .emplace _ => s.teardown = .notStarted
  | .findEntry => ∀ c, s.dispatch = .locked c → s.stored c = true → s.teardown.reached c = false
  | _ => True

theorem stored_iff {s : State κ} {c : κ} :
    s.stored c = true ↔ ∃ callback, (c, callback) ∈ s.pendingMessages := by
  simp [State.stored, State.entry, and_comm]

theorem strictWeakOn_addressLess :
    OrderedMap.StrictWeakOn (addressLess : κ → κ → Bool) fun _ => True :=
  .of_rank id fun a b _ _ => by simp [addressLess]

/-! ## The loop of `disconnect_impl` -/

theorem all_less_eq_not_passed (pos : Option κ) (c : κ) :
    (pos.all fun last => last < c) = !(TeardownPc.atUnref pos).passed c := by
  cases pos <;> simp [TeardownPc.passed, ← not_le]

/-- The loop goes to the least entry that it has not passed. -/
theorem nextEntry_eq_some {s : State κ} (hsorted : OrderedMap.Sorted addressLess s.pendingMessages)
    {pos : Option κ} {c : κ} (h : s.nextEntry pos = some c) :
    s.stored c = true ∧ (TeardownPc.atUnref pos).passed c = false ∧
      ∀ c', s.stored c' = true → (TeardownPc.atUnref pos).passed c' = false → c ≤ c' := by
  simp only [State.nextEntry, all_less_eq_not_passed, Option.map_eq_some_iff,
    List.find?_eq_some_iff_append] at h
  obtain ⟨⟨key, callback⟩, ⟨hpos, before, rest, hitems, hbefore⟩, rfl⟩ := h
  refine ⟨stored_iff.mpr ⟨callback, by simp [hitems]⟩, by simpa using hpos, ?_⟩
  intro c' hstored hahead
  obtain ⟨callback', hmem⟩ := stored_iff.mp hstored
  rw [hitems] at hmem
  rw [hitems] at hsorted
  obtain hmem | hmem := List.mem_append.mp hmem
  · have hseen := hbefore _ hmem
    simp [hahead] at hseen
  · obtain heq | hmem := List.mem_cons.mp hmem
    · exact (congrArg Prod.fst heq).ge
    · have hrest := (List.pairwise_append.mp hsorted).2.1
      have hless := (List.pairwise_cons.mp hrest).1 _ hmem
      exact (of_decide_eq_true hless).le

theorem passed_of_nextEntry_eq_none {s : State κ} {pos : Option κ} (h : s.nextEntry pos = none)
    {c : κ} (hstored : s.stored c = true) : (TeardownPc.atUnref pos).passed c = true := by
  obtain ⟨callback, hmem⟩ := stored_iff.mp hstored
  simp only [State.nextEntry, all_less_eq_not_passed, Option.map_eq_none_iff,
    List.find?_eq_none] at h
  simpa using h _ hmem

/-- Going to the next entry releases none. -/
theorem passed_nextEntry {s : State κ} (hsorted : OrderedMap.Sorted addressLess s.pendingMessages)
    {pos : Option κ} {c c' : κ} (h : s.nextEntry pos = some c) (hstored : s.stored c' = true) :
    (TeardownPc.atRead c).passed c' = (TeardownPc.atUnref pos).passed c' := by
  obtain ⟨-, hahead, hleast⟩ := nextEntry_eq_some hsorted h
  cases hpassed : (TeardownPc.atUnref pos).passed c' with
  | false =>
    have hle : c ≤ c' := hleast c' hstored hpassed
    simpa [TeardownPc.passed] using hle
  | true =>
    cases pos with
    | none => cases hpassed
    | some last =>
      simp only [TeardownPc.passed, Option.any_some, decide_eq_true_eq] at hpassed ⊢
      simp only [TeardownPc.passed, Option.any_some, decide_eq_false_iff_not, not_le] at hahead
      exact hpassed.trans_lt hahead

theorem passed_unrefCall {c c' : κ} (hne : c' ≠ c) :
    (TeardownPc.atUnref (some c)).passed c' = (TeardownPc.atUnrefCall c).passed c' := by
  simp [TeardownPc.passed, le_iff_lt_or_eq, hne]

/-! ## What a step does to the account of a call -/

theorem sorted_step {s s' : State κ} {a : Label κ} (hinv : Inv s)
    (h : OrderedMap.Sorted addressLess s.pendingMessages) (hstep : step s a = some s') :
    OrderedMap.Sorted addressLess s'.pendingMessages := by
  by_cases ha : ∀ c, a ≠ .emplace c
  · exact h.sublist (pendingMessages_sublist hinv ha hstep)
  push Not at ha
  obtain ⟨c, rfl⟩ := ha
  obtain ⟨-, rfl⟩ := emplace_cases hstep
  exact h.emplace strictWeakOn_addressLess trivial fun _ _ => trivial

theorem owes_disposal (d : DispatchPc κ) (c : κ) : d.disposal.owes c = d.owes c := by
  cases d <;> rfl

theorem mayRun_disposal (d : DispatchPc κ) (c : κ) : d.disposal.mayRun c = d.mayRun c := by
  cases d <;> rfl

theorem stored_congr {s s' : State κ} (h : s'.pendingMessages = s.pendingMessages) (c : κ) :
    s'.stored c = s.stored c := by
  simp only [State.stored, State.entry, h]

theorem stored_emplace {s s' : State κ} {c : κ} {callback : Bool} (hinv : Inv s)
    (hpc : (s.call c).pc = .notifySet)
    (h : s'.pendingMessages = OrderedMap.emplace addressLess c callback s.pendingMessages)
    (c' : κ) :
    s'.stored c' = (decide (c' = c) || s.stored c') := by
  rw [Bool.eq_iff_iff, Bool.or_eq_true, decide_eq_true_eq, stored_iff, stored_iff, h]
  simp [mem_emplaced hinv hpc, exists_or]

theorem stored_filter {s s' : State κ} {c : κ}
    (h : s'.pendingMessages = s.pendingMessages.filter fun entry => entry.1 ≠ c) (c' : κ) :
    s'.stored c' = (s.stored c' && decide (c' ≠ c)) := by
  rw [Bool.eq_iff_iff, Bool.and_eq_true, decide_eq_true_eq, stored_iff, stored_iff, h]
  simp

/-- The account of a call that a step does not touch. -/
theorem Balanced.of_eq {s s' : State κ} {c : κ} (h : s.Balanced c)
    (hunrefs : (s'.call c).unrefs = (s.call c).unrefs) (hruns : (s'.call c).runs = (s.call c).runs)
    (hemplaced : (s'.call c).isEmplaced = (s.call c).isEmplaced)
    (hstored : s'.stored c = s.stored c)
    (hpassed : s.stored c = true → s'.teardown.passed c = s.teardown.passed c)
    (howes : s'.dispatch.owes c = s.dispatch.owes c)
    (hmayRun : s'.dispatch.mayRun c = s.dispatch.mayRun c) : s'.Balanced c := by
  unfold State.Balanced
  rw [hunrefs, hruns, hemplaced, hstored, howes, hmayRun]
  cases hin : s.stored c with
  | false => simpa [State.Balanced, hin] using h
  | true =>
    rw [hpassed hin]
    simpa [State.Balanced, hin] using h

theorem Balanced.of_call_eq {s s' : State κ} {c : κ} (h : s.Balanced c)
    (hcall : s'.call c = s.call c) (hstored : s'.stored c = s.stored c)
    (hpassed : s.stored c = true → s'.teardown.passed c = s.teardown.passed c)
    (howes : s'.dispatch.owes c = s.dispatch.owes c)
    (hmayRun : s'.dispatch.mayRun c = s.dispatch.mayRun c) : s'.Balanced c :=
  Balanced.of_eq h (by rw [hcall]) (by rw [hcall]) (by rw [hcall]) hstored hpassed howes hmayRun

theorem balanced_quietStep {s s' : State κ} {c : κ} (h : s.Balanced c) (hquiet : QuietStep s s')
    (hpassed : s'.teardown.passed = s.teardown.passed) : s'.Balanced c := by
  have hcall := hquiet.call c
  refine Balanced.of_eq h hcall.unrefs hcall.runs hcall.isEmplaced
    (stored_congr hquiet.pendingMessages c) (fun _ => by rw [hpassed]) ?_ ?_
  · rw [← owes_disposal, hquiet.disposal, owes_disposal]
  · rw [← mayRun_disposal, hquiet.disposal, mayRun_disposal]

theorem balanced_emplace {s s' : State κ} {c : κ} (hinv : Inv s) (h : ∀ c, s.Balanced c)
    (hallowed : s.teardown = .notStarted) (hstep : step s (.emplace c) = some s') (c' : κ) :
    s'.Balanced c' := by
  obtain ⟨hpc, hs'⟩ := emplace_cases hstep
  have hstored := stored_emplace hinv hpc (congrArg State.pendingMessages hs') c'
  by_cases heq : c' = c
  · subst heq
    have hnotify := hinv.consistent c' true (by simp [hpc, ClientPc.notified])
    obtain ⟨hrefs, hruns⟩ := h c'
    have hcall : s'.call c' = { s.call c' with pc := .inserted } := by
      rw [hs']
      exact Function.update_self _ _ _
    have hdispatch : s'.dispatch = s.dispatch := by rw [hs']; rfl
    have hteardown : s'.teardown = .notStarted := by rw [hs']; exact hallowed
    -- Nothing is booked before the entry is put into the map.
    simp [Call.isEmplaced, hpc, hallowed, TeardownPc.passed] at hrefs hruns
    simp [State.Balanced, hcall, hstored, hdispatch, hteardown, Call.isEmplaced, hnotify,
      TeardownPc.passed, hrefs, hruns]
  · refine Balanced.of_call_eq (h c') ?_ (by simp [hstored, heq]) ?_ ?_ ?_ <;> rw [hs']
    · exact Function.update_of_ne heq _ _
    · exact fun _ => rfl
    · rfl
    · rfl

theorem balanced_findEntry {s s' : State κ} (h : ∀ c, s.Balanced c)
    (hallowed : NotFoundBehind s .findEntry) (hstep : step s .findEntry = some s') (c' : κ) :
    s'.Balanced c' := by
  obtain ⟨c, hlocked, ⟨-, rfl⟩ | ⟨callback, hentry, hs'⟩⟩ := findEntry_cases hstep
  · refine Balanced.of_call_eq (h c') rfl rfl (fun _ => rfl) ?_ ?_ <;> rw [hlocked] <;> rfl
  have hstored := stored_filter (congrArg State.pendingMessages hs') c'
  by_cases heq : c' = c
  · subst heq
    have hin : s.stored c' = true := by simp [State.stored, hentry]
    have hahead : s.teardown.passed c' = false :=
      (Bool.or_eq_false_iff.mp (hallowed c' hlocked hin)).1
    obtain ⟨hrefs, hruns⟩ := h c'
    simp [hlocked, hin, hahead, DispatchPc.owes, DispatchPc.mayRun] at hrefs hruns
    rw [State.Balanced, hstored, hs']
    simp [DispatchPc.owes, DispatchPc.mayRun, hrefs, hruns]
  · refine Balanced.of_call_eq (h c') (by rw [hs']) (by simp [hstored, heq]) ?_ ?_ ?_
    · rw [hs']
      exact fun _ => rfl
    · simp [hs', hlocked, DispatchPc.owes, Ne.symm heq]
    · simp [hs', hlocked, DispatchPc.mayRun, Ne.symm heq]

theorem balanced_releaseCall {s s' : State κ} (h : ∀ c, s.Balanced c)
    (hstep : step s .releaseCall = some s') (c' : κ) : s'.Balanced c' := by
  obtain ⟨c, callback, hfound, hs'⟩ := releaseCall_cases hstep
  by_cases heq : c' = c
  · subst heq
    obtain ⟨hrefs, hruns⟩ := h c'
    have hcall : s'.call c' = { s.call c' with unrefs := (s.call c').unrefs + 1 } := by
      rw [hs']
      exact Function.update_self _ _ _
    have hemplaced : (s'.call c').isEmplaced = (s.call c').isEmplaced := by rw [hcall]; rfl
    have hstored : s'.stored c' = s.stored c' := by rw [hs']; rfl
    have hteardown : s'.teardown = s.teardown := by rw [hs']; rfl
    have hdispatch : s'.dispatch = if callback then .released c' else .idle := by rw [hs']
    simp only [hfound, DispatchPc.owes, DispatchPc.mayRun, decide_true, Bool.toNat_true]
      at hrefs hruns
    rw [State.Balanced, hemplaced, hstored, hteardown, hdispatch, hcall]
    cases callback <;> simp [DispatchPc.owes, DispatchPc.mayRun] <;> omega
  · rw [hs']
    refine Balanced.of_call_eq (h c') (Function.update_of_ne heq _ _) rfl (fun _ => rfl) ?_ ?_ <;>
      cases callback <;> simp [hfound, DispatchPc.owes, DispatchPc.mayRun, Ne.symm heq]

theorem balanced_runCallback {s s' : State κ} (h : ∀ c, s.Balanced c)
    (hstep : step s .runCallback = some s') (c' : κ) : s'.Balanced c' := by
  obtain ⟨c, hreleased, hs'⟩ := runCallback_cases hstep
  by_cases heq : c' = c
  · subst heq
    obtain ⟨hrefs, hruns⟩ := h c'
    have hcall : s'.call c' = { s.call c' with runs := (s.call c').runs + 1 } := by
      rw [hs']
      exact Function.update_self _ _ _
    have hemplaced : (s'.call c').isEmplaced = (s.call c').isEmplaced := by rw [hcall]; rfl
    have hstored : s'.stored c' = s.stored c' := by rw [hs']; rfl
    have hteardown : s'.teardown = s.teardown := by rw [hs']; rfl
    have hdispatch : s'.dispatch = .idle := by rw [hs']
    simp only [hreleased, DispatchPc.owes, DispatchPc.mayRun, decide_true, Bool.toNat_true]
      at hrefs hruns
    rw [State.Balanced, hemplaced, hstored, hteardown, hdispatch, hcall]
    simp only [DispatchPc.owes, DispatchPc.mayRun, Bool.toNat_false] at hrefs ⊢
    omega
  · rw [hs']
    refine Balanced.of_call_eq (h c') (Function.update_of_ne heq _ _) rfl (fun _ => rfl) ?_ ?_ <;>
      simp [hreleased, DispatchPc.owes, DispatchPc.mayRun, Ne.symm heq]

theorem balanced_unref {s s' : State κ} {c : κ} (h : Accounts s)
    (hat : s.teardown = .atUnrefCall c)
    (hs' : s' = { s.setCall c { s.call c with unrefs := (s.call c).unrefs + 1 } with
      teardown := .atUnref (some c) }) (c' : κ) : s'.Balanced c' := by
  by_cases heq : c' = c
  · subst heq
    have hin : s.stored c' = true := h.current c' (by rw [hat]; rfl)
    have hahead : (TeardownPc.atUnrefCall c').passed c' = false := by simp [TeardownPc.passed]
    obtain ⟨hrefs, hruns⟩ := h.balanced c'
    have hcall : s'.call c' = { s.call c' with unrefs := (s.call c').unrefs + 1 } := by
      rw [hs']
      exact Function.update_self _ _ _
    have hemplaced : (s'.call c').isEmplaced = (s.call c').isEmplaced := by rw [hcall]; rfl
    have hstored : s'.stored c' = true := by rw [hs']; exact hin
    have hpassed : s'.teardown.passed c' = true := by rw [hs']; simp [TeardownPc.passed]
    have hdispatch : s'.dispatch = s.dispatch := by rw [hs']; rfl
    rw [hat, hin, hahead] at hrefs
    rw [hin] at hruns
    rw [State.Balanced, hemplaced, hstored, hpassed, hdispatch, hcall]
    simp only [Bool.not_true, Bool.and_false, Bool.not_false, Bool.and_true, Bool.toNat_true,
      Bool.toNat_false] at hrefs hruns ⊢
    omega
  · rw [hs']
    refine Balanced.of_call_eq (h.balanced c') (Function.update_of_ne heq _ _) rfl (fun _ => ?_)
      rfl rfl
    rw [hat]
    exact passed_unrefCall heq

theorem balanced_clear {s s' : State κ} {c : κ} (h : s.Balanced c) (hat : s.teardown = .atClear)
    (hs' : s' = { s with pendingMessages := [], teardown := .atJoinIo }) : s'.Balanced c := by
  obtain ⟨hrefs, hruns⟩ := h
  rw [hat] at hrefs
  have hstored : s'.stored c = false := by rw [hs']; rfl
  rw [State.Balanced, hstored, hs']
  simp only [TeardownPc.passed, Bool.not_true, Bool.and_false, Bool.toNat_false] at hrefs ⊢
  omega

/-- The entry at which the loop is stays in the map. -/
theorem current_step {s s' : State κ} {a : Label κ} (hinv : Inv s) (h : Accounts s)
    (hallowed : NotFoundBehind s a) (hstep : step s a = some s') :
    ∀ c ∈ s'.teardown.current, s'.stored c = true := by
  intro c hc
  by_cases ha : a = .teardown
  · subst ha
    cases teardownMove_of_step hinv hstep with
    | advance pos c' hat hnext heq =>
      subst heq
      obtain rfl := Option.some.inj hc
      exact (nextEntry_eq_some h.sorted hnext).1
    | read c' hat heq =>
      subst heq
      exact h.current c (by rw [hat]; exact hc)
    | unref c' hat heq | unrefEnd pos hat hnext heq | clear hat heq =>
      subst heq
      cases hc
    | other hquiet hdispatch hpassed hcurrent =>
      rw [hcurrent] at hc
      cases hc
  · -- The other threads leave the loop where it is.
    have hat : s'.teardown = s.teardown := by
      obtain ⟨hteardown, -⟩ | ⟨-, hteardown, -⟩ := step_control hstep ha
      · exact hteardown
      · rw [hteardown] at hc
        cases hc
    rw [hat] at hc
    have hin := h.current c hc
    by_cases hquiet : a.isQuiet = true
    · rw [stored_congr (quietStep_of_step hinv.consistent hquiet hstep).pendingMessages]
      exact hin
    cases a with
    | emplace c' =>
      have hbefore : s.teardown = .notStarted := hallowed
      rw [hbefore] at hc
      cases hc
    | findEntry =>
      obtain ⟨c', hlocked, ⟨-, rfl⟩ | ⟨callback, hentry, hs'⟩⟩ := findEntry_cases hstep
      · exact hin
      · rw [stored_filter (congrArg State.pendingMessages hs') c, hin, Bool.true_and,
          decide_eq_true_eq]
        rintro rfl
        have hreached := hallowed c hlocked hin
        simp [TeardownPc.reached, Option.mem_def.mp hc] at hreached
    | releaseCall =>
      obtain ⟨c', callback, -, rfl⟩ := releaseCall_cases hstep
      exact hin
    | runCallback =>
      obtain ⟨c', -, rfl⟩ := runCallback_cases hstep
      exact hin
    | stopDispatcher =>
      simp only [step, Option.ite_none_right_eq_some, Option.some.injEq] at hstep
      obtain ⟨-, rfl⟩ := hstep
      exact hin
    | teardown => exact absurd rfl ha
    | _ => exact absurd rfl hquiet

theorem accounts_step {s s' : State κ} {a : Label κ} (hinv : Inv s) (h : Accounts s)
    (hallowed : NotFoundBehind s a) (hstep : step s a = some s') : Accounts s' := by
  refine ⟨sorted_step hinv h.sorted hstep, current_step hinv h hallowed hstep, ?_⟩
  by_cases hquiet : a.isQuiet = true
  · have hpassed : s'.teardown.passed = s.teardown.passed := by
      have ha : a ≠ .teardown := by
        rintro rfl
        cases hquiet
      obtain ⟨hteardown, -⟩ | ⟨hconnected, hteardown, -⟩ := step_control hstep ha
      · rw [hteardown]
      · rw [hteardown, hinv.notStarted hconnected]
        rfl
    exact fun c => balanced_quietStep (h.balanced c)
      (quietStep_of_step hinv.consistent hquiet hstep) hpassed
  cases a with
  | emplace c => exact balanced_emplace hinv h.balanced hallowed hstep
  | findEntry => exact balanced_findEntry h.balanced hallowed hstep
  | releaseCall => exact balanced_releaseCall h.balanced hstep
  | runCallback => exact balanced_runCallback h.balanced hstep
  | stopDispatcher =>
    simp only [step, Option.ite_none_right_eq_some, Option.some.injEq] at hstep
    obtain ⟨⟨hidle, -⟩, rfl⟩ := hstep
    intro c
    refine Balanced.of_call_eq (h.balanced c) rfl rfl (fun _ => rfl) ?_ ?_ <;> rw [hidle] <;> rfl
  | teardown =>
    cases teardownMove_of_step hinv hstep with
    | advance pos c hat hnext heq =>
      subst heq
      intro c'
      refine Balanced.of_call_eq (h.balanced c') rfl rfl (fun hin => ?_) rfl rfl
      rw [hat]
      exact passed_nextEntry h.sorted hnext hin
    | read c hat heq =>
      subst heq
      intro c'
      refine Balanced.of_call_eq (h.balanced c') rfl rfl (fun _ => ?_) rfl rfl
      rw [hat]
      rfl
    | unref c hat heq => exact balanced_unref h hat heq
    | unrefEnd pos hat hnext heq =>
      subst heq
      intro c
      refine Balanced.of_call_eq (h.balanced c) rfl rfl (fun hin => ?_) rfl rfl
      rw [hat, passed_of_nextEntry_eq_none hnext hin]
      rfl
    | clear hat heq => exact fun c => balanced_clear (h.balanced c) hat heq
    | other hquiet hdispatch hpassed =>
      exact fun c => balanced_quietStep (h.balanced c) hquiet hpassed
  | _ => exact absurd rfl hquiet

/-! ## Every run -/

theorem accounts_initial (privateConnection : Bool) :
    Accounts (initial privateConnection : State κ) where
  sorted := .nil
  current := nofun
  balanced _ := ⟨rfl, Nat.le_refl _⟩

/-- In every run in which the dispatch thread finds no entry that is unreferenced already, each
    call is released once. -/
theorem releasedOnce_of_notFoundBehind {s : State κ}
    (h : (system κ).ReachableWhen NotFoundBehind s) : ReleasedOnce s := by
  have hinv := inv_of_reachableWhen h
  have haccounts : Accounts s := by
    apply h.invariant_over fun _ => inv_of_reachableWhen
    case initial =>
      rintro _ ⟨privateConnection, rfl⟩
      exact accounts_initial privateConnection
    case preserved => exact fun _ _ _ => accounts_step
  have hemplaced : ∀ c, (s.call c).isEmplaced.toNat ≤ 1 := fun c => Bool.toNat_le _
  refine ⟨fun c => ?_, fun c => ?_, fun hdone c hin => ?_, fun hdone => ?_⟩
  · have := (haccounts.balanced c).2
    have := hemplaced c
    omega
  · have := (haccounts.balanced c).1
    have := hemplaced c
    omega
  · have hrefs := (haccounts.balanced c).1
    have hfinished : s.dispatch = .finished := hinv.joined (by rw [hdone]; rfl)
    simpa [hdone, hfinished, hin, TeardownPc.passed, DispatchPc.owes] using hrefs
  · have hfinished : s.dispatch = .finished := hinv.joined (by rw [hdone]; rfl)
    simp [step, hfinished]

/-- A reply that is found before the teardown, with its callback run after the entries are
    cleared. -/
def foundRun : List (Label Unit) :=
  [.enter () (.withReply true), .check (), .lock (), .sendWithReply () true, .setNotify (),
    .emplace (), .unlock (), .complete (), .lockPending, .disconnect, .findEntry, .teardown,
    .teardown, .teardown, .teardown, .teardown, .teardown, .teardown, .teardown, .releaseCall,
    .runCallback, .stopDispatcher, .teardown, .teardown, .teardown, .teardown]

theorem foundRun_releasedOnce :
    ∃ s, (system Unit).run (initial false) foundRun = some s ∧ ReleasedOnce s ∧
      s.teardown = .done ∧ (s.call ()).runs = 1 := by
  have hrun : (system Unit).run (initial false) foundRun = some _ := rfl
  refine ⟨_, hrun, releasedOnce_of_notFoundBehind
    (TransitionSystem.reachableWhen_of_run foundRun ⟨false, rfl⟩ ?_ hrun), rfl, rfl⟩
  refine ⟨trivial, trivial, trivial, trivial, trivial, rfl, trivial, trivial, trivial, trivial,
    fun _ _ _ => rfl, trivial, trivial, trivial, trivial, trivial, trivial, trivial, trivial,
    trivial, trivial, trivial, trivial, trivial, trivial, trivial, trivial⟩

/-- A reply that is found between the loop of `dbus_pending_call_unref` and the call of
    `clear`. -/
def foundBehindRun : List (Label Unit) :=
  [.enter () (.withReply true), .check (), .lock (), .sendWithReply () true, .setNotify (),
    .emplace (), .unlock (), .complete (), .disconnect, .teardown, .teardown, .teardown, .teardown,
    .teardown, .teardown, .teardown, .lockPending, .findEntry, .releaseCall]

theorem foundBehindRun_not_releasedOnce :
    ∃ s, (system Unit).Reachable s ∧ (s.call ()).unrefs = 2 ∧ ¬ ReleasedOnce s := by
  have hrun : (system Unit).run (initial false) foundBehindRun = some _ := rfl
  refine ⟨_, TransitionSystem.reachable_of_run _ ⟨false, rfl⟩ hrun, rfl, fun h => ?_⟩
  have htwice := h.unrefs ()
  revert htwice
  decide

end Ultrabus.Teardown
