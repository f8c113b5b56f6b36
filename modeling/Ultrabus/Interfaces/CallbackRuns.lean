import Ultrabus.Interfaces.ChangeCallbacks
import Ultrabus.Lib.Transition

/-! # Runs of the callbacks for changes

Any calls of the functions that set callbacks and of `add_match` and `remove_match` on an
`org_freedesktop_DBus_ObjectManager` or an `org_freedesktop_DBus_Properties`, recorded with the
callbacks that have been set last.

A signal leads to the callback that has been set last for its sender and path, and the bus has
been asked for exactly the signals for which there is one. -/

namespace Ultrabus.Interfaces

open Exec (Settles)
open Bus (Retvalue)
open Proxy (Change Received Clean matches_start_iff)

/-! ## The rules as the bus reads them -/

def CleanKey (key : Key) : Prop := Clean key.1 ∧ Clean key.2

instance (key : Key) : Decidable (CleanKey key) := inferInstanceAs (Decidable (_ ∧ _))

/-- What the bus is to look for. -/
def constraints (change : Change) (key : Key) : MatchRule.Rule :=
  [.type (text "signal"), .sender key.1, .path key.2, .interface change.interface,
    .member change.name]

theorem rule_eq_write (change : Change) (key : Key) :
    rule change key = MatchRule.write (constraints change key) := by
  cases change <;>
    simp only [rule, makeIfaceAddedRule, makeIfaceRemovedRule, makeIfaceRule,
      Proxy.makePropsChangedRule, constraints, List.append_assoc, MatchRule.write, List.map_cons,
      List.map_nil, MatchRule.Constraint.toPair, MatchRule.writePairs, MatchRule.writePair] <;>
    rfl

theorem read_rule (change : Change) {key : Key} (hclean : CleanKey key) :
    MatchRule.read (cStr (rule change key)) = some (constraints change key) := by
  have hkeys : ((constraints change key).map fun c => c.toPair.1).Nodup := by
    simp only [constraints, List.map_cons, List.map_nil, MatchRule.Constraint.toPair]
    decide
  have htype : Clean (text "signal") := by decide
  have hinterface : Clean change.interface := by cases change <;> decide
  have hname : Clean change.name := by cases change <;> decide
  have hvalues : ∀ c ∈ constraints change key, Clean c.toPair.2 := by
    simp only [constraints, List.forall_mem_cons, MatchRule.Constraint.toPair]
    exact ⟨htype, hclean.1, hclean.2, hinterface, hname, List.forall_mem_nil _⟩
  have hnul : (0 : UInt8) ∉ MatchRule.write (constraints change key) :=
    MatchRule.notMem_write (by decide) fun c hc => (hvalues c hc).1
  rw [rule_eq_write, cStr_eq_self hnul]
  exact MatchRule.read_write hkeys fun c hc => (hvalues c hc).2

theorem constraints_inj {change change' : Change} {key key' : Key}
    (h : constraints change key = constraints change' key') : change = change' ∧ key = key' := by
  simp only [constraints, List.cons.injEq, MatchRule.Constraint.sender.injEq,
    MatchRule.Constraint.path.injEq, MatchRule.Constraint.interface.injEq,
    MatchRule.Constraint.member.injEq, true_and, and_true] at h
  obtain ⟨hsender, hpath, -, hname⟩ := h
  have hinj : change.name = change'.name → change = change' := by
    cases change <;> cases change' <;> decide
  exact ⟨hinj hname, Prod.ext hsender hpath⟩

/-- Different callbacks have different rules. -/
theorem rule_inj {change change' : Change} {key key' : Key} (hclean : CleanKey key)
    (hclean' : CleanKey key') (h : rule change key = rule change' key') :
    change = change' ∧ key = key' := by
  have hread := read_rule change hclean
  rw [h, read_rule change' hclean'] at hread
  exact constraints_inj (Option.some.inj hread).symm

/-- The rule is for the signals of the object at the path of the sender. -/
theorem matches_constraints_iff {owner : Bytes → Option Bytes} {change : Change} {key : Key}
    (hown : ∀ name, owner key.1 = some name → name = key.1) {msg : Received}
    {destination : Bytes} :
    (constraints change key).matches owner (msg.onBus destination) = true ↔
      msg.message.type = Proxy.dbusMessageTypeSignal ∧ (msg.sender, msg.path) = key ∧
        msg.interface = change.interface ∧ msg.name = change.name := by
  rw [constraints, matches_start_iff hown, MatchRule.Rule.matches_iff, Prod.ext_iff]
  simp only [List.forall_mem_cons, MatchRule.matches_interface_iff, MatchRule.matches_member_iff,
    Received.onBus, List.not_mem_nil, false_implies, implies_true, and_true, and_assoc]

/-! ## What a call does -/

variable {γ : Type}

/-- One callback is set. -/
def setEntry (installed : Change → Key → Option γ) (change : Change) (key : Key)
    (callback : Option γ) : Change → Key → Option γ :=
  fun change' key' => if change' = change ∧ key' = key then callback else installed change' key'

theorem setEntry_self (installed : Change → Key → Option γ) (change : Change) (key : Key)
    (callback : Option γ) : setEntry installed change key callback change key = callback := by
  simp [setEntry]

theorem setEntry_of_ne {installed : Change → Key → Option γ} {change change' : Change}
    {key key' : Key} {callback : Option γ} (h : ¬ (change' = change ∧ key' = key)) :
    setEntry installed change key callback change' key' = installed change' key' :=
  if_neg h

theorem setEntry_none {installed : Change → Key → Option γ} {change : Change} {key : Key}
    (h : installed change key = none) : setEntry installed change key none = installed := by
  funext change' key'
  by_cases heq : change' = change ∧ key' = key
  · obtain ⟨rfl, rfl⟩ := heq
    rw [setEntry_self, h]
  · rw [setEntry_of_ne heq]

theorem setEntry_undone {installed : Change → Key → Option γ} {change : Change} {key : Key}
    {callback : Option γ} (h : installed change key = none) :
    setEntry (setEntry installed change key callback) change key none = installed := by
  funext change' key'
  by_cases heq : change' = change ∧ key' = key
  · obtain ⟨rfl, rfl⟩ := heq
    rw [setEntry_self, h]
  · rw [setEntry_of_ne heq, setEntry_of_ne heq]

/-- Everything that setting a callback under a key can do. -/
inductive SetStep (change : Change) (s : State γ) (key : Key) (callback : Option γ)
    (answer : Answer) (s' : State γ) (ok : Bool) : Prop where
  | added : s.installed change key = none → callback.isSome = true → ok = true →
      s'.installed = setEntry s.installed change key callback →
      s'.matchRules = insert (rule change key) s.matchRules →
      SetStep change s key callback answer s' ok
  | refused : ok = false → s'.installed = s.installed → s'.matchRules = s.matchRules →
      SetStep change s key callback answer s' ok
  | replaced : (s.installed change key).isSome = true → callback.isSome = true → ok = true →
      s'.installed = setEntry s.installed change key callback → s'.matchRules = s.matchRules →
      SetStep change s key callback answer s' ok
  | removed : (s.installed change key).isSome = true → callback = none → ok = true →
      s'.installed = setEntry s.installed change key none →
      s'.matchRules = (if answer = .accepted then s.matchRules.erase (rule change key)
        else s.matchRules) → SetStep change s key callback answer s' ok
  | nothing : s.installed change key = none → callback = none → ok = true → s' = s →
      SetStep change s key callback answer s' ok

@[simp]
theorem State.setCallbacks_matchRules (s : State γ) (change : Change)
    (callbacks : AList (fun _ : Key => γ)) :
    (s.setCallbacks change callbacks).matchRules = s.matchRules := rfl

@[simp]
theorem State.setCallbacks_callbacks_self (s : State γ) (change : Change)
    (callbacks : AList (fun _ : Key => γ)) :
    (s.setCallbacks change callbacks).callbacks change = callbacks := by
  simp [State.setCallbacks]

theorem State.installed_setCallbacks (s : State γ) (change : Change)
    (callbacks : AList (fun _ : Key => γ)) (change' : Change) (key : Key) :
    (s.setCallbacks change callbacks).installed change' key =
      if change' = change then callbacks.lookup key else s.installed change' key := by
  by_cases h : change' = change
  · subst h
    simp [State.installed]
  · simp [State.installed, State.setCallbacks, h]

theorem State.installed_insert (s : State γ) (change : Change) (key : Key) (callback : γ) :
    (s.setCallbacks change ((s.callbacks change).insert key callback)).installed =
      setEntry s.installed change key (some callback) := by
  funext change' key'
  rw [State.installed_setCallbacks, setEntry]
  by_cases hchange : change' = change
  · subst hchange
    by_cases hkey : key' = key
    · subst hkey
      simp
    · simp [hkey, State.installed, AList.lookup_insert_ne]
  · simp [hchange]

theorem State.installed_erase (s : State γ) (change : Change) (key : Key) :
    (s.setCallbacks change ((s.callbacks change).erase key)).installed =
      setEntry s.installed change key none := by
  funext change' key'
  rw [State.installed_setCallbacks, setEntry]
  by_cases hchange : change' = change
  · subst hchange
    by_cases hkey : key' = key
    · subst hkey
      simp
    · simp [hkey, State.installed, AList.lookup_erase_ne]
  · simp [hchange]

/-- The bus is asked for the rule, or the call fails. -/
theorem addMatch_matchRules (s : State γ) (rule : Bytes) (answer : Answer) :
    ((addMatch s rule answer).2.value = true ∧
      (addMatch s rule answer).1 = { s with matchRules := insert rule s.matchRules }) ∨
    ((addMatch s rule answer).2.value = false ∧ (addMatch s rule answer).1 = s) := by
  cases answer with
  | notConnected => exact .inr ⟨rfl, rfl⟩
  | error what =>
    by_cases hmem : rule ∈ s.matchRules
    · exact .inl (by simp [addMatch, hmem, Retvalue.of])
    · exact .inr (by simp [addMatch, hmem, Retvalue.of, Retvalue.err])
  | accepted =>
    by_cases hmem : rule ∈ s.matchRules
    · exact .inl (by simp [addMatch, hmem, Retvalue.of])
    · exact .inl (by simp [addMatch, hmem, Retvalue.of])

theorem removeMatch_matchRules (s : State γ) (rule : Bytes) (answer : Answer) :
    (removeMatch s rule answer).1 =
      { s with matchRules := if answer = .accepted then s.matchRules.erase rule
          else s.matchRules } := by
  cases answer with
  | notConnected => simp [removeMatch]
  | error what =>
    by_cases hmem : rule ∈ s.matchRules <;> simp [removeMatch, hmem]
  | accepted => simp [removeMatch]

theorem setCallbackImpl_cases (change : Change) (s : State γ) (key : Key) (callback : Option γ)
    (answer : Answer) :
    SetStep change s key callback answer (setCallbackImpl change s key callback answer).1
      (setCallbackImpl change s key callback answer).2.value := by
  have hinstalled : (s.callbacks change).lookup key = s.installed change key := rfl
  cases callback with
  | some callback =>
    cases hentry : s.installed change key with
    | none =>
      have hmatch := addMatch_matchRules
        (s.setCallbacks change ((s.callbacks change).insert key callback)) (rule change key) answer
      obtain ⟨hvalue, hstate⟩ | ⟨hvalue, hstate⟩ := hmatch
      · have hresult : setCallbackImpl change s key (some callback) answer =
            addMatch (s.setCallbacks change ((s.callbacks change).insert key callback))
              (rule change key) answer := by
          simp [setCallbackImpl, hinstalled, hentry, hvalue]
        rw [hresult, hstate]
        exact .added hentry rfl hvalue (s.installed_insert change key callback) rfl
      · -- The callback that has been entered is taken out again.
        let entered := s.setCallbacks change ((s.callbacks change).insert key callback)
        have hresult : setCallbackImpl change s key (some callback) answer =
            (entered.setCallbacks change ((entered.callbacks change).erase key),
              (addMatch entered (rule change key) answer).2) := by
          simp [setCallbackImpl, hinstalled, hentry, hvalue, hstate, entered]
        rw [hresult]
        refine .refused hvalue ?_ rfl
        rw [State.installed_erase, State.installed_insert, setEntry_undone hentry]
    | some old =>
      have hresult : setCallbackImpl change s key (some callback) answer =
          (s.setCallbacks change ((s.callbacks change).insert key callback), .of true) := by
        simp [setCallbackImpl, hinstalled, hentry]
      rw [hresult]
      exact .replaced (by simp [hentry]) rfl rfl (s.installed_insert change key callback) rfl
  | none =>
    cases hentry : s.installed change key with
    | none =>
      have hresult : setCallbackImpl change s key none answer = (s, .of true) := by
        simp [setCallbackImpl, hinstalled, hentry]
      rw [hresult]
      exact .nothing hentry rfl rfl rfl
    | some old =>
      have hresult : setCallbackImpl change s key none answer =
          ((removeMatch (s.setCallbacks change ((s.callbacks change).erase key))
            (rule change key) answer).1, .of true) := by
        simp [setCallbackImpl, hinstalled, hentry]
      rw [hresult, removeMatch_matchRules]
      exact .removed (by simp [hentry]) rfl rfl (s.installed_erase change key) rfl

/-! ## Runs -/

/-- The callbacks and rules, and the callbacks that have been set last: a call that has failed
    has set none. -/
structure Recorded (γ : Type) where
  state : State γ
  lastSet : Change → Key → Option γ

inductive Label (γ : Type) where
  | setCallback (change : Change) (busName opath : Bytes) (callback : Option γ)
      (owner : Retvalue Bytes) (answer : Answer)
  | addMatch (rule : Bytes) (answer : Answer)
  | removeMatch (rule : Bytes) (answer : Answer)

section Runs

variable (dbusValidateBusName : Bytes → Bool)

/-- The key of a callback, if the names are right and the bus name has an owner. -/
def keyOf (busName opath : Bytes) (owner : Retvalue Bytes) : Option Key :=
  if !dbusValidateBusName (cStr busName) || !dbusValidatePath (cStr opath) then none
  else if busName.head? = some ':'.toUInt8 then some (busName, opath)
  else if owner.errNum ≠ 0 then none
  else some (owner.value, opath)

def step (r : Recorded γ) : Label γ → Option (Recorded γ)
  | .setCallback change busName opath callback owner answer =>
    let (state, ret) :=
      setCallback dbusValidateBusName change r.state busName opath callback owner answer
    match keyOf dbusValidateBusName busName opath owner with
    | some key =>
      some ⟨state, if ret.value then setEntry r.lastSet change key callback else r.lastSet⟩
    | none => some ⟨state, r.lastSet⟩
  | .addMatch rule answer => some { r with state := (addMatch r.state rule answer).1 }
  | .removeMatch rule answer => some { r with state := (removeMatch r.state rule answer).1 }

def initial : Recorded γ := ⟨⟨fun _ => ∅, ∅⟩, fun _ _ => none⟩

def system : TransitionSystem (Recorded γ) (Label γ) where
  init r := r = initial
  step := step dbusValidateBusName

/-- The names of a call are clean, and no rule of a callback is removed. -/
def Careful (r : Recorded γ) : Label γ → Prop
  | .setCallback _ busName opath _ owner _ =>
    ∀ key, keyOf dbusValidateBusName busName opath owner = some key → CleanKey key
  | .addMatch _ _ => True
  | .removeMatch rule' _ =>
    ∀ change key, (r.lastSet change key).isSome = true → rule change key ≠ rule'

/-- Only callbacks are set, with clean names, and the bus does not refuse to remove a rule. -/
def Settled (r : Recorded γ) : Label γ → Prop
  | .setCallback change busName opath callback owner answer =>
    ∀ key, keyOf dbusValidateBusName busName opath owner = some key → CleanKey key ∧
      (callback = none → (r.lastSet change key).isSome = true → answer = .accepted)
  | .addMatch _ _ | .removeMatch _ _ => False

/-- Everything that a step can do. -/
inductive StepCases (r : Recorded γ) : Label γ → Recorded γ → Prop where
  | set {change : Change} {busName opath : Bytes} {callback : Option γ}
      {owner : Retvalue Bytes} {answer : Answer} {key : Key} {state : State γ} {ok : Bool} :
      keyOf dbusValidateBusName busName opath owner = some key →
      SetStep change r.state key callback answer state ok →
      StepCases r (.setCallback change busName opath callback owner answer)
        ⟨state, if ok then setEntry r.lastSet change key callback else r.lastSet⟩
  | wrongNames {change : Change} {busName opath : Bytes} {callback : Option γ}
      {owner : Retvalue Bytes} {answer : Answer} :
      StepCases r (.setCallback change busName opath callback owner answer) r
  | addMatch {rule : Bytes} {answer : Answer} {matchRules : Finset Bytes} :
      r.state.matchRules ⊆ matchRules →
      StepCases r (.addMatch rule answer) { r with state.matchRules := matchRules }
  | removeMatch {rule : Bytes} {answer : Answer} {matchRules : Finset Bytes} :
      r.state.matchRules.erase rule ⊆ matchRules →
      StepCases r (.removeMatch rule answer) { r with state.matchRules := matchRules }

variable {dbusValidateBusName}

theorem setCallback_of_keyOf {change : Change} {s : State γ} {busName opath : Bytes}
    {callback : Option γ} {owner : Retvalue Bytes} {answer : Answer} {key : Key}
    (hkey : keyOf dbusValidateBusName busName opath owner = some key) :
    setCallback dbusValidateBusName change s busName opath callback owner answer =
      setCallbackImpl change s key callback answer := by
  unfold keyOf at hkey
  split_ifs at hkey with hnames hunique howner
  all_goals
    obtain ⟨hname, hpath⟩ : dbusValidateBusName (cStr busName) = true ∧
        dbusValidatePath (cStr opath) = true := by
      simpa using hnames
    obtain rfl := Option.some.inj hkey
    simp [setCallback, hname, hpath, hunique]
  simp [howner]

theorem setCallback_of_keyOf_none {change : Change} {s : State γ} {busName opath : Bytes}
    {callback : Option γ} {owner : Retvalue Bytes} {answer : Answer}
    (hkey : keyOf dbusValidateBusName busName opath owner = none) :
    (setCallback dbusValidateBusName change s busName opath callback owner answer).1 = s := by
  unfold keyOf at hkey
  split_ifs at hkey with hnames hunique howner
  · simp only [Bool.or_eq_true, Bool.not_eq_true'] at hnames
    cases hname : dbusValidateBusName (cStr busName) with
    | false => simp [setCallback, hname]
    | true =>
      obtain hnot | hpath := hnames
      · exact absurd (hname.symm.trans hnot) (by decide)
      · simp [setCallback, hname, hpath]
  · obtain ⟨hname, hpath⟩ : dbusValidateBusName (cStr busName) = true ∧
        dbusValidatePath (cStr opath) = true := by
      simpa using hnames
    simp [setCallback, hname, hpath, hunique, howner]

theorem step_cases {r r' : Recorded γ} {label : Label γ}
    (h : step dbusValidateBusName r label = some r') :
    StepCases dbusValidateBusName r label r' := by
  cases label with
  | setCallback change busName opath callback owner answer =>
    simp only [step] at h
    split at h
    case h_1 key hkey =>
      obtain rfl := Option.some.inj h
      rw [setCallback_of_keyOf hkey]
      exact .set hkey (setCallbackImpl_cases change r.state key callback answer)
    case h_2 hkey =>
      obtain rfl := Option.some.inj h
      rw [setCallback_of_keyOf_none hkey]
      exact .wrongNames
  | addMatch rule answer =>
    obtain rfl := Option.some.inj h
    obtain ⟨-, hstate⟩ | ⟨-, hstate⟩ := addMatch_matchRules r.state rule answer
    · rw [hstate]
      exact .addMatch (Finset.subset_insert rule r.state.matchRules)
    · rw [hstate]
      exact .addMatch (Finset.Subset.refl _)
  | removeMatch rule answer =>
    obtain rfl := Option.some.inj h
    rw [removeMatch_matchRules]
    refine .removeMatch ?_
    split
    · exact Finset.Subset.refl _
    · exact Finset.erase_subset rule r.state.matchRules

/-! ### The callbacks that are installed -/

theorem SetStep.installed {change : Change} {s s' : State γ} {key : Key} {callback : Option γ}
    {answer : Answer} {ok : Bool} (h : SetStep change s key callback answer s' ok) :
    s'.installed = if ok then setEntry s.installed change key callback else s.installed := by
  cases h with
  | added _ _ hok hinstalled _ => rw [hok, if_pos rfl, hinstalled]
  | refused hok hinstalled _ => simp [hok, hinstalled]
  | replaced _ _ hok hinstalled _ => rw [hok, if_pos rfl, hinstalled]
  | removed _ hcallback hok hinstalled _ => rw [hok, if_pos rfl, hinstalled, hcallback]
  | nothing hnone hcallback hok hstate =>
    rw [hok, if_pos rfl, hstate, hcallback]
    exact (setEntry_none hnone).symm

theorem installed_step {r r' : Recorded γ} {label : Label γ} (hr : r.state.installed = r.lastSet)
    (h : step dbusValidateBusName r label = some r') : r'.state.installed = r'.lastSet := by
  cases step_cases h with
  | set _ hset => rw [hset.installed, hr]
  | wrongNames => exact hr
  | addMatch _ => exact hr
  | removeMatch _ => exact hr

/-- The callbacks are those that have been set last. -/
theorem installed_eq_lastSet {allowed : Recorded γ → Label γ → Prop} {r : Recorded γ}
    (h : (system dbusValidateBusName).ReachableWhen allowed r) :
    r.state.installed = r.lastSet := by
  apply h.invariant
  case initial =>
    rintro _ rfl
    rfl
  case preserved => exact fun _ _ _ hr _ => installed_step hr

/-- After any calls, a signal leads to the callback that has been set last for its sender and
    path, which is told what the arguments say, and to no other. -/
theorem heard_of_lastSet {r : Recorded γ} (h : (system dbusValidateBusName).Reachable r)
    (filter : Filter) {msg : Received} (hvalid : ∀ w ∈ msg.message.body, w.Valid) :
    ∃ calls, Settles (fun fuel => filter.onSignal fuel r.state msg) (.ok (false, calls)) ∧
      Heard filter r.lastSet msg calls := by
  rw [← installed_eq_lastSet h]
  exact filter.onSignal_settles hvalid r.state

/-! ### The rules -/

/-- The bus has been asked for the signals of every callback. -/
structure RulesKept (s : State γ) : Prop where
  clean : ∀ change key, (s.installed change key).isSome = true → CleanKey key
  kept : ∀ change key, (s.installed change key).isSome = true → rule change key ∈ s.matchRules

/-- It has been asked for no others. -/
structure RulesExact (s : State γ) : Prop extends RulesKept s where
  asked : ∀ rule' ∈ s.matchRules,
    ∃ change key, (s.installed change key).isSome = true ∧ rule' = rule change key

theorem RulesKept.set {change : Change} {s s' : State γ} {key : Key} {callback : Option γ}
    {answer : Answer} {ok : Bool} (hs : RulesKept s) (hclean : CleanKey key)
    (h : SetStep change s key callback answer s' ok) : RulesKept s' := by
  constructor
  case clean =>
    intro change' key' hinstalled
    rw [h.installed] at hinstalled
    split at hinstalled
    · by_cases heq : change' = change ∧ key' = key
      · exact heq.2 ▸ hclean
      · rw [setEntry_of_ne heq] at hinstalled
        exact hs.clean change' key' hinstalled
    · exact hs.clean change' key' hinstalled
  case kept =>
    intro change' key' hinstalled
    cases h with
    | added _ _ _ htable hrules =>
      rw [hrules, Finset.mem_insert]
      rw [htable] at hinstalled
      by_cases heq : change' = change ∧ key' = key
      · exact .inl (by rw [heq.1, heq.2])
      · rw [setEntry_of_ne heq] at hinstalled
        exact .inr (hs.kept change' key' hinstalled)
    | refused _ htable hrules =>
      rw [htable] at hinstalled
      exact hrules ▸ hs.kept change' key' hinstalled
    | replaced hold _ _ htable hrules =>
      rw [htable] at hinstalled
      rw [hrules]
      by_cases heq : change' = change ∧ key' = key
      · exact hs.kept change' key' (by rw [heq.1, heq.2, hold])
      · rw [setEntry_of_ne heq] at hinstalled
        exact hs.kept change' key' hinstalled
    | removed _ _ _ htable hrules =>
      rw [htable] at hinstalled
      have hne : ¬ (change' = change ∧ key' = key) := by
        rintro ⟨rfl, rfl⟩
        rw [setEntry_self] at hinstalled
        cases hinstalled
      rw [setEntry_of_ne hne] at hinstalled
      have hkept := hs.kept change' key' hinstalled
      rw [hrules]
      split
      · refine Finset.mem_erase.mpr ⟨fun hsame => hne ?_, hkept⟩
        exact rule_inj (hs.clean change' key' hinstalled) hclean hsame
      · exact hkept
    | nothing _ _ _ hstate => exact hstate ▸ hs.kept change' key' (hstate ▸ hinstalled)

theorem RulesExact.set {change : Change} {s s' : State γ} {key : Key} {callback : Option γ}
    {answer : Answer} {ok : Bool} (hs : RulesExact s) (hclean : CleanKey key)
    (hanswer : callback = none → (s.installed change key).isSome = true → answer = .accepted)
    (h : SetStep change s key callback answer s' ok) : RulesExact s' := by
  refine ⟨hs.toRulesKept.set hclean h, fun rule' hrule => ?_⟩
  cases h with
  | added hnone hcallback _ htable hrules =>
    rw [hrules, Finset.mem_insert] at hrule
    rw [htable]
    obtain rfl | hrule := hrule
    · exact ⟨change, key, by rw [setEntry_self, hcallback], rfl⟩
    · obtain ⟨change', key', hinstalled, rfl⟩ := hs.asked rule' hrule
      refine ⟨change', key', ?_, rfl⟩
      rw [setEntry_of_ne, hinstalled]
      rintro ⟨rfl, rfl⟩
      simp [hnone] at hinstalled
  | refused _ htable hrules =>
    rw [htable]
    exact hs.asked rule' (hrules ▸ hrule)
  | replaced hold hcallback _ htable hrules =>
    rw [htable]
    obtain ⟨change', key', hinstalled, rfl⟩ := hs.asked rule' (hrules ▸ hrule)
    refine ⟨change', key', ?_, rfl⟩
    by_cases heq : change' = change ∧ key' = key
    · rw [heq.1, heq.2, setEntry_self, hcallback]
    · rw [setEntry_of_ne heq, hinstalled]
  | removed hold hcallback _ htable hrules =>
    rw [hrules, if_pos (hanswer hcallback hold)] at hrule
    obtain ⟨hne, hrule⟩ := Finset.mem_erase.mp hrule
    rw [htable]
    obtain ⟨change', key', hinstalled, rfl⟩ := hs.asked rule' hrule
    refine ⟨change', key', ?_, rfl⟩
    rw [setEntry_of_ne, hinstalled]
    rintro ⟨rfl, rfl⟩
    exact hne rfl
  | nothing _ _ _ hstate =>
    rw [hstate] at hrule ⊢
    exact hs.asked rule' hrule

theorem RulesKept.mono {s : State γ} {matchRules : Finset Bytes} (hs : RulesKept s)
    (h : ∀ change key, (s.installed change key).isSome = true → rule change key ∈ matchRules) :
    RulesKept { s with matchRules := matchRules } :=
  ⟨hs.clean, h⟩

theorem rulesKept_of_reachable {r : Recorded γ}
    (h : (system dbusValidateBusName).ReachableWhen (Careful dbusValidateBusName) r) :
    RulesKept r.state := by
  apply h.invariant_over
  case base => exact fun _ => installed_eq_lastSet
  case initial =>
    rintro _ rfl
    exact ⟨nofun, nofun⟩
  case preserved =>
    intro r label r' hinstalled hr hcareful hstep
    cases step_cases hstep with
    | set hkey hset => exact hr.set (hcareful _ hkey) hset
    | wrongNames => exact hr
    | addMatch hrules => exact hr.mono fun change key h => hrules (hr.kept change key h)
    | removeMatch hrules =>
      refine hr.mono fun change key h => hrules (Finset.mem_erase.mpr ⟨?_, hr.kept change key h⟩)
      exact hcareful change key (by rwa [hinstalled] at h)

theorem rulesExact_of_reachable {r : Recorded γ}
    (h : (system dbusValidateBusName).ReachableWhen (Settled dbusValidateBusName) r) :
    RulesExact r.state := by
  apply h.invariant_over
  case base => exact fun _ => installed_eq_lastSet
  case initial =>
    rintro _ rfl
    exact ⟨⟨nofun, nofun⟩, by simp [initial]⟩
  case preserved =>
    intro r label r' hinstalled hr hsettled hstep
    cases step_cases hstep with
    | set hkey hset =>
      obtain ⟨hclean, hanswer⟩ := hsettled _ hkey
      rw [← hinstalled] at hanswer
      exact hr.set hclean hanswer hset
    | wrongNames => exact hr
    | addMatch _ => exact hsettled.elim
    | removeMatch _ => exact hsettled.elim

/-- In every run with clean names in which no rule of a callback is removed by hand, the bus has
    been asked for the signals of every callback that has been set, whatever it has answered. -/
theorem asked_of_lastSet {r : Recorded γ}
    (h : (system dbusValidateBusName).ReachableWhen (Careful dbusValidateBusName) r)
    {change : Change} {key : Key} (hset : (r.lastSet change key).isSome = true)
    {owner : Bytes → Option Bytes} (hown : ∀ name, owner key.1 = some name → name = key.1) :
    ∃ rule ∈ r.state.matchRules, ∃ wanted, MatchRule.read (cStr rule) = some wanted ∧
      ∀ msg destination, wanted.matches owner (Received.onBus msg destination) = true ↔
        msg.message.type = Proxy.dbusMessageTypeSignal ∧ (msg.sender, msg.path) = key ∧
          msg.interface = change.interface ∧ msg.name = change.name := by
  have hkept := rulesKept_of_reachable h
  rw [← installed_eq_lastSet h] at hset
  exact ⟨rule change key, hkept.kept change key hset, constraints change key,
    read_rule change (hkept.clean change key hset), fun _ _ => matches_constraints_iff hown⟩

/-- In every run in which only callbacks are set, for clean names, and the bus removes the rules
    that it is to remove, it has been asked for a signal exactly if a callback for it has been
    set. -/
theorem asked_iff_lastSet {r : Recorded γ}
    (h : (system dbusValidateBusName).ReachableWhen (Settled dbusValidateBusName) r)
    {owner : Bytes → Option Bytes} (hown : ∀ change key, (r.lastSet change key).isSome = true →
      ∀ name, owner key.1 = some name → name = key.1) (msg : Received) (destination : Bytes) :
    (∃ rule ∈ r.state.matchRules, ∃ wanted, MatchRule.read (cStr rule) = some wanted ∧
        wanted.matches owner (msg.onBus destination) = true) ↔
      ∃ change : Change, msg.message.type = Proxy.dbusMessageTypeSignal ∧
        msg.interface = change.interface ∧ msg.name = change.name ∧
        (r.lastSet change (msg.sender, msg.path)).isSome = true := by
  have hexact := rulesExact_of_reachable h
  rw [← installed_eq_lastSet h] at hown ⊢
  constructor
  · rintro ⟨_, hrule, wanted, hread, hmatches⟩
    obtain ⟨change, key, hset, rfl⟩ := hexact.asked _ hrule
    rw [read_rule change (hexact.clean change key hset)] at hread
    obtain rfl := Option.some.inj hread
    obtain ⟨htype, rfl, hinterface, hname⟩ :=
      (matches_constraints_iff (hown change key hset)).mp hmatches
    exact ⟨change, htype, hinterface, hname, hset⟩
  · rintro ⟨change, htype, hinterface, hname, hset⟩
    exact ⟨rule change _, hexact.kept change _ hset, constraints change _,
      read_rule change (hexact.clean change _ hset),
      (matches_constraints_iff (hown change _ hset)).mpr ⟨htype, rfl, hinterface, hname⟩⟩

end Runs

/-! ### A callback for changed properties -/

/-- A callback is set for the properties of `/a` of `:1.5`, which is the only name. -/
def propertiesLabels : List (Label Nat) :=
  [.setCallback .propertiesChanged (text ":1.5") (text "/a") (some 7) (.of []) .accepted]

def onlyName (busName : Bytes) : Bool := busName = text ":1.5"

def watching : Recorded Nat :=
  ((system onlyName).run initial propertiesLabels).getD initial

theorem propertiesLabels_run : (system onlyName).run initial propertiesLabels = some watching :=
  rfl

theorem propertiesLabels_clean :
    ∀ key, keyOf onlyName (text ":1.5") (text "/a") (.of []) = some key → CleanKey key := by
  intro key hkey
  have hone : keyOf onlyName (text ":1.5") (text "/a") (.of []) =
      some (text ":1.5", text "/a") := by
    decide
  obtain rfl := Option.some.inj (hone.symm.trans hkey)
  decide

/-- The signal that a property of `/a` has changed leads to it. -/
theorem propertiesChangedMessage_heard : ∃ calls,
    Settles (fun fuel => Filter.properties.onSignal fuel watching.state
      Proxy.propertiesChangedMessage) (.ok (false, calls)) ∧
      Heard .properties watching.lastSet Proxy.propertiesChangedMessage calls :=
  heard_of_lastSet (TransitionSystem.reachable_of_run propertiesLabels rfl propertiesLabels_run)
    .properties Proxy.propertiesChangedMessage_wellFormed.valid

/-- The bus has been asked for the signal. -/
theorem watching_asked : ∃ rule ∈ watching.state.matchRules, ∃ wanted,
    MatchRule.read (cStr rule) = some wanted ∧
      ∀ msg destination, wanted.matches (fun _ => none) (Received.onBus msg destination) = true ↔
        msg.message.type = Proxy.dbusMessageTypeSignal ∧
          (msg.sender, msg.path) = (text ":1.5", text "/a") ∧
          msg.interface = Proxy.dbusInterfaceProperties ∧ msg.name = text "PropertiesChanged" := by
  have hreachable : (system onlyName).ReachableWhen (Careful onlyName) watching :=
    TransitionSystem.reachableWhen_of_run propertiesLabels rfl
      ⟨propertiesLabels_clean, trivial⟩ propertiesLabels_run
  have hset : (watching.lastSet .propertiesChanged (text ":1.5", text "/a")).isSome = true := rfl
  exact asked_of_lastSet hreachable hset (by simp)

/-- It has been asked for it exactly because of the callback. -/
theorem propertiesChangedMessage_asked_iff :
    (∃ rule ∈ watching.state.matchRules, ∃ wanted, MatchRule.read (cStr rule) = some wanted ∧
        wanted.matches (fun _ => none) (Proxy.propertiesChangedMessage.onBus []) = true) ↔
      ∃ change : Change,
        Proxy.propertiesChangedMessage.message.type = Proxy.dbusMessageTypeSignal ∧
        Proxy.propertiesChangedMessage.interface = change.interface ∧
        Proxy.propertiesChangedMessage.name = change.name ∧
        (watching.lastSet change (Proxy.propertiesChangedMessage.sender,
          Proxy.propertiesChangedMessage.path)).isSome = true := by
  have hreachable : (system onlyName).ReachableWhen (Settled onlyName) watching :=
    TransitionSystem.reachableWhen_of_run propertiesLabels rfl
      ⟨fun key hkey => ⟨propertiesLabels_clean key hkey, nofun⟩, trivial⟩ propertiesLabels_run
  exact asked_iff_lastSet hreachable (by simp) _ _

end Ultrabus.Interfaces
