import Ultrabus.Filter.MatchRules
import Ultrabus.Proxy.Rules

/-! # Callbacks of an object proxy

The functions that install, replace and remove the callbacks of one `object_proxy`, each
with the match rule that goes with it.  The proxy stays connected and its functions are
called one after the other; a callback is modelled by whether it is there. -/

namespace Ultrabus.Proxy

open MatchRules (Op syncResult)

structure State where
  target : Bytes
  opath : Bytes
  targetUniqueName : Bytes
  -- the keys of `callbacks`: interface and signal
  callbacks : List (Bytes × Bytes)
  objectIfacesAddedCb : Bool
  objectIfacesRemovedCb : Bool
  propertiesChangedCb : Bool
  ifaceAddOmRoot : Bytes
  ifaceDelOmRoot : Bytes
  matchRules : Finset Bytes

/-- `owner` is the answer to `get_name_owner`, none on an error, and `ok` tells whether a
    request to the bus succeeds. -/
inductive Label where
  | setSignalCallback (interface signal : Bytes) (callback : Bool) (owner : Option Bytes)
      (ok : Bool)
  | clearSignalCallbacks (ok : Bytes × Bytes → Bool)
  | setInterfacesAddedCallback (callback : Bool) (omRootPath : Bytes) (owner : Option Bytes)
      (okAdd okRemove : Bool)
  | setInterfacesRemovedCallback (callback : Bool) (omRootPath : Bytes) (owner : Option Bytes)
      (okAdd okRemove : Bool)
  | setPropertiesChangedCallback (callback : Bool) (owner : Option Bytes) (ok : Bool)

/-! ## The functions -/

def State.signalRule (s : State) (key : Bytes × Bytes) : Bytes :=
  makeSignalMatchRule s.targetUniqueName s.opath key.1 key.2

def State.addedRule (s : State) (root : Bytes) : Bytes :=
  makeObjectIfaceAddedRule s.targetUniqueName root s.opath

def State.removedRule (s : State) (root : Bytes) : Bytes :=
  makeObjectIfaceRemovedRule s.targetUniqueName root s.opath

def State.propsRule (s : State) : Bytes := makePropsChangedRule s.targetUniqueName s.opath

/-- The look-up of the unique name, when it is not known yet. -/
def State.resolve (s : State) (owner : Option Bytes) : Option State :=
  if s.targetUniqueName = [] then owner.map fun name => { s with targetUniqueName := name }
  else some s

def setSignalCallback (s : State) (interface signal : Bytes) (callback : Bool)
    (owner : Option Bytes) (ok : Bool) : State × Bool :=
  if interface ≠ [] ∧ dbusValidateInterface interface = false then (s, false)
  else if signal ≠ [] ∧ dbusValidateMember signal = false then (s, false)
  else
    match s.resolve owner with
    | none => (s, false)
    | some s =>
      let key := (interface, signal)
      if !callback then
        if key ∈ s.callbacks then
          let rules := (syncResult .removeMatch s.matchRules (s.signalRule key) ok).1
          ({ s with callbacks := s.callbacks.erase key, matchRules := rules }, true)
        else (s, true)
      else if key ∈ s.callbacks then (s, true)
      else
        -- The new entry is taken back when the rule cannot be added.
        let (rules, added) := syncResult .addMatch s.matchRules (s.signalRule key) ok
        let callbacks := if added then key :: s.callbacks else (key :: s.callbacks).erase key
        ({ s with callbacks := callbacks, matchRules := rules }, added)

def clearSignalCallbacks (s : State) (ok : Bytes × Bytes → Bool) : State :=
  { s with
    matchRules := s.callbacks.foldl (fun rules key =>
      (syncResult .removeMatch rules (s.signalRule key) (ok key)).1) s.matchRules
    callbacks := [] }

/-- The callback for one signal of the object manager with its root, and the rules. -/
structure IfaceSlot where
  installed : Bool
  omRoot : Bytes
  matchRules : Finset Bytes

/-- The common body of `set_interfaces_added_callback` and `set_interfaces_removed_callback`
    after the look-up of the unique name. -/
def setInterfacesCallback (slot : IfaceSlot) (rule : Bytes → Bytes) (callback : Bool)
    (omRootPath : Bytes) (okAdd okRemove : Bool) : IfaceSlot × Bool :=
  if callback then
    if !slot.installed then
      let (rules, ok) := syncResult .addMatch slot.matchRules (rule omRootPath) okAdd
      if ok then (⟨true, omRootPath, rules⟩, true) else ({ slot with matchRules := rules }, false)
    else if omRootPath ≠ slot.omRoot then
      let (rules, ok) := syncResult .addMatch slot.matchRules (rule omRootPath) okAdd
      if ok then
        let rules := (syncResult .removeMatch rules (rule slot.omRoot) okRemove).1
        (⟨true, omRootPath, rules⟩, true)
      else ({ slot with matchRules := rules }, false)
    else (⟨true, omRootPath, slot.matchRules⟩, true)
  else
    let rules :=
      if slot.installed then
        (syncResult .removeMatch slot.matchRules (rule slot.omRoot) okRemove).1
      else slot.matchRules
    (⟨false, [], rules⟩, true)

def setInterfacesAddedCallback (s : State) (callback : Bool) (omRootPath : Bytes)
    (owner : Option Bytes) (okAdd okRemove : Bool) : State × Bool :=
  match s.resolve owner with
  | none => (s, false)
  | some s =>
    let (slot, ok) :=
      setInterfacesCallback ⟨s.objectIfacesAddedCb, s.ifaceAddOmRoot, s.matchRules⟩ s.addedRule
        callback omRootPath okAdd okRemove
    ({ s with
        objectIfacesAddedCb := slot.installed
        ifaceAddOmRoot := slot.omRoot
        matchRules := slot.matchRules }, ok)

def setInterfacesRemovedCallback (s : State) (callback : Bool) (omRootPath : Bytes)
    (owner : Option Bytes) (okAdd okRemove : Bool) : State × Bool :=
  match s.resolve owner with
  | none => (s, false)
  | some s =>
    let (slot, ok) :=
      setInterfacesCallback ⟨s.objectIfacesRemovedCb, s.ifaceDelOmRoot, s.matchRules⟩ s.removedRule
        callback omRootPath okAdd okRemove
    ({ s with
        objectIfacesRemovedCb := slot.installed
        ifaceDelOmRoot := slot.omRoot
        matchRules := slot.matchRules }, ok)

def setPropertiesChangedCallback (s : State) (callback : Bool) (owner : Option Bytes) (ok : Bool) :
    State × Bool :=
  match s.resolve owner with
  | none => (s, false)
  | some s =>
    if callback then
      if !s.propertiesChangedCb then
        let (rules, added) := syncResult .addMatch s.matchRules s.propsRule ok
        ({ s with propertiesChangedCb := added, matchRules := rules }, added)
      else (s, true)
    else
      let rules :=
        if s.propertiesChangedCb then (syncResult .removeMatch s.matchRules s.propsRule ok).1
        else s.matchRules
      ({ s with propertiesChangedCb := false, matchRules := rules }, true)

/-! ## Runs -/

/-- The owner of a bus name is not empty. -/
def answers (owner : Option Bytes) : Bool := owner ≠ some []

def step (s : State) : Label → Option State
  | .setSignalCallback interface signal callback owner ok =>
    if answers owner then some (setSignalCallback s interface signal callback owner ok).1 else none
  | .clearSignalCallbacks ok => some (clearSignalCallbacks s ok)
  | .setInterfacesAddedCallback callback omRootPath owner okAdd okRemove =>
    if answers owner then
      some (setInterfacesAddedCallback s callback omRootPath owner okAdd okRemove).1
    else none
  | .setInterfacesRemovedCallback callback omRootPath owner okAdd okRemove =>
    if answers owner then
      some (setInterfacesRemovedCallback s callback omRootPath owner okAdd okRemove).1
    else none
  | .setPropertiesChangedCallback callback owner ok =>
    if answers owner then some (setPropertiesChangedCallback s callback owner ok).1 else none

/-- A proxy as it is constructed: a target that is a unique name is its own owner. -/
def initial (target opath : Bytes) : State where
  target := target
  opath := opath
  targetUniqueName := if target.head? = some ':'.toUInt8 then target else []
  callbacks := []
  objectIfacesAddedCb := false
  objectIfacesRemovedCb := false
  propertiesChangedCb := false
  ifaceAddOmRoot := []
  ifaceDelOmRoot := []
  matchRules := ∅

def system : TransitionSystem State Label where
  init s := ∃ target opath, s = initial target opath
  step := step

/-- The rule that the proxy builds for an installed callback. -/
inductive Needs (s : State) : Bytes → Prop where
  | signal {key : Bytes × Bytes} : key ∈ s.callbacks → Needs s (s.signalRule key)
  | added : s.objectIfacesAddedCb = true → Needs s (s.addedRule s.ifaceAddOmRoot)
  | removed : s.objectIfacesRemovedCb = true → Needs s (s.removedRule s.ifaceDelOmRoot)
  | props : s.propertiesChangedCb = true → Needs s s.propsRule

def RulesKept (s : State) : Prop := ∀ rule, Needs s rule → rule ∈ s.matchRules

/-- The signal callback that has the rule of `properties_changed_cb`. -/
def propsKey : Bytes × Bytes := (text "org.freedesktop.DBus.Properties", text "PropertiesChanged")

/-- The common rule of `properties_changed_cb` and of the signal callback for the same
    signal is not removed while both are installed; and no quote passes the checks of the
    names, which end at a NUL. -/
def CommonRuleStays (s : State) : Label → Prop
  | .setSignalCallback interface signal true _ _ =>
    (dbusValidateInterface interface = true → quote ∉ interface) ∧
      (dbusValidateMember signal = true → quote ∉ signal)
  | .setSignalCallback interface signal false _ ok =>
    (interface, signal) = propsKey → propsKey ∈ s.callbacks → s.propertiesChangedCb = true →
      ok = false
  | .clearSignalCallbacks ok =>
    propsKey ∈ s.callbacks → s.propertiesChangedCb = true → ok propsKey = false
  | .setPropertiesChangedCallback false _ ok =>
    propsKey ∈ s.callbacks → s.propertiesChangedCb = true → ok = false
  | _ => True

/-- Names without a NUL byte meet the condition. -/
theorem quote_notMem_of_nulFree {s : Bytes} (hnul : (0 : UInt8) ∉ s)
    (h : dbusValidateInterface s = true ∨ dbusValidateMember s = true) : quote ∉ s :=
  cStr_eq_self hnul ▸ quote_notMem_cStr h

/-! ## Requests -/

section Requests

variable {rules : Finset Bytes} {rule rule' : Bytes} {ok : Bool}

theorem mem_addMatch (h : rule ∈ rules) : rule ∈ (syncResult .addMatch rules rule' ok).1 := by
  unfold syncResult
  split
  · exact h
  · split
    · exact Finset.mem_insert_of_mem h
    · exact h

theorem mem_addMatch_self (h : (syncResult .addMatch rules rule ok).2 = true) :
    rule ∈ (syncResult .addMatch rules rule ok).1 := by
  unfold syncResult at h ⊢
  by_cases hmem : rule ∈ rules
  · simp only [Op.nothingToDo, hmem, decide_true, if_true]
  · cases ok with
    | true => simp [Op.nothingToDo, hmem, Op.update]
    | false => simp [Op.nothingToDo, hmem] at h

theorem mem_removeMatch (h : rule ∈ rules) (hne : ok = true → rule ≠ rule') :
    rule ∈ (syncResult .removeMatch rules rule' ok).1 := by
  unfold syncResult
  split
  · exact h
  · split
    case isTrue hok => exact Finset.mem_erase.mpr ⟨hne hok, h⟩
    case isFalse => exact h

/-- The rules that are needed elsewhere survive the removal of all signal callbacks. -/
theorem mem_foldl_removeMatch {keys : List (Bytes × Bytes)} {ruleOf : Bytes × Bytes → Bytes}
    {ok : Bytes × Bytes → Bool} (h : rule ∈ rules)
    (hne : ∀ key ∈ keys, ok key = true → rule ≠ ruleOf key) :
    rule ∈ keys.foldl (fun rules key => (syncResult .removeMatch rules (ruleOf key) (ok key)).1)
      rules := by
  induction keys generalizing rules with
  | nil => exact h
  | cons key rest ih =>
    rw [List.foldl_cons]
    exact ih (mem_removeMatch h (hne key List.mem_cons_self))
      fun key' hkey' => hne key' (List.mem_cons_of_mem _ hkey')

end Requests

section Slots

variable {slot : IfaceSlot} {rule : Bytes → Bytes} {callback okAdd okRemove : Bool}
  {omRootPath : Bytes}

theorem mem_setInterfacesCallback {other : Bytes} (h : other ∈ slot.matchRules)
    (hne : ∀ root, other ≠ rule root) :
    other ∈
      (setInterfacesCallback slot rule callback omRootPath okAdd okRemove).1.matchRules := by
  unfold setInterfacesCallback
  cases callback with
  | true =>
    cases hinstalled : slot.installed with
    | false =>
      simp only [if_true, Bool.not_false]
      split
      · exact mem_addMatch h
      · exact mem_addMatch h
    | true =>
      simp only [if_true, Bool.not_true, Bool.false_eq_true, if_false]
      split
      · split
        · exact mem_removeMatch (mem_addMatch h) fun _ => hne _
        · exact mem_addMatch h
      · exact h
  | false =>
    simp only [Bool.false_eq_true, if_false]
    split
    · exact mem_removeMatch h fun _ => hne _
    · exact h

theorem mem_setInterfacesCallback_self
    (hinj : ∀ {root root'}, rule root = rule root' → root = root')
    (h : slot.installed = true → rule slot.omRoot ∈ slot.matchRules)
    (hinstalled :
      (setInterfacesCallback slot rule callback omRootPath okAdd okRemove).1.installed = true) :
    rule (setInterfacesCallback slot rule callback omRootPath okAdd okRemove).1.omRoot ∈
      (setInterfacesCallback slot rule callback omRootPath okAdd okRemove).1.matchRules := by
  unfold setInterfacesCallback at hinstalled ⊢
  cases callback with
  | true =>
    cases hbefore : slot.installed with
    | false =>
      simp only [if_true, hbefore, Bool.not_false] at hinstalled ⊢
      split
      case isTrue hadded => exact mem_addMatch_self hadded
      case isFalse hadded => simp [hadded] at hinstalled
    | true =>
      simp only [if_true, Bool.not_true, Bool.false_eq_true, if_false]
      split
      case isTrue hroot =>
        split
        case isTrue hadded =>
          -- The new rule is added before the old one is removed, and the two differ.
          exact mem_removeMatch (mem_addMatch_self hadded) fun _ heq => hroot (hinj heq)
        case isFalse => exact mem_addMatch (h hbefore)
      case isFalse hroot =>
        rw [not_ne_iff] at hroot
        exact hroot ▸ h hbefore
  | false => simp at hinstalled

end Slots

/-! ## Invariant -/

theorem State.propsRule_eq (s : State) : s.propsRule = s.signalRule propsKey :=
  makePropsChangedRule_eq _ _

/-- Every installed callback has its rule; the names in the rules stay as they are. -/
structure Inv (s : State) : Prop where
  kept : RulesKept s
  named : ∀ rule, Needs s rule → s.targetUniqueName ≠ []
  quoteFree : ∀ key ∈ s.callbacks, quote ∉ key.1 ∧ quote ∉ key.2
  nodup : s.callbacks.Nodup

section Rules

variable {s : State} {key key' : Bytes × Bytes}

theorem signalRule_inj (hkey : quote ∉ key.1 ∧ quote ∉ key.2)
    (hkey' : quote ∉ key'.1 ∧ quote ∉ key'.2) (h : s.signalRule key = s.signalRule key') :
    key = key' :=
  Prod.ext_iff.mpr (makeSignalMatchRule_inj hkey.1 hkey'.1 h)

theorem signalRule_ne_addedRule (hkey : quote ∉ key.1 ∧ quote ∉ key.2) (root : Bytes) :
    s.signalRule key ≠ s.addedRule root :=
  makeSignalMatchRule_ne_objectIface root hkey.1 hkey.2 (by decide)

theorem signalRule_ne_removedRule (hkey : quote ∉ key.1 ∧ quote ∉ key.2) (root : Bytes) :
    s.signalRule key ≠ s.removedRule root :=
  makeSignalMatchRule_ne_objectIface root hkey.1 hkey.2 (by decide)

theorem quoteFree_propsKey : quote ∉ propsKey.1 ∧ quote ∉ propsKey.2 := by decide

end Rules

theorem inv_resolve {s s' : State} (h : Inv s) {owner : Option Bytes}
    (howner : answers owner = true) (hresolve : s.resolve owner = some s') :
    Inv s' ∧ s'.targetUniqueName ≠ [] ∧ s'.callbacks = s.callbacks ∧
      s'.propertiesChangedCb = s.propertiesChangedCb := by
  unfold State.resolve at hresolve
  by_cases hunknown : s.targetUniqueName = []
  · rw [if_pos hunknown] at hresolve
    obtain ⟨name, rfl, rfl⟩ := Option.map_eq_some_iff.mp hresolve
    have hname : name ≠ [] := by simpa [answers] using howner
    -- Nothing is installed as long as the name is not known.
    have hnone : ∀ rule, ¬ Needs s rule := fun rule hneeds => h.named rule hneeds hunknown
    have hnone' : ∀ rule, ¬ Needs { s with targetUniqueName := name } rule := by
      intro rule hneeds
      cases hneeds with
      | signal hkey => exact hnone _ (.signal hkey)
      | added hcb => exact hnone _ (.added hcb)
      | removed hcb => exact hnone _ (.removed hcb)
      | props hcb => exact hnone _ (.props hcb)
    exact ⟨⟨fun rule hneeds => absurd hneeds (hnone' rule), fun _ _ => hname, h.quoteFree, h.nodup⟩,
      hname, rfl, rfl⟩
  · rw [if_neg hunknown, Option.some.injEq] at hresolve
    exact hresolve ▸ ⟨h, hunknown, rfl, rfl⟩

theorem inv_removeSignal {s : State} (h : Inv s) {key : Bytes × Bytes} (hkey : key ∈ s.callbacks)
    {ok : Bool} (hshared : key = propsKey → s.propertiesChangedCb = true → ok = false) :
    Inv { s with
      callbacks := s.callbacks.erase key
      matchRules := (syncResult .removeMatch s.matchRules (s.signalRule key) ok).1 } := by
  have hquote := h.quoteFree key hkey
  have hname := h.named _ (.signal hkey)
  refine ⟨fun rule hneeds => ?_, fun _ _ => hname,
    fun key' hkey' => h.quoteFree key' (List.mem_of_mem_erase hkey'), h.nodup.erase key⟩
  cases hneeds with
  | @signal key' hkey' =>
    rw [h.nodup.mem_erase_iff] at hkey'
    refine mem_removeMatch (h.kept _ (.signal hkey'.2)) fun _ heq => hkey'.1 ?_
    exact signalRule_inj (h.quoteFree key' hkey'.2) hquote heq
  | added hcb =>
    exact mem_removeMatch (h.kept _ (.added hcb)) fun _ heq =>
      signalRule_ne_addedRule hquote _ heq.symm
  | removed hcb =>
    exact mem_removeMatch (h.kept _ (.removed hcb)) fun _ heq =>
      signalRule_ne_removedRule hquote _ heq.symm
  | props hcb =>
    -- The one rule that two callbacks can have in common.
    refine mem_removeMatch (h.kept _ (.props hcb)) fun hok heq => ?_
    have hprops := signalRule_inj quoteFree_propsKey hquote (s.propsRule_eq.symm.trans heq)
    exact absurd hok (Bool.eq_false_iff.mp (hshared hprops.symm hcb))

theorem inv_addSignal {s : State} (h : Inv s) (hname : s.targetUniqueName ≠ [])
    {key : Bytes × Bytes} (hnew : key ∉ s.callbacks) (hquote : quote ∉ key.1 ∧ quote ∉ key.2)
    (ok : Bool) :
    Inv { s with
      callbacks :=
        if (syncResult .addMatch s.matchRules (s.signalRule key) ok).2 then key :: s.callbacks
        else (key :: s.callbacks).erase key
      matchRules := (syncResult .addMatch s.matchRules (s.signalRule key) ok).1 } := by
  rw [List.erase_cons_head]
  by_cases hadded : (syncResult .addMatch s.matchRules (s.signalRule key) ok).2 = true
  · simp only [hadded, if_true]
    refine ⟨fun rule hneeds => ?_, fun _ _ => hname, fun key' hkey' => ?_,
      List.nodup_cons.mpr ⟨hnew, h.nodup⟩⟩
    · cases hneeds with
      | @signal key' hkey' =>
        obtain rfl | hkey' := List.mem_cons.mp hkey'
        · exact mem_addMatch_self hadded
        · exact mem_addMatch (h.kept _ (.signal hkey'))
      | added hcb => exact mem_addMatch (h.kept _ (.added hcb))
      | removed hcb => exact mem_addMatch (h.kept _ (.removed hcb))
      | props hcb => exact mem_addMatch (h.kept _ (.props hcb))
    · obtain rfl | hkey' := List.mem_cons.mp hkey'
      · exact hquote
      · exact h.quoteFree key' hkey'
  · -- The entry is taken back.
    simp only [hadded]
    refine ⟨fun rule hneeds => ?_, fun _ _ => hname, h.quoteFree, h.nodup⟩
    cases hneeds with
    | signal hkey' => exact mem_addMatch (h.kept _ (.signal hkey'))
    | added hcb => exact mem_addMatch (h.kept _ (.added hcb))
    | removed hcb => exact mem_addMatch (h.kept _ (.removed hcb))
    | props hcb => exact mem_addMatch (h.kept _ (.props hcb))

theorem inv_setSignalCallback {s : State} (h : Inv s) {interface signal : Bytes}
    {callback : Bool} {owner : Option Bytes} (howner : answers owner = true) {ok : Bool}
    (hallowed : CommonRuleStays s (.setSignalCallback interface signal callback owner ok)) :
    Inv (setSignalCallback s interface signal callback owner ok).1 := by
  unfold setSignalCallback
  by_cases hinterface : interface ≠ [] ∧ dbusValidateInterface interface = false
  · rw [if_pos hinterface]
    exact h
  rw [if_neg hinterface]
  by_cases hsignal : signal ≠ [] ∧ dbusValidateMember signal = false
  · rw [if_pos hsignal]
    exact h
  rw [if_neg hsignal]
  cases hresolve : s.resolve owner with
  | none => exact h
  | some s₁ =>
    obtain ⟨h₁, hname, hcallbacks, hprops⟩ := inv_resolve h howner hresolve
    cases callback with
    | false =>
      simp only [Bool.not_false, if_true]
      split
      case isTrue hkey =>
        refine inv_removeSignal h₁ hkey fun hshared hcb => ?_
        exact hallowed hshared (hshared ▸ hcallbacks ▸ hkey) (hprops ▸ hcb)
      case isFalse => exact h₁
    | true =>
      simp only [Bool.not_true, Bool.false_eq_true, if_false]
      split
      case isTrue => exact h₁
      case isFalse hkey =>
        refine inv_addSignal h₁ hname hkey ⟨?_, ?_⟩ ok
        · by_cases hempty : interface = []
          · exact hempty ▸ List.not_mem_nil
          · exact hallowed.1 (by simpa [hempty] using hinterface)
        · by_cases hempty : signal = []
          · exact hempty ▸ List.not_mem_nil
          · exact hallowed.2 (by simpa [hempty] using hsignal)

theorem inv_clearSignalCallbacks {s : State} (h : Inv s) {ok : Bytes × Bytes → Bool}
    (hallowed : CommonRuleStays s (.clearSignalCallbacks ok)) :
    Inv (clearSignalCallbacks s ok) := by
  have hnamed : ∀ rule, Needs (clearSignalCallbacks s ok) rule → s.targetUniqueName ≠ [] := by
    intro rule hneeds
    cases hneeds with
    | signal hkey => cases hkey
    | added hcb => exact h.named _ (.added hcb)
    | removed hcb => exact h.named _ (.removed hcb)
    | props hcb => exact h.named _ (.props hcb)
  refine ⟨fun rule hneeds => ?_, hnamed, nofun, List.nodup_nil⟩
  cases hneeds with
  | signal hkey => cases hkey
  | added hcb =>
    exact mem_foldl_removeMatch (h.kept _ (.added hcb)) fun key hkey _ heq =>
      signalRule_ne_addedRule (h.quoteFree key hkey) _ heq.symm
  | removed hcb =>
    exact mem_foldl_removeMatch (h.kept _ (.removed hcb)) fun key hkey _ heq =>
      signalRule_ne_removedRule (h.quoteFree key hkey) _ heq.symm
  | props hcb =>
    refine mem_foldl_removeMatch (h.kept _ (.props hcb)) fun key hkey hok heq => ?_
    have hprops :=
      signalRule_inj quoteFree_propsKey (h.quoteFree key hkey) (s.propsRule_eq.symm.trans heq)
    subst hprops
    exact absurd hok (Bool.eq_false_iff.mp (hallowed hkey hcb))

theorem inv_setInterfacesAddedCallback {s : State} (h : Inv s) {callback : Bool}
    {omRootPath : Bytes} {owner : Option Bytes} (howner : answers owner = true)
    {okAdd okRemove : Bool} :
    Inv (setInterfacesAddedCallback s callback omRootPath owner okAdd okRemove).1 := by
  unfold setInterfacesAddedCallback
  cases hresolve : s.resolve owner with
  | none => exact h
  | some s₁ =>
    obtain ⟨h₁, hname, -⟩ := inv_resolve h howner hresolve
    refine ⟨fun rule hneeds => ?_, fun _ _ => hname, h₁.quoteFree, h₁.nodup⟩
    cases hneeds with
    | signal hkey =>
      exact mem_setInterfacesCallback (h₁.kept _ (.signal hkey)) fun root =>
        signalRule_ne_addedRule (h₁.quoteFree _ hkey) root
    | added hcb =>
      exact mem_setInterfacesCallback_self makeObjectIfaceRule_inj
        (fun hbefore => h₁.kept _ (.added hbefore)) hcb
    | removed hcb =>
      exact mem_setInterfacesCallback (h₁.kept _ (.removed hcb)) fun root heq =>
        makeObjectIfaceAddedRule_ne_removed _ _ heq.symm
    | props hcb =>
      refine mem_setInterfacesCallback (h₁.kept _ (.props hcb)) fun root heq => ?_
      exact signalRule_ne_addedRule quoteFree_propsKey root (s₁.propsRule_eq.symm.trans heq)

theorem inv_setInterfacesRemovedCallback {s : State} (h : Inv s) {callback : Bool}
    {omRootPath : Bytes} {owner : Option Bytes} (howner : answers owner = true)
    {okAdd okRemove : Bool} :
    Inv (setInterfacesRemovedCallback s callback omRootPath owner okAdd okRemove).1 := by
  unfold setInterfacesRemovedCallback
  cases hresolve : s.resolve owner with
  | none => exact h
  | some s₁ =>
    obtain ⟨h₁, hname, -⟩ := inv_resolve h howner hresolve
    refine ⟨fun rule hneeds => ?_, fun _ _ => hname, h₁.quoteFree, h₁.nodup⟩
    cases hneeds with
    | signal hkey =>
      exact mem_setInterfacesCallback (h₁.kept _ (.signal hkey)) fun root =>
        signalRule_ne_removedRule (h₁.quoteFree _ hkey) root
    | added hcb =>
      exact mem_setInterfacesCallback (h₁.kept _ (.added hcb)) fun root heq =>
        makeObjectIfaceAddedRule_ne_removed _ _ heq
    | removed hcb =>
      exact mem_setInterfacesCallback_self makeObjectIfaceRule_inj
        (fun hbefore => h₁.kept _ (.removed hbefore)) hcb
    | props hcb =>
      refine mem_setInterfacesCallback (h₁.kept _ (.props hcb)) fun root heq => ?_
      exact signalRule_ne_removedRule quoteFree_propsKey root (s₁.propsRule_eq.symm.trans heq)

theorem inv_setPropertiesChangedCallback {s : State} (h : Inv s) {callback : Bool}
    {owner : Option Bytes} (howner : answers owner = true) {ok : Bool}
    (hallowed : CommonRuleStays s (.setPropertiesChangedCallback callback owner ok)) :
    Inv (setPropertiesChangedCallback s callback owner ok).1 := by
  unfold setPropertiesChangedCallback
  cases hresolve : s.resolve owner with
  | none => exact h
  | some s₁ =>
    obtain ⟨h₁, hname, hcallbacks, hprops⟩ := inv_resolve h howner hresolve
    cases callback with
    | true =>
      simp only [if_true]
      split
      case isTrue =>
        refine ⟨fun rule hneeds => ?_, fun _ _ => hname, h₁.quoteFree, h₁.nodup⟩
        cases hneeds with
        | signal hkey => exact mem_addMatch (h₁.kept _ (.signal hkey))
        | added hcb => exact mem_addMatch (h₁.kept _ (.added hcb))
        | removed hcb => exact mem_addMatch (h₁.kept _ (.removed hcb))
        | props hadded => exact mem_addMatch_self hadded
      case isFalse => exact h₁
    | false =>
      simp only [Bool.false_eq_true, if_false]
      refine ⟨fun rule hneeds => ?_, fun _ _ => hname, h₁.quoteFree, h₁.nodup⟩
      -- The other rules differ from the one that is removed.
      have hkept : ∀ rule, rule ∈ s₁.matchRules →
          (s₁.propertiesChangedCb = true → ok = true → rule ≠ s₁.propsRule) →
          rule ∈ if s₁.propertiesChangedCb then
            (syncResult .removeMatch s₁.matchRules s₁.propsRule ok).1 else s₁.matchRules := by
        intro rule hmem hne
        split
        case isTrue hcb => exact mem_removeMatch hmem (hne hcb)
        case isFalse => exact hmem
      cases hneeds with
      | @signal key hkey =>
        refine hkept _ (h₁.kept _ (.signal hkey)) fun hcb hok heq => ?_
        have heq' := signalRule_inj (h₁.quoteFree key hkey) quoteFree_propsKey
          (heq.trans s₁.propsRule_eq)
        subst heq'
        exact absurd hok (Bool.eq_false_iff.mp (hallowed (hcallbacks ▸ hkey) (hprops ▸ hcb)))
      | added hcb =>
        refine hkept _ (h₁.kept _ (.added hcb)) fun _ _ heq => ?_
        exact signalRule_ne_addedRule quoteFree_propsKey _ (s₁.propsRule_eq.symm.trans heq.symm)
      | removed hcb =>
        refine hkept _ (h₁.kept _ (.removed hcb)) fun _ _ heq => ?_
        exact signalRule_ne_removedRule quoteFree_propsKey _ (s₁.propsRule_eq.symm.trans heq.symm)
      | props hcb => cases hcb

theorem inv_step {s s' : State} {a : Label} (h : Inv s) (hallowed : CommonRuleStays s a)
    (hstep : step s a = some s') : Inv s' := by
  cases a with
  | setSignalCallback interface signal callback owner ok =>
    simp only [step, Option.ite_none_right_eq_some, Option.some.injEq] at hstep
    exact hstep.2 ▸ inv_setSignalCallback h hstep.1 hallowed
  | clearSignalCallbacks ok =>
    exact Option.some.inj hstep ▸ inv_clearSignalCallbacks h hallowed
  | setInterfacesAddedCallback callback omRootPath owner okAdd okRemove =>
    simp only [step, Option.ite_none_right_eq_some, Option.some.injEq] at hstep
    exact hstep.2 ▸ inv_setInterfacesAddedCallback h hstep.1
  | setInterfacesRemovedCallback callback omRootPath owner okAdd okRemove =>
    simp only [step, Option.ite_none_right_eq_some, Option.some.injEq] at hstep
    exact hstep.2 ▸ inv_setInterfacesRemovedCallback h hstep.1
  | setPropertiesChangedCallback callback owner ok =>
    simp only [step, Option.ite_none_right_eq_some, Option.some.injEq] at hstep
    exact hstep.2 ▸ inv_setPropertiesChangedCallback h hstep.1 hallowed

/-- In every run in which the rule of `properties_changed_cb` is not removed while the
    signal callback for the same signal shares it, every installed callback has its rule. -/
theorem rulesKept_of_commonRuleStays {s : State} (h : system.ReachableWhen CommonRuleStays s) :
    RulesKept s := by
  have hinv : Inv s := by
    apply h.invariant
    case initial =>
      rintro _ ⟨target, opath, rfl⟩
      have hnone : ∀ rule, ¬ Needs (initial target opath) rule := by
        intro rule hneeds
        cases hneeds with
        | signal hkey => cases hkey
        | added hcb => cases hcb
        | removed hcb => cases hcb
        | props hcb => cases hcb
      exact ⟨fun rule hneeds => absurd hneeds (hnone rule),
        fun rule hneeds => absurd hneeds (hnone rule), nofun, List.nodup_nil⟩
    case preserved => exact fun _ _ _ => inv_step
  exact hinv.kept

/-- Callbacks of three kinds; the root is changed, and the one for properties is removed. -/
def separateRun : List Label :=
  [.setSignalCallback (text "a.b") (text "c") true (some (text ":1.5")) true,
    .setInterfacesAddedCallback true (text "/") none true true,
    .setPropertiesChangedCallback true none true,
    .setInterfacesAddedCallback true (text "/r") none true true,
    .setPropertiesChangedCallback false none true]

theorem separateRun_rulesKept :
    ∃ s, system.run (initial (text "o.S") (text "/p")) separateRun = some s ∧ RulesKept s ∧
      s.callbacks = [(text "a.b", text "c")] ∧ s.objectIfacesAddedCb = true := by
  have hrun : system.run (initial (text "o.S") (text "/p")) separateRun = some _ := rfl
  refine ⟨_, hrun, rulesKept_of_commonRuleStays ?_, rfl, rfl⟩
  refine TransitionSystem.reachableWhen_of_run _ ⟨_, _, rfl⟩ ?_ hrun
  refine ⟨⟨fun _ => by decide, fun _ => by decide⟩, trivial, trivial, trivial, ?_, trivial⟩
  -- The only signal callback is another one.
  intro hkey
  exact absurd hkey (by decide)

/-- Both callbacks for `PropertiesChanged`, and one of them is removed. -/
def sharedRun : List Label :=
  [.setPropertiesChangedCallback true (some (text ":1.5")) true,
    .setSignalCallback (text "org.freedesktop.DBus.Properties") (text "PropertiesChanged") true
      none true,
    .setPropertiesChangedCallback false none true]

/-- The signal callback is left without its rule. -/
theorem sharedRun_not_rulesKept :
    ∃ s, system.Reachable s ∧ s.callbacks = [propsKey] ∧ s.matchRules = ∅ ∧ ¬ RulesKept s := by
  have hrun : system.run (initial (text "o.S") (text "/p")) sharedRun = some _ := rfl
  refine ⟨_, TransitionSystem.reachable_of_run _ ⟨_, _, rfl⟩ hrun, rfl, rfl, fun h => ?_⟩
  exact absurd (h _ (.signal List.mem_cons_self)) (Finset.notMem_empty _)

end Ultrabus.Proxy
