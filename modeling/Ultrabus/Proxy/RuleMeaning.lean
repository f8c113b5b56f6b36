import Ultrabus.Lib.MatchRule
import Ultrabus.Message.Json
import Ultrabus.Proxy.SignalScope

/-! # What the match rules of a proxy ask for

The match rules of an `object_proxy` as the bus reads them, and the signals that match them.
For every callback that is installed the bus is asked for the signals that the callback is for,
and a signal that it is asked for is one for a callback. -/

namespace Ultrabus.Proxy

open Exec (Settles)

/-! ## The rules as the bus reads them -/

/-- What a callback is installed for, as its rule says it. -/
inductive Watch where
  | signal (key : Bytes × Bytes)
  | interfacesAdded (omRoot : Bytes)
  | interfacesRemoved (omRoot : Bytes)
  | propertiesChanged

def State.ruleOf (s : State) : Watch → Bytes
  | .signal key => s.signalRule key
  | .interfacesAdded omRoot => s.addedRule omRoot
  | .interfacesRemoved omRoot => s.removedRule omRoot
  | .propertiesChanged => s.propsRule

/-- The names that go into the rule of a callback. -/
def Watch.names : Watch → List Bytes
  | .signal key => [key.1, key.2]
  | .interfacesAdded omRoot | .interfacesRemoved omRoot => [omRoot]
  | .propertiesChanged => []

/-- The callback is installed. -/
def State.watches (s : State) : Watch → Prop
  | .signal key => key ∈ s.callbacks
  | .interfacesAdded omRoot => s.objectIfacesAddedCb = true ∧ s.ifaceAddOmRoot = omRoot
  | .interfacesRemoved omRoot => s.objectIfacesRemovedCb = true ∧ s.ifaceDelOmRoot = omRoot
  | .propertiesChanged => s.propertiesChangedCb = true

/-- What the bus is to look for. -/
def State.constraints (s : State) : Watch → MatchRule.Rule
  | .signal key =>
    [.type (text "signal"), .sender s.targetUniqueName, .path s.opath] ++
      (if key.1 = [] then [] else [.interface key.1]) ++
      (if key.2 = [] then [] else [.member key.2])
  | .interfacesAdded omRoot =>
    [.type (text "signal"), .sender s.targetUniqueName, .path omRoot,
      .interface dbusIfaceObjectManager, .member (text "InterfacesAdded"), .argPath 0 s.opath]
  | .interfacesRemoved omRoot =>
    [.type (text "signal"), .sender s.targetUniqueName, .path omRoot,
      .interface dbusIfaceObjectManager, .member (text "InterfacesRemoved"), .argPath 0 s.opath]
  | .propertiesChanged =>
    [.type (text "signal"), .sender s.targetUniqueName, .path s.opath,
      .interface dbusInterfaceProperties, .member (text "PropertiesChanged")]

/-- A text that is sent as it is and does not end the quotes around it. -/
def Clean (name : Bytes) : Prop := (0 : UInt8) ∉ name ∧ quote ∉ name

instance (name : Bytes) : Decidable (Clean name) := inferInstanceAs (Decidable (_ ∧ _))

/-- The names in the rules of the installed callbacks are clean. -/
structure CleanNames (s : State) : Prop where
  sender : Clean s.targetUniqueName
  path : Clean s.opath
  watched : ∀ w, s.watches w → ∀ name ∈ w.names, Clean name

/-- The rules are what the constraints are written as. -/
theorem ruleOf_eq_write (s : State) (w : Watch) :
    s.ruleOf w = MatchRule.write (s.constraints w) := by
  cases w with
  | signal key =>
    obtain ⟨interface, signal⟩ := key
    have hstart : text "type='signal',sender='" =
        text "type='" ++ (text "signal" ++ text "',sender='") := by decide
    simp only [State.ruleOf, State.signalRule, makeSignalMatchRule, State.constraints, hstart]
    by_cases hinterface : interface = [] <;> by_cases hsignal : signal = [] <;>
      simp only [hinterface, hsignal, if_true, if_false, List.append_nil, List.append_assoc,
        List.cons_append, List.nil_append, MatchRule.write, List.map_cons, List.map_nil,
        MatchRule.Constraint.toPair, MatchRule.writePairs, MatchRule.writePair] <;>
      rfl
  | interfacesAdded omRoot | interfacesRemoved omRoot =>
    simp only [State.ruleOf, State.addedRule, State.removedRule, makeObjectIfaceAddedRule,
      makeObjectIfaceRemovedRule, makeObjectIfaceRule, State.constraints, List.append_assoc,
      List.cons_append, List.nil_append, MatchRule.write, List.map_cons, List.map_nil,
      MatchRule.Constraint.toPair, MatchRule.writePairs, MatchRule.writePair]
    rfl
  | propertiesChanged =>
    simp only [State.ruleOf, State.propsRule, makePropsChangedRule, State.constraints,
      List.append_assoc, List.cons_append, List.nil_append, MatchRule.write, List.map_cons,
      List.map_nil, MatchRule.Constraint.toPair, MatchRule.writePairs, MatchRule.writePair]
    rfl

theorem nodup_keys (s : State) (w : Watch) :
    ((s.constraints w).map fun c => c.toPair.1).Nodup := by
  cases w with
  | signal key =>
    simp only [State.constraints]
    by_cases hinterface : key.1 = [] <;> by_cases hsignal : key.2 = [] <;>
      simp only [hinterface, hsignal, if_true, if_false, List.append_nil, List.cons_append,
        List.nil_append, List.map_cons, List.map_nil, MatchRule.Constraint.toPair] <;>
      decide
  | _ =>
    simp only [State.constraints, List.map_cons, List.map_nil, MatchRule.Constraint.toPair]
    decide

/-- The values of a rule are constants or names of the callback. -/
theorem clean_values {s : State} {w : Watch} (hsender : Clean s.targetUniqueName)
    (hpath : Clean s.opath) (hnames : ∀ name ∈ w.names, Clean name) :
    ∀ c ∈ s.constraints w, Clean c.toPair.2 := by
  have htype : Clean (text "signal") := by decide
  cases w with
  | signal key =>
    obtain ⟨hinterface, hsignal⟩ : Clean key.1 ∧ Clean key.2 := by simpa [Watch.names] using hnames
    have hfields : (∀ c ∈ if key.1 = [] then [] else [MatchRule.Constraint.interface key.1],
          Clean c.toPair.2) ∧
        ∀ c ∈ if key.2 = [] then [] else [MatchRule.Constraint.member key.2],
          Clean c.toPair.2 := by
      constructor
      · split <;> simp [MatchRule.Constraint.toPair, hinterface]
      · split <;> simp [MatchRule.Constraint.toPair, hsignal]
    intro c hc
    simp only [State.constraints, List.mem_append] at hc
    obtain (hc | hc) | hc := hc
    · simp only [List.mem_cons, List.not_mem_nil, or_false] at hc
      obtain rfl | rfl | rfl := hc
      · exact htype
      · exact hsender
      · exact hpath
    · exact hfields.1 c hc
    · exact hfields.2 c hc
  | interfacesAdded omRoot | interfacesRemoved omRoot =>
    have hroot : Clean omRoot := hnames omRoot (by simp [Watch.names])
    simp only [State.constraints, List.forall_mem_cons, MatchRule.Constraint.toPair]
    exact ⟨htype, hsender, hroot, by decide, by decide, hpath, List.forall_mem_nil _⟩
  | propertiesChanged =>
    simp only [State.constraints, List.forall_mem_cons, MatchRule.Constraint.toPair]
    exact ⟨htype, hsender, hpath, by decide, by decide, List.forall_mem_nil _⟩

/-- The bus reads from the text of a rule, as it is sent, what the callback is for. -/
theorem read_ruleOf {s : State} {w : Watch} (hsender : Clean s.targetUniqueName)
    (hpath : Clean s.opath) (hnames : ∀ name ∈ w.names, Clean name) :
    MatchRule.read (cStr (s.ruleOf w)) = some (s.constraints w) := by
  have hvalues := clean_values hsender hpath hnames
  have hnul : (0 : UInt8) ∉ MatchRule.write (s.constraints w) :=
    MatchRule.notMem_write (by decide) fun c hc => (hvalues c hc).1
  rw [ruleOf_eq_write, cStr_eq_self hnul]
  exact MatchRule.read_write (nodup_keys s w) fun c hc => (hvalues c hc).2

/-! ## The signals that match -/

/-- The types of messages, as rules call them. -/
def messageTypeName (type : Nat) : Bytes :=
  if type = dbusMessageTypeMethodCall then text "method_call"
  else if type = dbusMessageTypeMethodReturn then text "method_return"
  else if type = dbusMessageTypeError then text "error"
  else if type = dbusMessageTypeSignal then text "signal"
  else []

/-- An argument, as far as rules look at it. -/
def argOf : Wire → MatchRule.Arg
  | .basic (.string value) => .string value
  | .basic (.objectPath value) => .objectPath value
  | _ => .other

/-- A message on its way through the bus. -/
def Received.onBus (msg : Received) (destination : Bytes) : MatchRule.Message where
  type := messageTypeName msg.message.type
  sender := msg.sender
  path := msg.path
  interface := msg.interface
  member := msg.name
  destination := destination
  arg n := msg.message.body[n]?.map argOf

/-- The signal is one that a callback of the proxy is for. -/
inductive Wanted (s : State) (msg : Received) : Prop where
  | special {change : Change} : WellFormed change msg → Interested change s msg → Wanted s msg
  | signal {key : Bytes × Bytes} : msg.message.type = dbusMessageTypeSignal →
      FromOwnObject s msg → FirstKey s.callbacks msg key → Wanted s msg

theorem messageTypeName_signal : messageTypeName dbusMessageTypeSignal = text "signal" := by decide

theorem messageTypeName_eq_signal {type : Nat} (h : messageTypeName type = text "signal") :
    type = dbusMessageTypeSignal := by
  unfold messageTypeName at h
  split_ifs at h with hcall hreturn herror hsignal
  · exact absurd h (by decide)
  · exact absurd h (by decide)
  · exact absurd h (by decide)
  · exact hsignal
  · exact absurd h (by decide)

/-- A key under which a callback is looked for leaves out what it does not ask for. -/
theorem mem_keysOf_iff {msg : Received} {key : Bytes × Bytes} :
    key ∈ keysOf msg ↔
      (key.1 = [] ∨ key.1 = msg.interface) ∧ (key.2 = [] ∨ key.2 = msg.name) := by
  obtain ⟨interface, signal⟩ := key
  simp only [keysOf, List.mem_cons, Prod.mk.injEq, List.not_mem_nil, or_false]
  tauto

section Matches

variable {owner : Bytes → Option Bytes} {s : State} {msg : Received} {destination : Bytes}

/-- The constraints that every rule begins with. -/
theorem matches_start_iff {sender : Bytes} (hown : ∀ name, owner sender = some name →
    name = sender) {path : Bytes} {rest : MatchRule.Rule} :
    MatchRule.Rule.matches owner (.type (text "signal") :: .sender sender :: .path path :: rest)
        (msg.onBus destination) = true ↔
      msg.message.type = dbusMessageTypeSignal ∧ msg.sender = sender ∧
        msg.path = path ∧ MatchRule.Rule.matches owner rest (msg.onBus destination) = true := by
  have htype : messageTypeName msg.message.type = text "signal" ↔
      msg.message.type = dbusMessageTypeSignal :=
    ⟨messageTypeName_eq_signal, fun htype => htype ▸ messageTypeName_signal⟩
  have hsender : (msg.sender = sender ∨ owner sender = some msg.sender) ↔ msg.sender = sender :=
    or_iff_left_of_imp (hown msg.sender)
  simp only [MatchRule.Rule.matches_iff, List.forall_mem_cons, MatchRule.matches_type_iff,
    MatchRule.matches_sender_iff, MatchRule.matches_path_iff]
  simp only [Received.onBus, htype, hsender]

theorem matches_signal_iff (hown : ∀ name, owner s.targetUniqueName = some name →
    name = s.targetUniqueName) {key : Bytes × Bytes} :
    (s.constraints (.signal key)).matches owner (msg.onBus destination) = true ↔
      msg.message.type = dbusMessageTypeSignal ∧ FromOwnObject s msg ∧ key ∈ keysOf msg := by
  have hinterface : (∀ c ∈ if key.1 = [] then [] else [MatchRule.Constraint.interface key.1],
      c.matches owner (msg.onBus destination) = true) ↔ key.1 = [] ∨ key.1 = msg.interface := by
    split
    case isTrue h => simp [h]
    case isFalse h =>
      simp only [List.forall_mem_singleton, MatchRule.matches_interface_iff, h, false_or]
      exact eq_comm
  have hsignal : (∀ c ∈ if key.2 = [] then [] else [MatchRule.Constraint.member key.2],
      c.matches owner (msg.onBus destination) = true) ↔ key.2 = [] ∨ key.2 = msg.name := by
    split
    case isTrue h => simp [h]
    case isFalse h =>
      simp only [List.forall_mem_singleton, MatchRule.matches_member_iff, h, false_or]
      exact eq_comm
  rw [State.constraints, List.append_assoc, List.cons_append, List.cons_append, List.cons_append,
    matches_start_iff hown, List.nil_append, MatchRule.Rule.matches_iff, List.forall_mem_append,
    hinterface, hsignal, mem_keysOf_iff, FromOwnObject, and_assoc]

/-- The special callback for a change, as what it is installed for. -/
def Change.watch (s : State) : Change → Watch
  | .interfacesAdded => .interfacesAdded s.ifaceAddOmRoot
  | .interfacesRemoved => .interfacesRemoved s.ifaceDelOmRoot
  | .propertiesChanged => .propertiesChanged

theorem watches_watch_iff {change : Change} :
    s.watches (change.watch s) ↔ s.installed change = true := by
  cases change <;> simp [Change.watch, State.watches, State.installed]

theorem constraints_watch (s : State) (change : Change) :
    s.constraints (change.watch s) =
      [.type (text "signal"), .sender s.targetUniqueName, .path (s.origin change),
        .interface change.interface, .member change.name] ++
      if change = .propertiesChanged then [] else [.argPath 0 s.opath] := by
  cases change <;> rfl

/-- What is installed is a signal callback or one of the special callbacks. -/
theorem watches_cases {w : Watch} (h : s.watches w) :
    (∃ key, w = .signal key ∧ key ∈ s.callbacks) ∨
      ∃ change : Change, w = change.watch s ∧ s.installed change = true := by
  cases w with
  | signal key => exact .inl ⟨key, rfl, h⟩
  | interfacesAdded omRoot =>
    obtain ⟨hinstalled, rfl⟩ := h
    exact .inr ⟨.interfacesAdded, rfl, hinstalled⟩
  | interfacesRemoved omRoot =>
    obtain ⟨hinstalled, rfl⟩ := h
    exact .inr ⟨.interfacesRemoved, rfl, hinstalled⟩
  | propertiesChanged => exact .inr ⟨.propertiesChanged, rfl, h⟩

theorem matches_watch_iff (hown : ∀ name, owner s.targetUniqueName = some name →
    name = s.targetUniqueName) {change : Change} :
    (s.constraints (change.watch s)).matches owner (msg.onBus destination) = true ↔
      msg.message.type = dbusMessageTypeSignal ∧ msg.sender = s.targetUniqueName ∧
        msg.path = s.origin change ∧ msg.interface = change.interface ∧ msg.name = change.name ∧
        (change ≠ .propertiesChanged → (MatchRule.Constraint.argPath 0 s.opath).matches owner
          (msg.onBus destination) = true) := by
  have hargs : (∀ c ∈ if change = .propertiesChanged then [] else
      [MatchRule.Constraint.argPath 0 s.opath], c.matches owner (msg.onBus destination) = true) ↔
        (change ≠ .propertiesChanged → (MatchRule.Constraint.argPath 0 s.opath).matches owner
          (msg.onBus destination) = true) := by
    split
    case isTrue h => simp [h]
    case isFalse h => simp [h]
  rw [constraints_watch, List.cons_append, List.cons_append, List.cons_append,
    matches_start_iff hown, MatchRule.Rule.matches_iff, List.forall_mem_append, hargs]
  simp only [List.forall_mem_cons, MatchRule.matches_interface_iff, MatchRule.matches_member_iff,
    Received.onBus, List.not_mem_nil, false_implies, implies_true, and_true, and_assoc]

/-- The first argument of a signal about the object of the proxy. -/
theorem matches_argPath_of_object (hobject : msg.objectPathArg = some s.opath) :
    (MatchRule.Constraint.argPath 0 s.opath).matches owner (msg.onBus destination) = true := by
  apply MatchRule.matches_argPath_self
  unfold Received.objectPathArg at hobject
  split at hobject
  case h_1 path rest hbody =>
    obtain rfl := Option.some.inj hobject
    simp [Received.onBus, hbody, argOf]
  case h_2 => cases hobject

/-- The rule of a callback matches the signals that the callback is for. -/
theorem Wanted.matches (h : Wanted s msg) (hown : ∀ name, owner s.targetUniqueName = some name →
    name = s.targetUniqueName) :
    ∃ w, s.watches w ∧ (s.constraints w).matches owner (msg.onBus destination) = true := by
  cases h with
  | @special change hformed hinterested =>
    refine ⟨change.watch s, watches_watch_iff.mpr hinterested.installed, ?_⟩
    refine (matches_watch_iff hown).mpr ⟨hformed.type, hinterested.sender, hinterested.origin,
      hformed.interface, hformed.name, fun hkind => ?_⟩
    exact matches_argPath_of_object (hinterested.object hkind)
  | @signal key htype hown' hkey =>
    obtain ⟨before, after, hkeys, hmem, -⟩ := hkey
    refine ⟨.signal key, hmem, (matches_signal_iff hown).mpr ⟨htype, hown', ?_⟩⟩
    rw [hkeys]
    exact List.mem_append_right _ List.mem_cons_self

end Matches

/-! ## The callback that is called -/

/-- The arguments are those of the signal, and the object that it is about is the proxy's. -/
structure AboutProxy (change : Change) (s : State) (msg : Received) : Prop where
  arguments : msg.message.body.map Wire.signature = change.arguments
  object : change ≠ .propertiesChanged → msg.objectPathArg = some s.opath

/-- For a signal that the bus finds in the rule of a callback, `on_signal` calls one callback;
    what an object manager tells of other objects is left out, which the bus sends too where one
    of the two paths ends with a slash. -/
theorem called_of_asked {p : Registered} (hclean : CleanNames p.proxy) {w : Watch}
    (hw : p.proxy.watches w) {owner : Bytes → Option Bytes}
    (hown : ∀ name, owner p.proxy.targetUniqueName = some name →
      name = p.proxy.targetUniqueName) {msg : Received} {destination : Bytes}
    (hvalid : ∀ w ∈ msg.message.body, w.Valid) {constraints : MatchRule.Rule}
    (hread : MatchRule.read (cStr (p.proxy.ruleOf w)) = some constraints)
    (hmatches : constraints.matches owner (msg.onBus destination) = true)
    (habout : ∀ change, w = Change.watch p.proxy change → AboutProxy change p.proxy msg) :
    ∃ handled event, Settles (fun fuel => onSignal fuel p msg) (.ok (handled, [event])) := by
  rw [read_ruleOf hclean.sender hclean.path (hclean.watched w hw)] at hread
  obtain rfl := Option.some.inj hread
  obtain ⟨key, rfl, hkey⟩ | ⟨change, rfl, hinstalled⟩ := watches_cases hw
  · obtain ⟨-, hobject, hkeys⟩ := (matches_signal_iff hown).mp hmatches
    obtain ⟨handled, events, hrun, hright⟩ := onSignal_settles hvalid p
    have hcalls : CallsRight p.proxy msg events := by
      refine hright.mpr ?_
      rintro ⟨change, hpassed⟩
      exact absurd hobject.2 hpassed.path
    obtain ⟨event, -, rfl, -⟩ | ⟨first, -, rfl⟩ | ⟨-, hnone⟩ := hcalls.choice hobject
    · exact ⟨handled, event, hrun⟩
    · exact ⟨handled, .signal first, hrun⟩
    · exact absurd hkey (hnone key hkeys)
  · obtain ⟨htype, hsender, horigin, hinterface, hname, -⟩ := (matches_watch_iff hown).mp hmatches
    obtain ⟨hargs, hobject⟩ := habout change rfl
    obtain ⟨event, -, hhandler⟩ :=
      handler_settles ⟨htype, hinterface, hname, hvalid, hargs⟩ p.proxy
    rw [if_pos hobject] at hhandler
    refine ⟨true, event, hhandler.mono fun fuel hfuel => ?_⟩
    have htaken : p.proxy.installed change = true ∧ msg.path = p.proxy.origin change :=
      ⟨hinstalled, horigin⟩
    simp only [onSignal_eq hinterface hname hsender, if_pos htaken, hfuel, elseSignalCallback_some]

/-! ## Runs -/

theorem needs_of_watches {s : State} {w : Watch} (h : s.watches w) : Needs s (s.ruleOf w) := by
  obtain ⟨key, rfl, hkey⟩ | ⟨change, rfl, hinstalled⟩ := watches_cases h
  · exact .signal hkey
  · cases change with
    | interfacesAdded => exact .added hinstalled
    | interfacesRemoved => exact .removed hinstalled
    | propertiesChanged => exact .props hinstalled

theorem inv_initial (target opath : Bytes) : Inv (initial target opath) := by
  have hnone : ∀ rule, ¬ Needs (initial target opath) rule := by
    intro rule hneeds
    cases hneeds with
    | signal hkey => cases hkey
    | added hcb => cases hcb
    | removed hcb => cases hcb
    | props hcb => cases hcb
  exact ⟨fun rule hneeds => absurd hneeds (hnone rule),
    fun rule hneeds => absurd hneeds (hnone rule), nofun, List.nodup_nil⟩

/-- In every run in which a rule that two callbacks share is not removed, the proxy has asked
    the bus for every signal that one of its callbacks is for. -/
theorem asked_of_wanted {s : State} (h : system.ReachableWhen CommonRuleStays s)
    (hclean : CleanNames s) {owner : Bytes → Option Bytes}
    (hown : ∀ name, owner s.targetUniqueName = some name → name = s.targetUniqueName)
    {msg : Received} (hwanted : Wanted s msg) (destination : Bytes) :
    ∃ rule ∈ s.matchRules, ∃ constraints, MatchRule.read (cStr rule) = some constraints ∧
      constraints.matches owner (msg.onBus destination) = true := by
  have hinv : Inv s := by
    apply h.invariant
    case initial =>
      rintro _ ⟨target, opath, rfl⟩
      exact inv_initial target opath
    case preserved => exact fun _ _ _ => inv_step
  obtain ⟨w, hw, hmatches⟩ := hwanted.matches hown
  refine ⟨s.ruleOf w, hinv.kept _ (needs_of_watches hw), s.constraints w, ?_, hmatches⟩
  exact read_ruleOf hclean.sender hclean.path (hclean.watched w hw)

/-- A proxy for `/a` of `:1.5` with a callback for changed properties. -/
def propertiesLabels : List Label := [.setPropertiesChangedCallback true none true]

theorem cleanNames_watcher : CleanNames (watcher (text "/a")).proxy := by
  refine ⟨by decide, by decide, fun w hw => ?_⟩
  obtain ⟨key, rfl, hkey⟩ | ⟨change, rfl, hinstalled⟩ := watches_cases hw
  · cases hkey
  · cases change with
    | propertiesChanged => exact nofun
    | _ => cases hinstalled

/-- The bus is asked for the signal that a property of `/a` has changed. -/
theorem propertiesChangedMessage_asked :
    ∃ rule ∈ (watcher (text "/a")).proxy.matchRules, ∃ constraints,
      MatchRule.read (cStr rule) = some constraints ∧
      constraints.matches (fun _ => none) (propertiesChangedMessage.onBus []) = true := by
  have hreachable : system.ReachableWhen CommonRuleStays (watcher (text "/a")).proxy :=
    TransitionSystem.reachableWhen_of_run propertiesLabels ⟨text ":1.5", text "/a", rfl⟩
      ⟨trivial, trivial⟩ rfl
  refine asked_of_wanted hreachable cleanNames_watcher (by simp) (.special
    propertiesChangedMessage_wellFormed ⟨by decide, by decide, by decide, fun h => absurd rfl h⟩) _

/-- The signal that is asked for leads to a call of the callback. -/
theorem propertiesChangedMessage_called : ∃ handled event,
    Settles (fun fuel => onSignal fuel (watcher (text "/a")) propertiesChangedMessage)
      (.ok (handled, [event])) := by
  have hwatched : (watcher (text "/a")).proxy.watches .propertiesChanged := rfl
  have hmatches : ((watcher (text "/a")).proxy.constraints .propertiesChanged).matches
      (fun _ => none) (propertiesChangedMessage.onBus []) = true := by
    decide +kernel
  have hread := read_ruleOf cleanNames_watcher.sender cleanNames_watcher.path
    (cleanNames_watcher.watched _ hwatched)
  refine called_of_asked cleanNames_watcher hwatched (by simp)
    propertiesChangedMessage_wellFormed.valid hread hmatches fun change hw => ?_
  cases change with
  | propertiesChanged => exact ⟨rfl, fun h => absurd rfl h⟩
  | _ => cases hw

end Ultrabus.Proxy
