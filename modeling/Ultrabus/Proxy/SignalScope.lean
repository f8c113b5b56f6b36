import Ultrabus.Message.TypedTargets
import Ultrabus.Proxy.Signals

/-! # Which signal callback is called

`object_proxy::on_signal` on any message: the signal callbacks are for signals of the proxy's
own object, and the one that is set for the most of a signal's interface and name comes first.
A signal of an object manager that its handler refuses is left to them too, from whatever path
it comes. -/

namespace Ultrabus.Proxy

open Exec (Settles)

/-- The keys under which a callback for the signal is looked for, in this order. -/
def keysOf (msg : Received) : List (Bytes × Bytes) :=
  [(msg.interface, msg.name), ([], msg.name), (msg.interface, []), ([], [])]

/-- The key is the first of them that a callback is set for. -/
def FirstKey (callbacks : List (Bytes × Bytes)) (msg : Received) (key : Bytes × Bytes) : Prop :=
  ∃ before after, keysOf msg = before ++ key :: after ∧ key ∈ callbacks ∧
    ∀ k ∈ before, k ∉ callbacks

/-- The signal comes from the object of the proxy. -/
def FromOwnObject (s : State) (msg : Received) : Prop :=
  msg.sender = s.targetUniqueName ∧ msg.path = s.opath

/-- What `on_signal` calls: a signal callback only for a signal from the proxy's object, and then
    the one under the first key, if no special callback has handled the signal. -/
structure CallsRight (s : State) (msg : Received) (events : List Event) : Prop where
  scope : ∀ key, .signal key ∈ events → FromOwnObject s msg
  choice : FromOwnObject s msg →
    (∃ event change, events = [event] ∧ event.change? = some change) ∨
    (∃ key, FirstKey s.callbacks msg key ∧ events = [.signal key]) ∨
    (events = [] ∧ ∀ key ∈ keysOf msg, key ∉ s.callbacks)

/-- `on_signal` returns and calls what it should. -/
def SignalScoped (p : Registered) (msg : Received) : Prop :=
  ∃ handled events, Settles (fun fuel => onSignal fuel p msg) (.ok (handled, events)) ∧
    CallsRight p.proxy msg events

/-- The signal is one of an object manager about the object of the proxy. -/
structure AboutOwnObject (change : Change) (s : State) (msg : Received) : Prop where
  arguments : change.arguments <+: msg.message.body.map Wire.signature
  object : msg.objectPathArg = some s.opath

/-- The handler for one of the signals of an object manager gets a signal from another path and
    refuses it. -/
structure PassedOn (change : Change) (s : State) (msg : Received) : Prop where
  sender : msg.sender = s.targetUniqueName
  kind : change ≠ .propertiesChanged
  installed : s.installed change = true
  interface : msg.interface = change.interface
  name : msg.name = change.name
  origin : msg.path = s.origin change
  path : msg.path ≠ s.opath
  refused : ¬ AboutOwnObject change s msg

/-! ## Handlers on any message -/

section Handlers

variable {msg : Received} (hvalid : ∀ w ∈ msg.message.body, w.Valid)

include hvalid

/-- Arguments of other types than a path and what is to come behind it are refused. -/
theorem getArgs_of_not_prefix {second : DbusType} (hfits : second.ClassFits)
    (hentries : second.isEntryArray = false)
    (hargs : ¬ [text "o", second.signature] <+: msg.message.body.map Wire.signature) :
    ∃ after, Settles (fun fuel => msg.message.getArgs fuel true
      (.dbus (.basic (.objectPath (text "/")))) [.dbus second]) (.ok (false, after)) := by
  obtain ⟨args, hreads⟩ := exists_forall₂ fun w hw => (hvalid w hw).exists_reads
  have hallFit : ∀ target ∈ [.basic (.objectPath (text "/")), second], target.ClassFits :=
    List.forall_mem_cons.mpr ⟨trivial, by simpa using hfits⟩
  have hnoEntries : ∀ target ∈ [.basic (.objectPath (text "/")), second],
      target.isEntryArray = false :=
    List.forall_mem_cons.mpr ⟨rfl, by simpa using hentries⟩
  have hrun := msg.message.getArgs_strict hreads hallFit hnoEntries
  have hsignatures := readPrefix_found_iff args [.basic (.objectPath (text "/")), second]
  rw [signatures_of_reads hreads] at hsignatures
  have hnot : (readPrefix args [.basic (.objectPath (text "/")), second]).1 = false :=
    Bool.eq_false_iff.mpr fun hfound => hargs (hsignatures.mp hfound)
  rw [hnot] at hrun
  exact ⟨_, hrun⟩

/-- The handlers of the signals of an object manager take exactly those about the proxy's
    object. -/
theorem objectHandler_settles {change : Change} (hkind : change ≠ .propertiesChanged) (s : State) :
    ∃ called, Settles (fun fuel => change.handler fuel s msg) (.ok called) ∧
      (called = none ↔ ¬ AboutOwnObject change s msg) ∧
      ∀ event ∈ called, event.change? = some change := by
  by_cases hargs : change.arguments <+: msg.message.body.map Wire.signature
  · have hhandler : ∃ event : Event, event.change? = some change ∧
        Settles (fun fuel => change.handler fuel s msg)
          (.ok (if msg.objectPathArg = some s.opath then some event else none)) := by
      cases change with
      | interfacesAdded => exact onIfaceAdded_settles hvalid hargs s
      | interfacesRemoved => exact onIfaceRemoved_settles hvalid hargs s
      | propertiesChanged => exact absurd rfl hkind
    obtain ⟨event, hevent, hrun⟩ := hhandler
    refine ⟨_, hrun, ?_, ?_⟩
    · by_cases hobject : msg.objectPathArg = some s.opath
      · simp [hobject, AboutOwnObject.mk hargs hobject]
      · rw [if_neg hobject]
        exact iff_of_true rfl fun h => hobject h.object
    · intro called hcalled
      split at hcalled
      · obtain rfl := Option.some.inj hcalled
        exact hevent
      · cases hcalled
  · refine ⟨none, ?_, iff_of_true rfl fun h => hargs h.arguments, by simp⟩
    cases change with
    | interfacesAdded =>
      have hfits : (DbusType.dict .string (text "a{sa{sv}}") []).ClassFits := ⟨text "a{sv}", rfl⟩
      obtain ⟨after, hrun⟩ := getArgs_of_not_prefix hvalid hfits rfl hargs
      refine hrun.mono fun fuel hfuel => ?_
      simp [Change.handler, onIfaceAdded, hfuel]
    | interfacesRemoved =>
      have hfits : (DbusType.array (text "as") []).ClassFits := rfl
      obtain ⟨after, hrun⟩ := getArgs_of_not_prefix hvalid hfits rfl hargs
      refine hrun.mono fun fuel hfuel => ?_
      simp [Change.handler, onIfaceRemoved, hfuel]
    | propertiesChanged => exact absurd rfl hkind

omit hvalid in
/-- Whatever has been read, the handler of changed properties only makes an event of it. -/
theorem onPropertiesChanged_of_args {fuel : Nat} {result : Bool × List Target}
    (h : msg.message.getArgs fuel true (.cpp ⟨.string [], rfl⟩)
      [.dbus (.dict .string (text "a{sv}") []), .dbus (.array (text "as") [])] = .ok result) :
    ∃ called, onPropertiesChanged fuel msg = .ok called ∧
      ∀ event ∈ called, event.change? = some .propertiesChanged := by
  simp only [onPropertiesChanged, h, Exec.ok_bind]
  split
  · refine ⟨_, rfl, fun event hevent => ?_⟩
    obtain rfl := Option.some.inj hevent
    rfl
  · exact ⟨none, rfl, by simp⟩

/-- The handler of changed properties returns. -/
theorem onPropertiesChanged_returns :
    ∃ called, Settles (fun fuel => onPropertiesChanged fuel msg) (.ok called) ∧
      ∀ event ∈ called, event.change? = some .propertiesChanged := by
  let targets : List Target := [.cpp ⟨.string [], rfl⟩, .dbus (.dict .string (text "a{sv}") []),
    .dbus (.array (text "as") [])]
  have hfits : ∀ arg ∈ targets, arg.Fits := by
    simp only [targets, List.forall_mem_cons, List.not_mem_nil, false_implies, implies_true,
      and_true]
    exact ⟨trivial, ⟨text "v", rfl⟩, rfl⟩
  have hclashes : ¬ Clashes true targets msg.message.body := by
    apply not_clashes_of_strict
    intro arg harg
    simp only [targets, List.mem_cons, Target.dbus.injEq, reduceCtorEq, List.not_mem_nil,
      or_false, false_or] at harg
    obtain rfl | rfl := harg <;> rfl
  obtain ⟨hclash, -⟩ | ⟨-, found, after, hrun, -⟩ := getArgsImpl_settles true hfits hvalid
  · exact absurd hclash hclashes
  · have hargs := msg.message.getArgs_settles hrun fun hbody => by
      rw [hbody] at hrun
      exact hrun.unique (.of_forall fun fuel => rfl)
    obtain ⟨start, hstart⟩ := hargs.exists
    obtain ⟨called, hcalled, hevent⟩ := onPropertiesChanged_of_args hstart
    refine ⟨called, hargs.mono fun fuel hfuel => ?_, hevent⟩
    rw [← hcalled]
    simp only [onPropertiesChanged, hfuel, hstart]

/-- Every handler returns, and those for the signals of an object manager take exactly those
    about the proxy's object. -/
theorem handler_returns (change : Change) (s : State) :
    ∃ called, Settles (fun fuel => change.handler fuel s msg) (.ok called) ∧
      (change ≠ .propertiesChanged → (called = none ↔ ¬ AboutOwnObject change s msg)) ∧
      ∀ event ∈ called, event.change? = some change := by
  by_cases hkind : change = .propertiesChanged
  case pos =>
    obtain rfl := hkind
    obtain ⟨called, hrun, hevent⟩ := onPropertiesChanged_returns hvalid
    exact ⟨called, hrun, fun h => absurd rfl h, hevent⟩
  case neg =>
    obtain ⟨called, hrun, hnone, hevent⟩ := objectHandler_settles hvalid hkind s
    exact ⟨called, hrun, fun _ => hnone, hevent⟩

end Handlers

/-! ## The callback that is called -/

theorem findCallback_eq_some_iff (callbacks : List (Bytes × Bytes)) (msg : Received)
    (key : Bytes × Bytes) :
    findCallback callbacks msg.interface msg.name = some key ↔ FirstKey callbacks msg key := by
  simp only [findCallback, FirstKey, keysOf, List.find?_eq_some_iff_append, List.contains_iff_mem,
    Bool.not_eq_true', ← Bool.not_eq_true]
  constructor
  · rintro ⟨hkey, before, after, hkeys, hbefore⟩
    exact ⟨before, after, hkeys, hkey, hbefore⟩
  · rintro ⟨before, after, hkeys, hkey, hbefore⟩
    exact ⟨hkey, before, after, hkeys, hbefore⟩

theorem findCallback_eq_none_iff (callbacks : List (Bytes × Bytes)) (msg : Received) :
    findCallback callbacks msg.interface msg.name = none ↔
      ∀ key ∈ keysOf msg, key ∉ callbacks := by
  simp only [findCallback, keysOf, List.find?_eq_none, List.contains_iff_mem]

/-- What is left to the signal callbacks goes to the right one, if it is from the right object. -/
theorem callSignalCallback_callsRight_iff (p : Registered) (msg : Received) :
    CallsRight p.proxy msg (callSignalCallback p msg).2 ↔
      (∀ key ∈ keysOf msg, key ∉ p.proxy.callbacks) ∨ FromOwnObject p.proxy msg := by
  rw [← findCallback_eq_none_iff]
  cases hfind : findCallback p.proxy.callbacks msg.interface msg.name with
  | none =>
    have hevents : (callSignalCallback p msg).2 = [] := by rw [callSignalCallback, hfind]
    rw [hevents]
    refine iff_of_true ⟨fun key hkey => absurd hkey List.not_mem_nil, fun _ => ?_⟩ (.inl rfl)
    exact .inr (.inr ⟨rfl, (findCallback_eq_none_iff _ _).mp hfind⟩)
  | some key =>
    have hevents : (callSignalCallback p msg).2 = [.signal key] := by
      rw [callSignalCallback, hfind]
    rw [hevents]
    simp only [reduceCtorEq, false_or]
    constructor
    · exact fun h => h.scope key List.mem_cons_self
    · intro hown
      refine ⟨fun _ _ => hown, fun _ => .inr (.inl ⟨key, ?_, rfl⟩)⟩
      exact (findCallback_eq_some_iff _ _ _).mp hfind

/-! ## The whole of `on_signal` -/

/-- A special callback that is called is no signal callback, and the only one that is called. -/
theorem callsRight_special (s : State) (msg : Received) {event : Event} {change : Change}
    (hevent : event.change? = some change) : CallsRight s msg [event] where
  scope _ hkey := by
    obtain rfl := List.mem_singleton.mp hkey
    cases hevent
  choice _ := .inl ⟨event, change, rfl, hevent⟩

/-- Nothing is called for a signal from elsewhere. -/
theorem callsRight_nil {s : State} {msg : Received} (h : ¬ FromOwnObject s msg) :
    CallsRight s msg [] where
  scope _ hkey := absurd hkey List.not_mem_nil
  choice hown := absurd hown h

/-- A signal that no special callback is installed for goes to the signal callbacks exactly if
    it comes from the object of the proxy. -/
theorem onSignal_ordinary {p : Registered} {msg : Received}
    (hsender : msg.sender = p.proxy.targetUniqueName)
    (hnone : ∀ change : Change, msg.interface = change.interface → msg.name = change.name →
      ¬ (p.proxy.installed change = true ∧ msg.path = p.proxy.origin change)) (fuel : Nat) :
    onSignal fuel p msg =
      if msg.path ≠ p.proxy.opath then .ok (false, []) else .ok (callSignalCallback p msg) := by
  rw [onSignal, if_neg (not_not.mpr hsender), if_neg, if_neg]
  · split
    case isTrue => rfl
    case isFalse hpath =>
      rw [if_neg]
      · rfl
      · rintro ⟨hinstalled, hinterface, hname⟩
        exact hnone .propertiesChanged hinterface hname ⟨hinstalled, not_not.mp hpath⟩
  · rintro ⟨hinstalled, hinterface, hname, hpath⟩
    exact hnone .interfacesRemoved hinterface hname ⟨hinstalled, hpath⟩
  · rintro ⟨hinstalled, hinterface, hname, hpath⟩
    exact hnone .interfacesAdded hinterface hname ⟨hinstalled, hpath⟩

theorem Change.name_injective : Function.Injective Change.name := by
  intro a b hname
  cases a <;> cases b <;> first | rfl | exact absurd hname (by decide)

/-- Where the signals that are passed on are the foreign ones, leaving a signal to the signal
    callbacks is right unless it is passed on and one of them takes it. -/
theorem callSignalCallback_of_passedOn_iff {p : Registered} {msg : Received}
    (h : (∃ change, PassedOn change p.proxy msg) ↔ ¬ FromOwnObject p.proxy msg) :
    CallsRight p.proxy msg (callSignalCallback p msg).2 ↔
      ((∃ change, PassedOn change p.proxy msg) →
        ∀ key ∈ keysOf msg, key ∉ p.proxy.callbacks) := by
  rw [callSignalCallback_callsRight_iff, or_iff_not_imp_right, h]

/-- A signal that a special callback is installed for. -/
theorem onSignal_settles_special {p : Registered} {msg : Received}
    (hvalid : ∀ w ∈ msg.message.body, w.Valid) {change : Change}
    (hsender : msg.sender = p.proxy.targetUniqueName)
    (hinterface : msg.interface = change.interface) (hname : msg.name = change.name)
    (hinstalled : p.proxy.installed change = true) (horigin : msg.path = p.proxy.origin change) :
    ∃ handled events, Settles (fun fuel => onSignal fuel p msg) (.ok (handled, events)) ∧
      (CallsRight p.proxy msg events ↔
        ((∃ change, PassedOn change p.proxy msg) →
          ∀ key ∈ keysOf msg, key ∉ p.proxy.callbacks)) := by
  have honSignal := onSignal_eq hinterface hname hsender
  simp only [if_pos (And.intro hinstalled horigin)] at honSignal
  obtain ⟨called, hhandler, hnone, hevent⟩ := handler_returns hvalid change p.proxy
  cases called with
  | some event =>
    refine ⟨true, [event], hhandler.mono fun fuel hfuel => ?_, iff_of_true ?_ ?_⟩
    · simp only [honSignal, hfuel, elseSignalCallback_some]
    · exact callsRight_special _ _ (hevent event rfl)
    · rintro ⟨change', hpassed⟩
      obtain rfl := Change.name_injective (hpassed.name.symm.trans hname)
      exact absurd ((hnone hpassed.kind).mpr hpassed.refused) (Option.some_ne_none event)
  | none =>
    have hforeign : (∃ change, PassedOn change p.proxy msg) ↔ ¬ FromOwnObject p.proxy msg := by
      constructor
      · rintro ⟨change', hpassed⟩ hown
        exact hpassed.path hown.2
      · intro hforeign
        -- Changed properties are only looked at if they are of the proxy's object.
        have hpath : msg.path ≠ p.proxy.opath := fun hpath => hforeign ⟨hsender, hpath⟩
        have hkind : change ≠ .propertiesChanged := by
          rintro rfl
          exact hpath horigin
        exact ⟨change, hsender, hkind, hinstalled, hinterface, hname, horigin, hpath,
          (hnone hkind).mp rfl⟩
    refine ⟨(callSignalCallback p msg).1, (callSignalCallback p msg).2,
      hhandler.mono fun fuel hfuel => ?_, callSignalCallback_of_passedOn_iff hforeign⟩
    simp only [honSignal, hfuel, elseSignalCallback_none]

/-- What `on_signal` calls is decided by whether it passes an object manager's signal on that
    comes from another path. -/
theorem onSignal_settles {msg : Received} (hvalid : ∀ w ∈ msg.message.body, w.Valid)
    (p : Registered) :
    ∃ handled events, Settles (fun fuel => onSignal fuel p msg) (.ok (handled, events)) ∧
      (CallsRight p.proxy msg events ↔
        ((∃ change, PassedOn change p.proxy msg) →
          ∀ key ∈ keysOf msg, key ∉ p.proxy.callbacks)) := by
  by_cases hsender : msg.sender = p.proxy.targetUniqueName
  case neg =>
    refine ⟨false, [], .of_forall fun fuel => if_pos hsender, iff_of_true ?_ ?_⟩
    · exact callsRight_nil fun hown => hsender hown.1
    · rintro ⟨change, hpassed⟩
      exact absurd hpassed.sender hsender
  case pos =>
    by_cases hspecial : ∃ change : Change, msg.interface = change.interface ∧
        msg.name = change.name ∧ p.proxy.installed change = true ∧
        msg.path = p.proxy.origin change
    · obtain ⟨change, hinterface, hname, hinstalled, horigin⟩ := hspecial
      exact onSignal_settles_special hvalid hsender hinterface hname hinstalled horigin
    · have hnone : ¬ ∃ change, PassedOn change p.proxy msg := by
        rintro ⟨change, h⟩
        exact hspecial ⟨change, h.interface, h.name, h.installed, h.origin⟩
      have honSignal := onSignal_ordinary hsender fun change hinterface hname hcalled =>
        hspecial ⟨change, hinterface, hname, hcalled⟩
      by_cases hpath : msg.path = p.proxy.opath
      · simp only [if_neg (not_not.mpr hpath)] at honSignal
        exact ⟨_, _, .of_forall honSignal, callSignalCallback_of_passedOn_iff
          (iff_of_false hnone (not_not.mpr ⟨hsender, hpath⟩))⟩
      · simp only [if_pos hpath] at honSignal
        refine ⟨false, [], .of_forall honSignal, iff_of_true ?_ fun h => absurd h hnone⟩
        exact callsRight_nil fun hown => hpath hown.2

/-- The signal callbacks see the signals of the proxy's object only, and the right one of them is
    called, exactly if no callback is set for a signal of an object manager that comes from
    another path and is refused by the handler for it. -/
theorem signalScoped_iff {msg : Received} (hvalid : ∀ w ∈ msg.message.body, w.Valid)
    (p : Registered) :
    SignalScoped p msg ↔
      ((∃ change, PassedOn change p.proxy msg) →
        ∀ key ∈ keysOf msg, key ∉ p.proxy.callbacks) := by
  obtain ⟨handled, events, hrun, hiff⟩ := onSignal_settles hvalid p
  rw [← hiff]
  constructor
  · rintro ⟨handled', events', hrun', hright⟩
    obtain ⟨rfl, rfl⟩ := Prod.mk.inj (Exec.ok.inj (hrun'.unique hrun))
    exact hright
  · exact fun hright => ⟨handled, events, hrun, hright⟩

/-- A proxy for `/a` of `:1.5` with a callback for the interfaces that the object manager `/`
    adds and a callback for every signal of the object. -/
def managedWatcher : Registered where
  proxy :=
    let s := (setInterfacesAddedCallback (initial (text ":1.5") (text "/a")) true (text "/") none
      true true).1
    (setSignalCallback s [] [] true none true).1
  returns _ _ := false

/-- A signal of the object itself reaches the callback for every signal. -/
theorem propertiesChangedMessage_signalScoped :
    SignalScoped managedWatcher propertiesChangedMessage := by
  refine (signalScoped_iff propertiesChangedMessage_wellFormed.valid _).mpr ?_
  rintro ⟨change, h⟩
  exact absurd rfl h.path

/-- The object manager of `:1.5` has a new object `/b`. -/
def interfacesAddedMessage : Received where
  sender := text ":1.5"
  path := text "/"
  interface := dbusIfaceObjectManager
  name := text "InterfacesAdded"
  message := {
    ctx := some {
      type := dbusMessageTypeSignal
      body := [.basic (.objectPath (text "/b")),
        .array (dictEntrySignature .string (text "a{sv}"))
          (([] : List (Basic × Wire)).map Wire.entry)] } }

theorem interfacesAddedMessage_wellFormed : WellFormed .interfacesAdded interfacesAddedMessage where
  type := rfl
  interface := rfl
  name := rfl
  valid := by
    intro w hw
    simp only [interfacesAddedMessage, Message.body, List.mem_cons, List.not_mem_nil,
      or_false] at hw
    obtain rfl | rfl := hw
    · exact .basic (by decide +kernel)
    · exact .dict (by decide) (by decide) (by decide) fun e he => absurd he List.not_mem_nil
  arguments := rfl

/-- The callback for the signals of `/a` gets the signal of `/` about `/b`. -/
theorem interfacesAddedMessage_not_signalScoped :
    WellFormed .interfacesAdded interfacesAddedMessage ∧
      ¬ SignalScoped managedWatcher interfacesAddedMessage := by
  refine ⟨interfacesAddedMessage_wellFormed, ?_⟩
  rintro ⟨handled, events, hrun, hright⟩
  obtain ⟨handled', events', hrun', hiff⟩ :=
    onSignal_settles interfacesAddedMessage_wellFormed.valid managedWatcher
  obtain ⟨rfl, rfl⟩ := Prod.mk.inj (Exec.ok.inj (hrun.unique hrun'))
  have hpassed : PassedOn .interfacesAdded managedWatcher.proxy interfacesAddedMessage := {
    sender := rfl
    kind := by simp
    installed := rfl
    interface := rfl
    name := rfl
    origin := rfl
    path := by decide
    refused := fun h => absurd h.object (by decide) }
  apply hiff.mp hright ⟨_, hpassed⟩ ([], [])
  · simp [keysOf]
  · exact List.mem_cons_self

end Ultrabus.Proxy
