import Mathlib.Data.List.AList
import Ultrabus.Interfaces.ManagedObjects
import Ultrabus.Proxy.RuleMeaning

/-! # Callbacks for changes

The callbacks of `org_freedesktop_DBus_ObjectManager` and `org_freedesktop_DBus_Properties`.  Both
are message filters and keep their callbacks under the unique name of a peer and the path of one of
its objects, with one match rule for each.

After any calls of their functions the callback that a signal leads to is the one that has been
set last for its sender and path, and the bus has been asked for exactly the signals for which
there is one. -/

namespace Ultrabus.Interfaces

open Exec (Settles)
open Bus (Retvalue)
open Proxy (Change Received Clean textOf setOfTexts emplaceIfaces dbusIfaceObjectManager
  dbusInterfaceProperties makePropsChangedRule)

/-! ## The rules -/

/-- The unique name of a peer and the path of one of its objects. -/
abbrev Key := Bytes × Bytes

def makeIfaceRule (member busName opath : Bytes) : Bytes :=
  text "type='signal',sender='" ++ busName ++ text "',path='" ++ opath ++
    text "',interface='org.freedesktop.DBus.ObjectManager',member='" ++ member ++ text "'"

def makeIfaceAddedRule : Bytes → Bytes → Bytes := makeIfaceRule (text "InterfacesAdded")

def makeIfaceRemovedRule : Bytes → Bytes → Bytes := makeIfaceRule (text "InterfacesRemoved")

def rule : Change → Key → Bytes
  | .interfacesAdded, key => makeIfaceAddedRule key.1 key.2
  | .interfacesRemoved, key => makeIfaceRemovedRule key.1 key.2
  | .propertiesChanged, key => makePropsChangedRule key.1 key.2

/-! ## Setting callbacks -/

variable {γ : Type}

/-- The maps of callbacks and `match_rules`.  An object of one of the two classes uses the maps of
    its own signals only. -/
structure State (γ : Type) where
  callbacks : Change → AList (fun _ : Key => γ)
  matchRules : Finset Bytes

/-- How a request to the bus comes out. -/
inductive Answer where
  | notConnected
  | error (what : Bytes)
  | accepted
deriving DecidableEq, Repr

def addMatch (s : State γ) (rule : Bytes) (answer : Answer) : State γ × Retvalue Bool :=
  match answer with
  | .notConnected => (s, (Retvalue.of false).err (-1) (text "Not connected"))
  | .error what =>
    if rule ∈ s.matchRules then (s, .of true) else (s, (Retvalue.of false).err (-1) what)
  | .accepted =>
    if rule ∈ s.matchRules then (s, .of true)
    else ({ s with matchRules := insert rule s.matchRules }, .of true)

def removeMatch (s : State γ) (rule : Bytes) (answer : Answer) : State γ × Retvalue Bool :=
  match answer with
  | .notConnected => (s, (Retvalue.of false).err (-1) (text "Not connected"))
  | .error what =>
    if rule ∉ s.matchRules then (s, .of true) else (s, (Retvalue.of false).err (-1) what)
  | .accepted => ({ s with matchRules := s.matchRules.erase rule }, .of true)

def State.setCallbacks (s : State γ) (change : Change) (callbacks : AList (fun _ : Key => γ)) :
    State γ :=
  { s with callbacks := Function.update s.callbacks change callbacks }

/-- The common body of `set_interfaces_added_callback_impl`, `set_interfaces_removed_callback_impl`
    and `set_properties_changed_callback_impl`; a null callback is none. -/
def setCallbackImpl (change : Change) (s : State γ) (key : Key) (callback : Option γ)
    (answer : Answer) : State γ × Retvalue Bool :=
  let callbacks := s.callbacks change
  match callback, callbacks.lookup key with
  | some callback, none =>
    -- Add callback
    let (s, ret) :=
      addMatch (s.setCallbacks change (callbacks.insert key callback)) (rule change key) answer
    (if !ret.value then s.setCallbacks change ((s.callbacks change).erase key) else s, ret)
  | some callback, some _ =>
    -- Replace callback
    (s.setCallbacks change (callbacks.insert key callback), .of true)
  | none, some _ =>
    -- Remove callback
    let (s, _) := removeMatch (s.setCallbacks change (callbacks.erase key)) (rule change key) answer
    (s, .of true)
  | none, none => (s, .of true)

section Functions

variable (dbusValidateBusName : Bytes → Bool)

/-- The common body of the three functions; `owner` is what `get_name_owner` returns. -/
def setCallback (change : Change) (s : State γ) (busName opath : Bytes) (callback : Option γ)
    (owner : Retvalue Bytes) (answer : Answer) : State γ × Retvalue Bool :=
  if !dbusValidateBusName (cStr busName) then
    (s, (Retvalue.of false).err (-1) (text "Invalid bus name"))
  else if !dbusValidatePath (cStr opath) then
    (s, (Retvalue.of false).err (-1) (text "Invalid object path"))
  else if busName.head? = some ':'.toUInt8 then
    setCallbackImpl change s (busName, opath) callback answer
  else if owner.errNum ≠ 0 then (s, (Retvalue.of false).err (-1) owner.errStr)
  else setCallbackImpl change s (owner.value, opath) callback answer

def setInterfacesAddedCallback :
    State γ → Bytes → Bytes → Option γ → Retvalue Bytes → Answer → State γ × Retvalue Bool :=
  setCallback dbusValidateBusName .interfacesAdded

def setInterfacesRemovedCallback :
    State γ → Bytes → Bytes → Option γ → Retvalue Bytes → Answer → State γ × Retvalue Bool :=
  setCallback dbusValidateBusName .interfacesRemoved

def setPropertiesChangedCallback :
    State γ → Bytes → Bytes → Option γ → Retvalue Bytes → Answer → State γ × Retvalue Bool :=
  setCallback dbusValidateBusName .propertiesChanged

end Functions

/-! ## Signals -/

/-- What a callback is told. -/
inductive Notice where
  | interfacesAdded (opath : Bytes) (ifaces : List (Bytes × DbusType))
  | interfacesRemoved (opath : Bytes) (ifaces : List Bytes)
  | propertiesChanged (ifaceName : Bytes) (changedProps : DbusType)
      (invalidatedProperties : List Bytes)

/-- The variables start as a `dbus_opath` and a `dbus_string_dict ("a{sv}")`. -/
def handleAddedIfaces (fuel : Nat) (msg : Received) (cb : γ) :
    Exec Exception (List (γ × Notice)) := do
  let args ← msg.message.getArgs fuel true (.dbus (.basic (.objectPath (text "/"))))
    [.dbus (.dict .string (text "a{sa{sv}}") [])]
  match args with
  | (true, [.dbus opath, .dbus (.dict _ _ arg)]) =>
    let ifacesProps ← .ofExcept (emplaceIfaces [] arg)
    return [(cb, .interfacesAdded (textOf opath) ifacesProps)]
  | _ => return []

/-- The variables start as a `dbus_opath` and a `dbus_array ("s")`. -/
def handleRemovedIfaces (fuel : Nat) (msg : Received) (cb : γ) :
    Exec Exception (List (γ × Notice)) := do
  let args ← msg.message.getArgs fuel true (.dbus (.basic (.objectPath (text "/"))))
    [.dbus (.array (text "as") [])]
  match args with
  | (true, [.dbus opath, .dbus (.array _ arg)]) =>
    return [(cb, .interfacesRemoved (textOf opath) (setOfTexts arg))]
  | _ => return []

namespace ObjectManager

/-- `org_freedesktop_DBus_ObjectManager::on_signal`, with the calls that it makes. -/
def onSignal (fuel : Nat) (s : State γ) (msg : Received) :
    Exec Exception (Bool × List (γ × Notice)) := do
  if msg.interface ≠ dbusIfaceObjectManager then return (false, [])
  else if msg.name = text "InterfacesAdded" then
    match (s.callbacks .interfacesAdded).lookup (msg.sender, msg.path) with
    | none => return (false, [])
    | some cb => do
      let calls ← handleAddedIfaces fuel msg cb
      return (false, calls)
  else if msg.name = text "InterfacesRemoved" then
    match (s.callbacks .interfacesRemoved).lookup (msg.sender, msg.path) with
    | none => return (false, [])
    | some cb => do
      let calls ← handleRemovedIfaces fuel msg cb
      return (false, calls)
  else return (false, [])

end ObjectManager

namespace Properties

/-- `org_freedesktop_DBus_Properties::on_signal`; the arguments are read before the callback is
    looked for. -/
def onSignal (fuel : Nat) (s : State γ) (msg : Received) :
    Exec Exception (Bool × List (γ × Notice)) := do
  if msg.interface ≠ dbusInterfaceProperties ∨ msg.name ≠ text "PropertiesChanged" then
    return (false, [])
  else
    let args ← msg.message.getArgs fuel true (.cpp (.ofString []))
      [.dbus (.dict .string (text "a{sv}") []), .dbus (.array (text "as") [])]
    match args with
    | (true, [.cpp ifaceName, .dbus changedProps, .dbus (.array _ invalidatedProps)]) =>
      match (s.callbacks .propertiesChanged).lookup (msg.sender, msg.path) with
      | none => return (false, [])
      | some cb =>
        return (false, [(cb, .propertiesChanged (textOf (.basic ifaceName.value)) changedProps
          (setOfTexts invalidatedProps))])
    | _ => return (false, [])

end Properties

/-- The two classes. -/
inductive Filter where
  | objectManager | properties
deriving DecidableEq, Repr

def Filter.kinds : Filter → List Change
  | .objectManager => [.interfacesAdded, .interfacesRemoved]
  | .properties => [.propertiesChanged]

def Filter.onSignal (filter : Filter) (fuel : Nat) (s : State γ) (msg : Received) :
    Exec Exception (Bool × List (γ × Notice)) :=
  match filter with
  | .objectManager => ObjectManager.onSignal fuel s msg
  | .properties => Properties.onSignal fuel s msg

/-! ## What a signal says -/

/-- The text of a string, an object path or a signature, which all can be read as a string. -/
def textArg : Wire → Option Bytes
  | .basic (.string s) | .basic (.objectPath s) | .basic (.signature s) => some s
  | _ => none

/-- The arguments that the handler of a signal takes. -/
def Accepts (change : Change) (body : List Wire) : Prop :=
  match change with
  | .interfacesAdded => [text "o", text "a{sa{sv}}"] <+: body.map Wire.signature
  | .interfacesRemoved => [text "o", text "as"] <+: body.map Wire.signature
  | .propertiesChanged => ∃ first rest, body = first :: rest ∧ (textArg first).isSome = true ∧
      [text "a{sv}", text "as"] <+: rest.map Wire.signature

/-- The message has the interface, the name and the arguments of the signal. -/
structure Addressed (change : Change) (msg : Received) : Prop where
  interface : msg.interface = change.interface
  name : msg.name = change.name
  arguments : Accepts change msg.message.body

def stringsOf (names : List Bytes) : Wire :=
  .array (text "s") (names.map fun name => .basic (.string name))

/-- What the callback is told is what the arguments say. -/
inductive Describes : List Wire → Notice → Prop where
  | interfacesAdded {opath : Bytes} {w : Wire} {rest : List Wire}
      {ifaces : List (Bytes × DbusType)} : ShowsInterfaces w ifaces →
      Describes (.basic (.objectPath opath) :: w :: rest) (.interfacesAdded opath ifaces)
  | interfacesRemoved {opath : Bytes} {names : List Bytes} {rest : List Wire}
      {ifaces : List Bytes} : (∀ name, name ∈ ifaces ↔ name ∈ names) →
      Describes (.basic (.objectPath opath) :: stringsOf names :: rest)
        (.interfacesRemoved opath ifaces)
  | propertiesChanged {first : Wire} {ifaceName : Bytes} {w : Wire} {names : List Bytes}
      {rest : List Wire} {changedProps : DbusType} {invalidatedProperties : List Bytes} :
      textArg first = some ifaceName → ShowsProperties w changedProps →
      (∀ name, name ∈ invalidatedProperties ↔ name ∈ names) →
      Describes (first :: w :: stringsOf names :: rest)
        (.propertiesChanged ifaceName changedProps invalidatedProperties)

theorem mem_setOfTexts {items : List DbusType} {name : Bytes} :
    name ∈ setOfTexts items ↔ ∃ i ∈ items, textOf i = name := by
  induction items using List.reverseRecOn with
  | nil => simp [setOfTexts]
  | append_singleton items item ih =>
    have hset : setOfTexts (items ++ [item]) = (OrderedMap.emplace textLess (textOf item) ()
        (items.foldl (fun set i => OrderedMap.emplace textLess (textOf i) () set) [])).map
          Prod.fst := by
      simp [setOfTexts, List.foldl_append]
    rw [hset, OrderedMap.mem_keys_emplace_iff fun stored _ => textLess_equiv.mp]
    show name = textOf item ∨ name ∈ setOfTexts items ↔ _
    rw [ih]
    simp only [List.mem_append, List.mem_singleton]
    constructor
    · rintro (rfl | ⟨i, hi, rfl⟩)
      · exact ⟨item, .inr rfl, rfl⟩
      · exact ⟨i, .inl hi, rfl⟩
    · rintro ⟨i, hi | rfl, rfl⟩
      · exact .inr ⟨i, hi, rfl⟩
      · exact .inl rfl

theorem mem_setOfTexts_names (names : List Bytes) (name : Bytes) :
    name ∈ setOfTexts (names.map fun name => .basic (.string name)) ↔ name ∈ names := by
  simp [mem_setOfTexts, textOf]

/-- An array of strings is decoded to its strings. -/
theorem exists_strings {w : Wire} (h : w.Valid) (hsig : w.signature = text "as") :
    ∃ names : List Bytes, w = stringsOf names ∧
      Reads w (.array (text "as") (names.map fun name => .basic (.string name))) := by
  obtain ⟨items, hreads⟩ := h.exists_reads_array (text "s") hsig (by decide)
  cases h with
  | basic _ => exact absurd (List.cons.inj hsig).2 (by decide)
  | struct _ _ => exact absurd (List.cons.inj hsig).1 (by decide)
  | variant _ _ => exact absurd (List.cons.inj hsig).1 (by decide)
  | dict _ _ _ _ => exact absurd (List.cons.inj (List.cons.inj hsig).2).1 (by decide)
  | @array element elements hvalid hnot hsame helements =>
    obtain rfl : element = text "s" := (List.cons.inj hsig).2
    have hstrings : ∀ w ∈ elements, ∃ name : Bytes, w = .basic (.string name) ∧
        (Basic.string name).Valid := by
      intro w hw
      obtain ⟨value, rfl, htype, hvalue⟩ :=
        (helements w hw).exists_basic .string (hsame w hw)
      cases value with
      | string s => exact ⟨s, rfl, hvalue⟩
      | _ => cases htype
    obtain ⟨names, hnames⟩ := exists_forall₂ hstrings
    have helements : elements = names.map fun name => Wire.basic (.string name) := by
      refine List.forall₂_eq_eq_eq ▸ (List.forall₂_map_right_iff.mpr (hnames.imp fun _ _ h => h.1))
    have hdecodes : List.Forall₂ Decodes elements
        (names.map fun name => .basic (.string name)) := by
      refine List.forall₂_map_right_iff.mpr (hnames.imp fun w name h => ?_)
      obtain ⟨rfl, hvalid⟩ := h
      exact .basic hvalid
    have harray := Decodes.array hvalid hnot hdecodes fun v hv => by
      obtain ⟨name, -, rfl⟩ := List.mem_map.mp hv
      rfl
    refine ⟨names, by rw [helements, stringsOf], ?_⟩
    obtain ⟨-, rfl⟩ := DbusType.array.inj (hreads.decodes.unique harray)
    exact hreads

/-! ## What a signal leads to -/

section Handlers

variable {msg : Received} (hvalid : ∀ w ∈ msg.message.body, w.Valid)

include hvalid

/-- The two arguments of the signals of an object manager. -/
theorem exists_objectBody {sig : Bytes}
    (h : [text "o", sig] <+: msg.message.body.map Wire.signature) :
    ∃ opath w rest, msg.message.body = .basic (.objectPath opath) :: w :: rest ∧
      Reads (.basic (.objectPath opath)) (.basic (.objectPath opath)) ∧ w.Valid ∧
      w.signature = sig :=
  Proxy.exists_objectArguments hvalid h

theorem handleAddedIfaces_settles (h : Accepts .interfacesAdded msg.message.body) (cb : γ) :
    ∃ notice, Describes msg.message.body notice ∧
      Settles (fun fuel => handleAddedIfaces fuel msg cb) (.ok [(cb, notice)]) := by
  obtain ⟨opath, w, rest, hbody, hpath, hw, hsig⟩ := exists_objectBody hvalid h
  obtain ⟨v, hv⟩ := hw.exists_reads
  obtain ⟨sig, items, rfl, hifaces, hshows⟩ := exists_interfaces hw hsig hv.decodes
  have hitems : sig = text "a{sa{sv}}" := hv.signature.trans hsig
  have hfirst := hpath.getArg_settles (.basic (.objectPath (text "/"))) trivial rfl rfl (w :: rest)
  have hsecond := hv.getArg_settles (.dict .string (text "a{sa{sv}}") []) ⟨text "a{sv}", rfl⟩
    hitems.symm rfl rest
  have hargs := getArgsImpl_cons hfirst (getArgsImpl_cons hsecond (getArgsImpl_nil true rest))
  refine ⟨.interfacesAdded opath (textEntries items), hbody ▸ .interfacesAdded hshows,
    hargs.mono fun fuel hfuel => ?_⟩
  simp [handleAddedIfaces, Message.getArgs, hbody, hfuel, textOf, hifaces]

theorem handleRemovedIfaces_settles (h : Accepts .interfacesRemoved msg.message.body) (cb : γ) :
    ∃ notice, Describes msg.message.body notice ∧
      Settles (fun fuel => handleRemovedIfaces fuel msg cb) (.ok [(cb, notice)]) := by
  obtain ⟨opath, w, rest, hbody, hpath, hw, hsig⟩ := exists_objectBody hvalid h
  obtain ⟨names, rfl, hv⟩ := exists_strings hw hsig
  have hfirst := hpath.getArg_settles (.basic (.objectPath (text "/"))) trivial rfl rfl
    (stringsOf names :: rest)
  have hsecond := hv.getArg_settles (.array (text "as") []) rfl rfl rfl rest
  have hargs := getArgsImpl_cons hfirst (getArgsImpl_cons hsecond (getArgsImpl_nil true rest))
  refine ⟨.interfacesRemoved opath (setOfTexts (names.map fun name => .basic (.string name))), ?_,
    hargs.mono fun fuel hfuel => ?_⟩
  · rw [hbody]
    exact .interfacesRemoved (mem_setOfTexts_names names)
  · simp [handleRemovedIfaces, Message.getArgs, hbody, hfuel, textOf]

/-- Other arguments are refused before a callback is called. -/
theorem handleAddedIfaces_of_not_accepts (h : ¬ Accepts .interfacesAdded msg.message.body)
    (cb : γ) : Settles (fun fuel => handleAddedIfaces fuel msg cb) (.ok []) := by
  have hfits : (DbusType.dict .string (text "a{sa{sv}}") []).ClassFits := ⟨text "a{sv}", rfl⟩
  obtain ⟨after, hrun⟩ := Proxy.getArgs_of_not_prefix hvalid hfits rfl h
  refine hrun.mono fun fuel hfuel => ?_
  simp [handleAddedIfaces, hfuel]

theorem handleRemovedIfaces_of_not_accepts (h : ¬ Accepts .interfacesRemoved msg.message.body)
    (cb : γ) : Settles (fun fuel => handleRemovedIfaces fuel msg cb) (.ok []) := by
  have hfits : (DbusType.array (text "as") []).ClassFits := rfl
  obtain ⟨after, hrun⟩ := Proxy.getArgs_of_not_prefix hvalid hfits rfl h
  refine hrun.mono fun fuel hfuel => ?_
  simp [handleRemovedIfaces, hfuel]

omit hvalid in
theorem accepts_cons_iff {first : Wire} {rest : List Wire} :
    Accepts .propertiesChanged (first :: rest) ↔ (textArg first).isSome = true ∧
      [text "a{sv}", text "as"] <+: rest.map Wire.signature := by
  constructor
  · rintro ⟨first', rest', hcons, htext, hargs⟩
    obtain ⟨rfl, rfl⟩ := List.cons.inj hcons
    exact ⟨htext, hargs⟩
  · rintro ⟨htext, hargs⟩
    exact ⟨first, rest, rfl, htext, hargs⟩

omit hvalid in
/-- The first variable is a `std::string`. -/
theorem getArg_text (fuel : Nat) (first : Wire) (rest : List Wire) :
    getArg fuel true (first :: rest) (.cpp (.ofString [])) =
      .ok ((textArg first).map fun s => .cpp (.ofString s)) := by
  cases first with
  | basic value => cases value <;> rfl
  | _ => rfl

/-- The arguments of a signal for changed properties, as they are read. -/
inductive PropertiesArgs (body : List Wire) (args : Bool × List Target) : Prop where
  | taken {first : Wire} {ifaceName : Bytes} {w : Wire} {names : List Bytes} {rest : List Wire}
      {items : List (Basic × DbusType)} : body = first :: w :: stringsOf names :: rest →
      textArg first = some ifaceName → ShowsProperties w (.dict .string (text "a{sv}") items) →
      Accepts .propertiesChanged body →
      args = (true, [.cpp (.ofString ifaceName), .dbus (.dict .string (text "a{sv}") items),
        .dbus (.array (text "as") (names.map fun name => .basic (.string name)))]) →
      PropertiesArgs body args
  | refused : ¬ Accepts .propertiesChanged body → args.1 = false → PropertiesArgs body args

theorem propertiesArgs_settles :
    ∃ args, PropertiesArgs msg.message.body args ∧
      Settles (fun fuel => msg.message.getArgs fuel true (.cpp (.ofString []))
        [.dbus (.dict .string (text "a{sv}") []), .dbus (.array (text "as") [])]) (.ok args) := by
  let targets : List DbusType := [.dict .string (text "a{sv}") [], .array (text "as") []]
  cases hbody : msg.message.body with
  | nil =>
    refine ⟨(false, .cpp (.ofString []) :: targets.map .dbus), .refused (fun h => ?_) rfl,
      .of_forall fun fuel => by simp [Message.getArgs, hbody, targets]⟩
    obtain ⟨first, rest, hnil, -⟩ := h
    cases hnil
  | cons first rest =>
    rw [hbody, List.forall_mem_cons] at hvalid
    have hnonempty : msg.message.body ≠ [] := hbody ▸ List.cons_ne_nil first rest
    cases htext : textArg first with
    | none =>
      refine ⟨(false, .cpp (.ofString []) :: targets.map .dbus), .refused ?_ rfl,
        .of_forall fun fuel => ?_⟩
      · rw [accepts_cons_iff, htext]
        simp
      · simp [Message.getArgs, hbody, getArgsImpl, getArg_text, htext, targets]
    | some ifaceName =>
      have hhead : Settles (fun fuel => getArg fuel true (first :: rest) (.cpp (.ofString [])))
          (.ok (some (.cpp (.ofString ifaceName)))) :=
        .of_forall fun fuel => (getArg_text fuel first rest).trans (by rw [htext]; rfl)
      by_cases hrest : [text "a{sv}", text "as"] <+: rest.map Wire.signature
      · have haccepts : Accepts .propertiesChanged (first :: rest) :=
          accepts_cons_iff.mpr ⟨by simp [htext], hrest⟩
        obtain ⟨more, hmore⟩ := hrest
        obtain ⟨w, _, rfl, hsig, hnext⟩ := List.map_eq_cons_iff.mp hmore.symm
        obtain ⟨w', rest, rfl, hsig', -⟩ := List.map_eq_cons_iff.mp hnext
        obtain ⟨items, hitems⟩ := exists_textDict (text "v") (.inl rfl)
          (hvalid.2 w (by simp)) hsig
        obtain ⟨names, rfl, hnames⟩ := exists_strings (hvalid.2 w' (by simp)) hsig'
        have hchanged := hitems.reads.getArg_settles (.dict .string (text "a{sv}") [])
          ⟨text "v", rfl⟩ rfl rfl (stringsOf names :: rest)
        have hinvalidated := hnames.getArg_settles (.array (text "as") []) rfl rfl rfl rest
        have hargs := getArgsImpl_cons hhead (getArgsImpl_cons hchanged
          (getArgsImpl_cons hinvalidated (getArgsImpl_nil true rest)))
        exact ⟨_, .taken rfl htext (showsProperties hitems) haccepts rfl,
          msg.message.getArgs_settles (hbody ▸ hargs) fun hnil => absurd hnil hnonempty⟩
      · obtain ⟨args, hreads⟩ := exists_forall₂ fun w hw => (hvalid.2 w hw).exists_reads
        have hfits : ∀ t ∈ targets, t.ClassFits :=
          List.forall_mem_cons.mpr ⟨⟨text "v", rfl⟩, List.forall_mem_singleton.mpr rfl⟩
        have hentries : ∀ t ∈ targets, t.isEntryArray = false := by decide
        have hfound := readPrefix_found_iff args targets
        rw [signatures_of_reads hreads] at hfound
        have hnot : (readPrefix args targets).1 = false :=
          Bool.eq_false_iff.mpr fun h => hrest (hfound.mp h)
        have hargs := getArgsImpl_cons hhead (getArgsImpl_strict hreads hfits hentries)
        exact ⟨((readPrefix args targets).1, .cpp (.ofString ifaceName) ::
            (readPrefix args targets).2.map .dbus),
          .refused (fun h => hrest (accepts_cons_iff.mp h).2) hnot,
          msg.message.getArgs_settles (hbody ▸ hargs) fun hnil => absurd hnil hnonempty⟩

/-- What `on_signal` calls where `installed` are the callbacks. -/
inductive Heard (filter : Filter) (installed : Change → Key → Option γ) (msg : Received) :
    List (γ × Notice) → Prop where
  | told {change : Change} {callback : γ} {notice : Notice} : change ∈ filter.kinds →
      Addressed change msg → installed change (msg.sender, msg.path) = some callback →
      Describes msg.message.body notice → Heard filter installed msg [(callback, notice)]
  | silent : (∀ change ∈ filter.kinds, Addressed change msg →
      installed change (msg.sender, msg.path) = none) → Heard filter installed msg []

/-- The callbacks that are installed. -/
def State.installed (s : State γ) (change : Change) (key : Key) : Option γ :=
  (s.callbacks change).lookup key

/-- The handler of a signal of an object manager. -/
def handleIfaces (change : Change) : Nat → Received → γ → Exec Exception (List (γ × Notice)) :=
  if change = .interfacesAdded then handleAddedIfaces else handleRemovedIfaces

theorem handleIfaces_settles {change : Change} (hkind : change ∈ Filter.objectManager.kinds)
    (cb : γ) : ∃ calls, Settles (fun fuel => handleIfaces change fuel msg cb) (.ok calls) ∧
      (Accepts change msg.message.body →
        ∃ notice, calls = [(cb, notice)] ∧ Describes msg.message.body notice) ∧
      (¬ Accepts change msg.message.body → calls = []) := by
  cases change with
  | interfacesAdded =>
    by_cases haccepts : Accepts .interfacesAdded msg.message.body
    · obtain ⟨notice, hdescribes, hrun⟩ := handleAddedIfaces_settles hvalid haccepts cb
      exact ⟨_, hrun, fun _ => ⟨notice, rfl, hdescribes⟩, absurd haccepts⟩
    · exact ⟨[], handleAddedIfaces_of_not_accepts hvalid haccepts cb,
        fun h => absurd h haccepts, fun _ => rfl⟩
  | interfacesRemoved =>
    by_cases haccepts : Accepts .interfacesRemoved msg.message.body
    · obtain ⟨notice, hdescribes, hrun⟩ := handleRemovedIfaces_settles hvalid haccepts cb
      exact ⟨_, hrun, fun _ => ⟨notice, rfl, hdescribes⟩, absurd haccepts⟩
    · exact ⟨[], handleRemovedIfaces_of_not_accepts hvalid haccepts cb,
        fun h => absurd h haccepts, fun _ => rfl⟩
  | propertiesChanged => exact absurd hkind (by decide)

omit hvalid in
/-- Each of the two signals of an object manager has callbacks of its own. -/
theorem ObjectManager.onSignal_of_name (fuel : Nat) (s : State γ) {change : Change}
    (hkind : change ∈ Filter.objectManager.kinds) (hinterface : msg.interface = change.interface)
    (hname : msg.name = change.name) :
    ObjectManager.onSignal fuel s msg =
      match s.installed change (msg.sender, msg.path) with
      | none => .ok (false, [])
      | some cb => do
        let calls ← handleIfaces change fuel msg cb
        return (false, calls) := by
  cases change with
  | interfacesAdded =>
    have hfirst : ¬ msg.interface ≠ dbusIfaceObjectManager := not_not.mpr hinterface
    have hadded : msg.name = text "InterfacesAdded" := hname
    rw [ObjectManager.onSignal, if_neg hfirst, if_pos hadded]
    rfl
  | interfacesRemoved =>
    have hfirst : ¬ msg.interface ≠ dbusIfaceObjectManager := not_not.mpr hinterface
    have hadded : msg.name ≠ text "InterfacesAdded" := fun h =>
      absurd (h.symm.trans hname) (by decide)
    have hremoved : msg.name = text "InterfacesRemoved" := hname
    rw [ObjectManager.onSignal, if_neg hfirst, if_neg hadded, if_pos hremoved]
    rfl
  | propertiesChanged => exact absurd hkind (by decide)

theorem ObjectManager.onSignal_settles (s : State γ) :
    ∃ calls, Settles (fun fuel => ObjectManager.onSignal fuel s msg) (.ok (false, calls)) ∧
      Heard .objectManager s.installed msg calls := by
  by_cases hnamed : ∃ change ∈ Filter.objectManager.kinds,
      msg.interface = change.interface ∧ msg.name = change.name
  · obtain ⟨change, hkind, hinterface, hname⟩ := hnamed
    -- No other signal has the name.
    have honly : ∀ other ∈ Filter.objectManager.kinds, Addressed other msg → other = change := by
      have hinj : ∀ c ∈ Filter.objectManager.kinds, ∀ c' ∈ Filter.objectManager.kinds,
          c.name = c'.name → c = c' := by decide
      exact fun other hother haddressed =>
        hinj other hother change hkind (haddressed.name.symm.trans hname)
    cases hlookup : s.installed change (msg.sender, msg.path) with
    | none =>
      refine ⟨[], .of_forall fun fuel => ?_, .silent fun other hother haddressed => ?_⟩
      · simp [ObjectManager.onSignal_of_name fuel s hkind hinterface hname, hlookup]
      · exact honly other hother haddressed ▸ hlookup
    | some cb =>
      obtain ⟨calls, hrun, htold, hrefused⟩ := handleIfaces_settles hvalid hkind cb
      refine ⟨calls, hrun.mono fun fuel hfuel => ?_, ?_⟩
      · simp [ObjectManager.onSignal_of_name fuel s hkind hinterface hname, hlookup, hfuel]
      · by_cases haccepts : Accepts change msg.message.body
        · obtain ⟨notice, rfl, hdescribes⟩ := htold haccepts
          exact .told hkind ⟨hinterface, hname, haccepts⟩ hlookup hdescribes
        · obtain rfl := hrefused haccepts
          exact .silent fun other hother haddressed =>
            absurd (honly other hother haddressed ▸ haddressed.arguments) haccepts
  · refine ⟨[], .of_forall fun fuel => ?_, .silent fun change hkind haddressed =>
      absurd ⟨change, hkind, haddressed.interface, haddressed.name⟩ hnamed⟩
    by_cases hinterface : msg.interface = dbusIfaceObjectManager
    · have hadded : msg.name ≠ text "InterfacesAdded" := fun hname =>
        hnamed ⟨.interfacesAdded, by decide, hinterface, hname⟩
      have hremoved : msg.name ≠ text "InterfacesRemoved" := fun hname =>
        hnamed ⟨.interfacesRemoved, by decide, hinterface, hname⟩
      simp [ObjectManager.onSignal, hinterface, hadded, hremoved]
    · simp [ObjectManager.onSignal, hinterface]

theorem Properties.onSignal_settles (s : State γ) :
    ∃ calls, Settles (fun fuel => Properties.onSignal fuel s msg) (.ok (false, calls)) ∧
      Heard .properties s.installed msg calls := by
  have hkind : ∀ change ∈ Filter.properties.kinds, change = .propertiesChanged := by decide
  by_cases hpassed : msg.interface ≠ dbusInterfaceProperties ∨
      msg.name ≠ text "PropertiesChanged"
  · refine ⟨[], .of_forall fun fuel => by simp only [Properties.onSignal, if_pos hpassed]; rfl,
      .silent fun change hmem haddressed => ?_⟩
    obtain rfl := hkind change hmem
    exact hpassed.elim (absurd haddressed.interface) (absurd haddressed.name)
  · obtain ⟨args, hargs, hrun⟩ := propertiesArgs_settles hvalid
    cases hargs with
    | refused haccepts hnot =>
      obtain ⟨found, targets⟩ := args
      obtain rfl : found = false := hnot
      refine ⟨[], hrun.mono fun fuel hfuel => ?_, .silent fun change hmem haddressed => ?_⟩
      · simp [Properties.onSignal, hpassed, hfuel]
      · exact absurd (hkind change hmem ▸ haddressed.arguments) haccepts
    | @taken first ifaceName w names rest items hbody htext hshows haccepts htaken =>
      subst htaken
      obtain ⟨hinterface, hname⟩ : msg.interface = dbusInterfaceProperties ∧
          msg.name = text "PropertiesChanged" := by
        simpa only [ne_eq, not_or, not_not] using hpassed
      cases hlookup : (s.callbacks .propertiesChanged).lookup (msg.sender, msg.path) with
      | none =>
        refine ⟨[], hrun.mono fun fuel hfuel => ?_, .silent fun change hmem haddressed => ?_⟩
        · simp [Properties.onSignal, hpassed, hfuel, hlookup]
        · exact hkind change hmem ▸ hlookup
      | some cb =>
        refine ⟨[(cb, .propertiesChanged ifaceName (.dict .string (text "a{sv}") items)
            (setOfTexts (names.map fun name => .basic (.string name))))],
          hrun.mono fun fuel hfuel => ?_,
          .told List.mem_cons_self ⟨hinterface, hname, haccepts⟩ hlookup ?_⟩
        · simp [Properties.onSignal, hpassed, hfuel, hlookup, textOf, CppValue.ofString]
        · rw [hbody]
          exact .propertiesChanged htext hshows (mem_setOfTexts_names names)

/-- `on_signal` calls the callback that is installed for the sender and the path of the signal. -/
theorem Filter.onSignal_settles (filter : Filter) (s : State γ) :
    ∃ calls, Settles (fun fuel => filter.onSignal fuel s msg) (.ok (false, calls)) ∧
      Heard filter s.installed msg calls := by
  cases filter with
  | objectManager => exact ObjectManager.onSignal_settles hvalid s
  | properties => exact Properties.onSignal_settles hvalid s

end Handlers

end Ultrabus.Interfaces
