import Ultrabus.Value.DictOperations

/-! # What a dict holds

`DictStore.system` runs any sequence of the operations on any number of dicts of all key
classes.  Every dict keeps values of its own value signature, as long as the value type is
not changed by its code while there are entries of another type, and no value signature
with a NUL byte gets past a check that stops at it. -/

namespace Ultrabus

namespace DictObject

/-- Every value is there and has the value signature of the dict, and the signature of the
    dict is made of that and the code of the key type. -/
structure Homogeneous (d : DictObject) : Prop where
  sig : d.sig = dictSignature d.key d.valueSignature
  values : ∀ i ∈ d.items, ∃ v : DbusType, i.2 = some v ∧ v.signature = d.valueSignature

/-- A homogeneous dict whose value signature `vsig` is a complete type. -/
structure Holds (vsig : Bytes) (d : DictObject) : Prop where
  sig : d.sig = dictSignature d.key vsig
  valid : dbusSignatureValidateSingle vsig = true
  values : ∀ i ∈ d.items, ∃ v : DbusType, i.2 = some v ∧ v.signature = vsig

def WellTyped (d : DictObject) : Prop := ∃ vsig, Holds vsig d

section Holds

variable {vsig : Bytes} {d : DictObject}

theorem Holds.wellTyped (h : Holds vsig d) : WellTyped d := ⟨vsig, h⟩

theorem Holds.valueSignature (h : Holds vsig d) : d.valueSignature = vsig := by
  rw [DictObject.valueSignature, h.sig, drop_take_dict]

theorem Holds.valueCode (h : Holds vsig d) :
    d.valueCode = (vsig ++ [dbusDictEntryEndChar]).headD 0 := by
  rw [DictObject.valueCode, h.sig]
  rfl

theorem Holds.homogeneous (h : Holds vsig d) : d.Homogeneous where
  sig := by rw [h.valueSignature, h.sig]
  values := by
    rw [h.valueSignature]
    exact h.values

/-- The type that starts the value signature. -/
theorem Holds.exists_valueType (h : Holds vsig d) :
    ∃ type : SigType, vsig = type.render ∧ d.valueCode = type.render.headD 0 := by
  obtain ⟨type, rfl, -⟩ := (validateSingle_iff vsig).mp h.valid
  refine ⟨type, rfl, ?_⟩
  obtain ⟨c, rest, hhead, -⟩ := type.render_head
  rw [h.valueCode, hhead]
  rfl

/-- One character tells a basic value type. -/
theorem Holds.of_valueCode (h : Holds vsig d) {t : BasicType} (hcode : d.valueCode = t.code) :
    vsig = [t.code] := by
  obtain ⟨type, rfl, htype⟩ := h.exists_valueType
  rw [hcode] at htype
  cases type with
  | basic type => rw [SigType.render, htype]; rfl
  | variant => exact absurd htype t.code_ne_variant
  | array element => exact absurd htype t.code_ne_array
  | struct first rest => exact absurd htype t.code_ne_structBegin
  | dict key value => exact absurd htype t.code_ne_array

/-- One character tells that the values are variants. -/
theorem Holds.of_variantCode (h : Holds vsig d) (hcode : d.valueCode = dbusTypeVariant) :
    vsig = [dbusTypeVariant] := by
  obtain ⟨type, rfl, htype⟩ := h.exists_valueType
  rw [SigType.eq_variant_of_headD (htype.symm.trans hcode)]
  rfl

/-- `set` stores nothing but values of the value signature. -/
theorem Holds.stored_signature (h : Holds vsig d) {value item : DbusType}
    (hitem : d.stored? value = some item) : item.signature = vsig := by
  simp only [stored?, h.valueSignature] at hitem
  split at hitem
  case isTrue hsame =>
    obtain rfl := Option.some.inj hitem
    exact hsame
  case isFalse =>
    split at hitem
    case isTrue hvariant =>
      obtain rfl := Option.some.inj hitem
      have hcode : d.valueCode = dbusTypeVariant := by
        rw [h.valueCode]
        cases vsig with
        | nil => cases hvariant
        | cons c rest => exact Option.some.inj hvariant
      rw [DbusVariant.signature_ofPointer, h.of_variantCode hcode]
    case isFalse => cases hitem

theorem Holds.assign (h : Holds vsig d) {item : DbusType} (hitem : item.signature = vsig)
    (key : Basic) :
    Holds vsig { d with items := OrderedMap.assign Basic.less key (some item) d.items } where
  sig := h.sig
  valid := h.valid
  values := by
    intro i hi
    obtain hnew | ⟨old, hold, heq⟩ := OrderedMap.value_of_mem_assign hi
    · exact ⟨item, hnew, hitem⟩
    · exact heq ▸ h.values old hold

theorem Holds.empty (h : Holds vsig d) : Holds vsig { d with items := [] } where
  sig := h.sig
  valid := h.valid
  values := fun _ hi => absurd hi List.not_mem_nil

/-- The clones of the values are those values. -/
theorem Holds.clone (h : Holds vsig d) {items : List (Basic × Option DbusType)}
    (hitems : emplaceClones d.items = some items) : Holds vsig { d with items := items } where
  sig := h.sig
  valid := h.valid
  values := by
    have hfold : ∀ (entries acc : List (Basic × Option DbusType)) i,
        i ∈ entries.foldl (fun items i => OrderedMap.emplace Basic.less i.1 i.2 items) acc →
          i ∈ entries ∨ i ∈ acc := by
      intro entries
      induction entries with
      | nil => exact fun acc i hi => .inr hi
      | cons entry entries ih =>
        intro acc i hi
        obtain hmem | hmem := ih _ i hi
        · exact .inl (List.mem_cons_of_mem _ hmem)
        · obtain rfl | hold := OrderedMap.mem_emplace hmem
          · exact .inl List.mem_cons_self
          · exact .inr hold
    rw [emplaceClones] at hitems
    split at hitems
    case isTrue =>
      obtain rfl := Option.some.inj hitems
      intro i hi
      exact h.values i ((hfold d.items [] i hi).resolve_right List.not_mem_nil)
    case isFalse => cases hitems

end Holds

/-! ## The functions that keep the value type -/

section Steps

variable {vsig : Bytes}

/-- Runs of the function keep the value type and what is known of the values. -/
abbrev Keeps {α : Type} (vsig : Bytes) (m : Program α) : Prop :=
  Hoare (Holds vsig) m (fun _ => Holds vsig) (Holds vsig)

theorem keeps_return {α : Type} (a : α) : Keeps vsig (return a : Program α) :=
  Hoare.pure a fun _ h => h

theorem assignItem_keeps {item : DbusType} (hitem : item.signature = vsig) (key : Basic) :
    Keeps vsig (assignItem key item) :=
  Hoare.update _ fun _ h => h.assign hitem key

/-- Store a value and report success. -/
theorem store_keeps {item : DbusType} (hitem : item.signature = vsig) (key : Basic) :
    Keeps vsig (do assignItem key item; return true) :=
  Hoare.bind (assignItem_keeps hitem key) fun _ => keeps_return true

/-- A function that first looks at the dict. -/
theorem keeps_get {α : Type} {f : DictObject → Program α}
    (h : ∀ d, Holds vsig d → Keeps vsig (f d)) : Keeps vsig (get >>= f) := by
  refine Hoare.get_bind fun d hd => ?_
  refine Hoare.consequence (h d hd) ?_ (fun _ _ h => h) fun _ h => h
  rintro _ rfl
  exact hd

theorem setValue_keeps (key : Basic) (value : DbusType) : Keeps vsig (setValue key value) := by
  refine keeps_get fun d hd => ?_
  cases hstored : d.stored? value with
  | some item => exact store_keeps (hd.stored_signature hstored) key
  | none => exact keeps_return false

theorem setPointer_keeps (key : Basic) (value : Option DbusType) :
    Keeps vsig (setPointer key value) := by
  cases value with
  | none => exact keeps_return false
  | some value => exact setValue_keeps key value

theorem setAnyKey_keeps {set : Basic → Program Bool} (hset : ∀ key, Keeps vsig (set key))
    (key : DbusType) : Keeps vsig (setAnyKey key set) := by
  refine keeps_get fun d hd => ?_
  cases keyOf? d.key key with
  | some key => exact hset key
  | none => exact keeps_return false

theorem setCpp_keeps (key : Basic) (value : CppValue) : Keeps vsig (setCpp key value) := by
  refine keeps_get fun d hd => Hoare.ite (fun hvariant => ?_) fun _ => ?_
  · refine store_keeps ?_ key
    rw [DbusVariant.signature_ofPointer, hd.of_variantCode hvariant]
  · refine Hoare.ite (fun _ => keeps_return false) fun hcode => ?_
    refine store_keeps ?_ key
    rw [hd.of_valueCode (not_not.mp hcode), DbusType.signature]

theorem setText_keeps (key : Basic) (value : TextArg) : Keeps vsig (setText key value) := by
  refine keeps_get fun d hd => Hoare.ite (fun hvariant => ?_) fun _ => ?_
  · refine store_keeps ?_ key
    rw [DbusVariant.signature_ofPointer, hd.of_variantCode hvariant]
  · cases htype : TextType.ofCode? d.valueCode with
    | none => exact keeps_return false
    | some type =>
      have hvsig := hd.of_valueCode (TextType.code_of_ofCode? htype)
      dsimp only
      cases hitem : newText type value with
      | error e => exact keeps_return false
      | ok item =>
        refine store_keeps ?_ key
        rw [hvsig, DbusType.signature, newText_type hitem]

theorem setCString_keeps (key : Basic) (value : Option Bytes) :
    Keeps vsig (setCString key value) := by
  cases value with
  | none => exact keeps_return false
  | some value => exact setText_keeps key (.cString (some value))

theorem clear_keeps : Keeps vsig clear := Hoare.update _ fun _ h => h.empty

/-- The factory makes a value of any value signature that the dict may have. -/
theorem Holds.createDbusType {d : DictObject} (h : Holds vsig d) :
    ∃ v : DbusType, createDbusType (creationFuel vsig) vsig = .ok (some v) ∧
      v.signature = vsig := by
  obtain ⟨type, rfl, hlimits⟩ := (validateSingle_iff vsig).mp h.valid
  refine ⟨type.default, createDbusType_render type hlimits _ ?_, type.default_hasType.signature⟩
  rw [creationFuel]
  omega

/-- The entry is there with a null pointer for a moment only. -/
theorem createItem_keeps (key : Basic) : Keeps vsig (createItem key) := by
  refine Hoare.bind (Q := fun _ s => ∃ d, Holds vsig d ∧
    s = { d with items := OrderedMap.assign Basic.less key none d.items }) ?_ fun _ => ?_
  · exact Hoare.update _ fun d hd => ⟨d, hd, rfl⟩
  · refine Hoare.get_bind ?_
    rintro _ ⟨d, hd, rfl⟩
    obtain ⟨v, hcreate, hv⟩ := hd.createDbusType
    rw [← hd.valueSignature] at hcreate
    simp only [show DictObject.valueSignature
      { d with items := OrderedMap.assign Basic.less key none d.items } = d.valueSignature from rfl,
      hcreate]
    refine Hoare.update _ ?_
    rintro _ rfl
    simp only [OrderedMap.assign_assign (Basic.less_irrefl key)]
    exact hd.assign hv key

theorem subscript_keeps (key : Basic) : Keeps vsig (subscript key) := by
  refine keeps_get fun d hd => ?_
  split
  case h_1 => exact keeps_return ()
  case h_2 => exact createItem_keeps key
  case h_3 => exact createItem_keeps key

end Steps

/-! ## Constructors and member functions -/

/-- The constructors that start from no other dict. -/
inductive Ctor where
  | ofNothing
  | ofSignatureText (valueSignature : Option Bytes)
  | ofSignatureString (valueSignature : Bytes)
  | ofTypeCode (variantOrBasicTypeCode : Int)

def Ctor.program : Ctor → Program Unit
  | .ofNothing => DictObject.ofNothing
  | .ofSignatureText vsig => DictObject.ofSignatureText vsig
  | .ofSignatureString vsig => DictObject.ofSignatureString vsig
  | .ofTypeCode code => DictObject.ofTypeCode code

/-- The member functions that no other dict takes part in. -/
inductive Mutator where
  | assignOther
  | moveOther
  | setValue (key : Basic) (value : DbusType)
  | setPointer (key : Basic) (value : Option DbusType)
  | setValueAnyKey (key : DbusType) (value : DbusType)
  | setPointerAnyKey (key : DbusType) (value : Option DbusType)
  | setCpp (key : Basic) (value : CppValue)
  | setString (key : Basic) (value : Bytes)
  | setCString (key : Basic) (value : Option Bytes)
  | subscript (key : Basic)
  | resetText (valueSignature : Option Bytes)
  | resetString (valueSignature : Bytes)
  | resetTypeCode (variantOrBasicTypeCode : Int)
  | clear

/-- The dict after a call, whatever the call returns or throws. -/
def Mutator.effect : Mutator → DictObject → DictObject
  | .assignOther => DictObject.assignOther.finalState
  | .moveOther => DictObject.moveOther.finalState
  | .setValue key value => (DictObject.setValue key value).finalState
  | .setPointer key value => (DictObject.setPointer key value).finalState
  | .setValueAnyKey key value => (setAnyKey key (DictObject.setValue · value)).finalState
  | .setPointerAnyKey key value => (setAnyKey key (DictObject.setPointer · value)).finalState
  | .setCpp key value => (DictObject.setCpp key value).finalState
  | .setString key value => (setText key (.string value)).finalState
  | .setCString key value => (DictObject.setCString key value).finalState
  | .subscript key => (DictObject.subscript key).finalState
  | .resetText vsig => (DictObject.resetText vsig).finalState
  | .resetString vsig => (DictObject.resetString vsig).finalState
  | .resetTypeCode code => (DictObject.resetTypeCode code).finalState
  | .clear => DictObject.clear.finalState

/-- The key that the function takes as a `key_type_t`. -/
def Mutator.typedKey? : Mutator → Option Basic
  | .setValue key _ | .setPointer key _ | .setCpp key _ | .setString key _ | .setCString key _
  | .subscript key => some key
  | _ => none

/-! ## What the checks miss -/

/-- A value signature without NUL bytes. -/
def Ctor.Fits : Ctor → Prop
  | .ofSignatureString vsig => (0 : UInt8) ∉ vsig
  | _ => True

/-- A type code that is refused, or of the type that the values have if there are any. -/
def Mutator.Fits (d : DictObject) : Mutator → Prop
  | .resetTypeCode code =>
    ∀ c, variantOrBasic? code = some c → d.items = [] ∨ d.valueSignature = [c]
  | _ => True

theorem validateSingle_variantOrBasic {code : Int} {c : UInt8}
    (h : variantOrBasic? code = some c) : dbusSignatureValidateSingle [c] = true := by
  rw [variantOrBasic?] at h
  split at h
  case isTrue =>
    obtain rfl := Option.some.inj h
    exact validateSingle_variant
  case isFalse =>
    obtain ⟨type, -, rfl⟩ := Option.map_eq_some_iff.mp h
    exact validateSingle_basic type

/-- A value type for a dict whose values, if any, are of that type already. -/
theorem appendValueType_holds {vsig : Bytes} (hvalid : dbusSignatureValidateSingle vsig = true) :
    Hoare (fun d => d.sig = [dbusTypeArray, dbusDictEntryBeginChar] ∧
        ∀ i ∈ d.items, ∃ v : DbusType, i.2 = some v ∧ v.signature = vsig)
      (appendValueType vsig) (fun _ => Holds vsig) fun _ => True := by
  refine Hoare.update _ ?_
  rintro d ⟨hsig, hvalues⟩
  exact ⟨by rw [hsig]; rfl, hvalid, hvalues⟩

/-- What a constructor makes, if it returns. -/
theorem Ctor.program_wellTyped (c : Ctor) (hfits : c.Fits) (key : BasicType) :
    Hoare (· = initial key) c.program (fun _ => WellTyped) fun _ => True := by
  have happend : ∀ {vsig : Bytes}, dbusSignatureValidateSingle vsig = true →
      Hoare (· = initial key) (appendValueType vsig) (fun _ => WellTyped) fun _ => True := by
    intro vsig hvalid
    refine Hoare.consequence (appendValueType_holds hvalid) ?_ (fun _ _ h => h.wellTyped)
      fun _ h => h
    rintro _ rfl
    exact ⟨rfl, fun i hi => absurd hi List.not_mem_nil⟩
  cases c with
  | ofNothing => exact happend validateSingle_variant
  | ofSignatureText vsig =>
    cases vsig with
    | none => exact Hoare.throw _ fun _ _ => trivial
    | some vsig =>
      refine Hoare.ite (fun _ => Hoare.throw _ fun _ _ => trivial) fun hvalid => happend ?_
      simpa using hvalid
  | ofSignatureString vsig =>
    refine Hoare.ite (fun _ => Hoare.throw _ fun _ _ => trivial) fun hvalid => happend ?_
    rw [cStr_eq_self hfits] at hvalid
    simpa using hvalid
  | ofTypeCode code =>
    simp only [Ctor.program, DictObject.ofTypeCode]
    split
    case h_1 c hc => exact happend (validateSingle_variantOrBasic hc)
    case h_2 => exact Hoare.throw _ fun _ _ => trivial

/-- The overloads that take a text clear the dict. -/
theorem resetText_wellTyped (vsig : Option Bytes) :
    Hoare WellTyped (resetText vsig) (fun _ => WellTyped) WellTyped := by
  cases vsig with
  | none => exact Hoare.pure false fun _ h => h
  | some vsig =>
    refine Hoare.ite (fun _ => Hoare.pure false fun _ h => h) fun hvalid => ?_
    have hvalid' : dbusSignatureValidateSingle (cStr vsig) = true := by simpa using hvalid
    intro d _
    exact ⟨cStr vsig, rfl, hvalid', fun i hi => absurd hi List.not_mem_nil⟩

/-- The overload that takes a type code keeps values that happen to be of the new type. -/
theorem resetTypeCode_wellTyped (code : Int) {d : DictObject} (h : WellTyped d)
    (hfits : Mutator.Fits d (.resetTypeCode code)) :
    WellTyped ((resetTypeCode code).finalState d) := by
  obtain ⟨vsig, h⟩ := h
  rw [resetTypeCode]
  split
  case h_1 => exact ⟨vsig, h⟩
  case h_2 c hc =>
    refine ⟨[c], rfl, validateSingle_variantOrBasic hc, ?_⟩
    show ∀ i ∈ d.items, ∃ v : DbusType, i.2 = some v ∧ v.signature = [c]
    intro i hi
    obtain hempty | hsame := hfits c hc
    · rw [hempty] at hi
      cases hi
    · rw [h.valueSignature] at hsame
      exact hsame ▸ h.values i hi

theorem Keeps.finalState_wellTyped {α : Type} {m : Program α}
    (hm : ∀ vsig, Keeps vsig m) {d : DictObject} (h : WellTyped d) :
    WellTyped (m.finalState d) := by
  obtain ⟨vsig, h⟩ := h
  exact ⟨vsig, (hm vsig).finalState h⟩

/-- What a call leaves behind, whether it succeeds or not. -/
theorem Mutator.effect_wellTyped (m : Mutator) {d : DictObject} (h : WellTyped d)
    (hfits : m.Fits d) : WellTyped (m.effect d) := by
  cases m with
  | assignOther => exact h
  | moveOther => exact h
  | setValue key value => exact Keeps.finalState_wellTyped (fun _ => setValue_keeps key value) h
  | setPointer key value =>
    exact Keeps.finalState_wellTyped (fun _ => setPointer_keeps key value) h
  | setValueAnyKey key value =>
    exact Keeps.finalState_wellTyped
      (fun _ => setAnyKey_keeps (fun key => setValue_keeps key value) key) h
  | setPointerAnyKey key value =>
    exact Keeps.finalState_wellTyped
      (fun _ => setAnyKey_keeps (fun key => setPointer_keeps key value) key) h
  | setCpp key value => exact Keeps.finalState_wellTyped (fun _ => setCpp_keeps key value) h
  | setString key value => exact Keeps.finalState_wellTyped (fun _ => setText_keeps key _) h
  | setCString key value =>
    exact Keeps.finalState_wellTyped (fun _ => setCString_keeps key value) h
  | subscript key => exact Keeps.finalState_wellTyped (fun _ => subscript_keeps key) h
  | resetText vsig => exact (resetText_wellTyped vsig).finalState h
  | resetString vsig => exact (resetText_wellTyped (some vsig)).finalState h
  | resetTypeCode code => exact resetTypeCode_wellTyped code h hfits
  | clear => exact Keeps.finalState_wellTyped (fun _ => clear_keeps) h

/-- The dict as a value that another dict may take in. -/
def toDbusType (d : DictObject) : DbusType :=
  .dict d.key d.sig (d.items.filterMap fun i => i.2.map (i.1, ·))

end DictObject

/-! ## Runs -/

/-- All dicts there are, of all key classes, in the order in which they were constructed. -/
abbrev DictStore := List DictObject

namespace DictStore

open DictObject (Ctor Mutator Holds WellTyped emplaceClones)
open Hoare (Each)

/-- A call, with the dicts that take part in it by their places in the store. -/
inductive Call where
  | construct (key : BasicType) (ctor : Ctor)
  | copyConstruct (other : Nat)
  | moveConstruct (other : Nat)
  | assign (target rhs : Nat)
  | moveAssign (target rhs : Nat)
  | mutate (target : Nat) (m : Mutator)
  -- the overloads of `set` with `dbus_type&& value`, on another dict
  | setMoved (target : Nat) (key : DbusType) (item : Nat)

/-- The calls that C++ gives a meaning to have a next state: keys are of the class of the
    dict, and no null pointer is cloned. -/
def step (s : DictStore) : Call → Option DictStore
  | .construct key ctor =>
    match ctor.program (DictObject.initial key) with
    | .ok _ d => some (s ++ [d])
    | .error _ _ => some s
  | .copyConstruct other => do
    let b ← s[other]?
    let items ← emplaceClones b.items
    return s ++ [{ b with items := items }]
  | .moveConstruct other => do
    let b ← s[other]?
    return s.set other { b with items := [] } ++ [b]
  | .assign target rhs => do
    let d ← s[target]?
    let b ← s[rhs]?
    if target = rhs then return s
    -- `std::bad_cast`
    else if b.key ≠ d.key then return s
    else
      let items ← emplaceClones b.items
      return s.set target { b with items := items }
  | .moveAssign target rhs => do
    let d ← s[target]?
    let b ← s[rhs]?
    if b.key ≠ d.key then return s
    -- The dict on the right keeps its signature, and nothing happens to one on both sides.
    else return (s.set rhs { b with items := [] }).set target b
  | .mutate target m => do
    let d ← s[target]?
    if m.typedKey?.all (·.type = d.key) then return s.set target (m.effect d) else none
  | .setMoved target key item => do
    let d ← s[target]?
    let b ← s[item]?
    match DictObject.keyOf? d.key key, d.stored? b.toDbusType with
    | some key, some value =>
      -- The entries of `b` are gone before the value is stored; `b` may be the target.
      let s := s.set item { b with items := [] }
      let d ← s[target]?
      return s.set target ((DictObject.assignItem key value).finalState d)
    | _, _ => return s

/-- Any sequence of calls, starting with no dicts. -/
def system : TransitionSystem DictStore Call where
  init s := s = []
  step := step

/-- The call changes no value type under values of another type. -/
def Fits (s : DictStore) : Call → Prop
  | .construct _ ctor => ctor.Fits
  | .mutate target m => ∀ d, s[target]? = some d → m.Fits d
  | _ => True

/-! ## Every dict keeps values of its own type -/

theorem wellTyped_emptied {d : DictObject} (h : WellTyped d) :
    WellTyped { d with items := [] } := by
  obtain ⟨vsig, h⟩ := h
  exact ⟨vsig, h.empty⟩

theorem wellTyped_clone {d : DictObject} (h : WellTyped d)
    {items : List (Basic × Option DbusType)} (hitems : emplaceClones d.items = some items) :
    WellTyped { d with items := items } := by
  obtain ⟨vsig, h⟩ := h
  exact ⟨vsig, h.clone hitems⟩

/-- A dict that another one is moved into; the two may be one. -/
theorem setMoved_wellTyped {s s' : DictStore} (h : Each WellTyped s) {target item : Nat}
    {key : DbusType} (hstep : step s (.setMoved target key item) = some s') :
    Each WellTyped s' := by
  simp only [step, bind, Option.bind_eq_some_iff] at hstep
  obtain ⟨d, hd, b, hb, hstep⟩ := hstep
  split at hstep
  case h_1 key value hkey hvalue =>
    simp only [Option.bind_eq_some_iff] at hstep
    obtain ⟨d', hd', hstep⟩ := hstep
    obtain rfl := Option.some.inj hstep
    have hemptied := h.set (wellTyped_emptied (h.get hb)) item
    obtain ⟨vsig, hholds⟩ := h.get hd
    -- The value type of the target is what it was.
    have htarget : Holds vsig d' := by
      by_cases heq : item = target
      · subst heq
        obtain rfl := Option.some.inj (hd.symm.trans hb)
        rw [List.getElem?_set_self (List.getElem?_eq_some_iff.mp hd).1] at hd'
        obtain rfl := Option.some.inj hd'
        exact hholds.empty
      · rw [List.getElem?_set_ne heq, hd] at hd'
        obtain rfl := Option.some.inj hd'
        exact hholds
    exact hemptied.set ⟨vsig, htarget.assign (hholds.stored_signature hvalue) key⟩ target
  case h_2 =>
    obtain rfl := Option.some.inj hstep
    exact h

/-- One call keeps the invariant, whether it succeeds or not. -/
theorem step_wellTyped {s s' : DictStore} (h : Each WellTyped s) {call : Call}
    (hfits : Fits s call) (hstep : step s call = some s') : Each WellTyped s' := by
  cases call with
  | construct key ctor =>
    have hrun := ctor.program_wellTyped hfits key (DictObject.initial key) rfl
    simp only [step] at hstep
    cases hresult : ctor.program (DictObject.initial key) with
    | ok _ d =>
      rw [hresult] at hrun hstep
      obtain rfl := Option.some.inj hstep
      exact h.concat hrun
    | error _ _ =>
      rw [hresult] at hstep
      obtain rfl := Option.some.inj hstep
      exact h
  | copyConstruct other =>
    simp only [step, bind, Option.bind_eq_some_iff] at hstep
    obtain ⟨b, hb, items, hitems, hstep⟩ := hstep
    obtain rfl := Option.some.inj hstep
    exact h.concat (wellTyped_clone (h.get hb) hitems)
  | moveConstruct other =>
    simp only [step, bind, Option.bind_eq_some_iff] at hstep
    obtain ⟨b, hb, hstep⟩ := hstep
    obtain rfl := Option.some.inj hstep
    exact (h.set (wellTyped_emptied (h.get hb)) other).concat (h.get hb)
  | assign target rhs =>
    simp only [step, bind, Option.bind_eq_some_iff] at hstep
    obtain ⟨d, -, b, hb, hstep⟩ := hstep
    split at hstep
    case isTrue =>
      obtain rfl := Option.some.inj hstep
      exact h
    case isFalse =>
      split at hstep
      case isTrue =>
        obtain rfl := Option.some.inj hstep
        exact h
      case isFalse =>
        simp only [Option.bind_eq_some_iff] at hstep
        obtain ⟨items, hitems, hstep⟩ := hstep
        obtain rfl := Option.some.inj hstep
        exact h.set (wellTyped_clone (h.get hb) hitems) target
  | moveAssign target rhs =>
    simp only [step, bind, Option.bind_eq_some_iff] at hstep
    obtain ⟨d, -, b, hb, hstep⟩ := hstep
    split at hstep
    case isTrue =>
      obtain rfl := Option.some.inj hstep
      exact h
    case isFalse =>
      obtain rfl := Option.some.inj hstep
      exact (h.set (wellTyped_emptied (h.get hb)) rhs).set (h.get hb) target
  | mutate target m =>
    simp only [step, bind, Option.bind_eq_some_iff] at hstep
    obtain ⟨d, hd, hstep⟩ := hstep
    split at hstep
    case isTrue =>
      obtain rfl := Option.some.inj hstep
      exact h.set (m.effect_wellTyped (h.get hd) (hfits d hd)) target
    case isFalse => cases hstep
  | setMoved target key item => exact setMoved_wellTyped h hstep

/-- In every run that changes no value type by its code under values of another type, and
    constructs no dict from a text with a NUL byte, every dict holds values of its value
    signature and no null pointers. -/
theorem valuesTyped_of_reachable {s : DictStore} (h : system.ReachableWhen Fits s) :
    ∀ d ∈ s, d.Homogeneous := by
  have hwell : Each WellTyped s := by
    apply h.invariant
    case initial =>
      rintro s rfl d hd
      cases hd
    case preserved =>
      intro s call s' hinv hfits hstep
      exact step_wellTyped hinv hfits hstep
  intro d hd
  obtain ⟨vsig, hvsig⟩ := hwell d hd
  exact hvsig.homogeneous

/-- A value that is refused, a reset by a text under values of another type, and one by a
    code under values of the same type. -/
theorem valuesTyped_run :
    DictObject.Homogeneous
      ⟨.string, text "a{ss}", [(.string (text "a"), some (.basic (.string [])))]⟩ := by
  refine valuesTyped_of_reachable (TransitionSystem.reachableWhen_of_run
    [.construct .string (.ofSignatureString (text "i")),
      .mutate 0 (.setCpp (.string (text "a")) ⟨.int32 1, rfl⟩),
      .mutate 0 (.setString (.string (text "b")) []),
      .mutate 0 (.resetText (some (text "s"))),
      .mutate 0 (.subscript (.string (text "a"))),
      .mutate 0 (.resetTypeCode 115)] rfl ?_ rfl) _ (List.mem_singleton_self _)
  refine ⟨?_, ?_, ?_, ?_, ?_, ?_, trivial⟩
  · show (0 : UInt8) ∉ text "i"
    decide
  · exact fun _ _ => trivial
  · exact fun _ _ => trivial
  · exact fun _ _ => trivial
  · exact fun _ _ => trivial
  · rintro d ⟨⟩ c hc
    obtain rfl : 's'.toUInt8 = c := Option.some.inj hc
    exact .inr rfl

/-- A reset by a type code leaves the values of the old type in place, and a value signature
    with a NUL byte is validated up to that byte. -/
theorem reset_not_homogeneous :
    (system.Reachable
          [⟨.string, text "a{ss}", [(.string (text "a"), some (.basic (.int32 1)))]⟩] ∧
        ¬ DictObject.Homogeneous
          ⟨.string, text "a{ss}", [(.string (text "a"), some (.basic (.int32 1)))]⟩) ∧
      system.Reachable [⟨.string, dictSignature .string (text "i" ++ [0]),
          [(.string (text "a"), some (.basic (.int32 1)))]⟩] ∧
        ¬ DictObject.Homogeneous ⟨.string, dictSignature .string (text "i" ++ [0]),
          [(.string (text "a"), some (.basic (.int32 1)))]⟩ := by
  refine ⟨⟨?_, ?_⟩, ?_, ?_⟩
  · exact TransitionSystem.reachable_of_run
      [.construct .string (.ofSignatureText (some (text "i"))),
        .mutate 0 (.setCpp (.string (text "a")) ⟨.int32 1, rfl⟩),
        .mutate 0 (.resetTypeCode 115)] rfl rfl
  · rintro ⟨-, hvalues⟩
    obtain ⟨v, hv, hsig⟩ := hvalues _ List.mem_cons_self
    cases hv
    exact absurd hsig (by decide)
  · exact TransitionSystem.reachable_of_run
      [.construct .string (.ofSignatureString (text "i" ++ [0])),
        .mutate 0 (.setCpp (.string (text "a")) ⟨.int32 1, rfl⟩)] rfl rfl
  · rintro ⟨-, hvalues⟩
    obtain ⟨v, hv, hsig⟩ := hvalues _ List.mem_cons_self
    cases hv
    exact absurd hsig (by decide)

end DictStore

end Ultrabus
