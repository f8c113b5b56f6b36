import Ultrabus.Lib.Hoare
import Ultrabus.Lib.Transition
import Ultrabus.Value.StructSignature

/-! # The cached signature of a struct

`StructStore.system` runs any sequence of the operations on any number of structs.  Every
struct keeps the signature of its attributes, as long as no struct is added to itself and
none is constructed from a text that is not read to its end. -/

namespace Ultrabus

/-! ## Operations -/

namespace DbusStruct

/-- `update_signature`. -/
def updateSignature (s : DbusStruct) : DbusStruct := { s with sig := structSignature s.items }

/-- `add (const dbus_type&)` of another object. -/
def addCopy (s : DbusStruct) (item : DbusType) : DbusStruct :=
  ⟨s.addAttribSignature item, s.items ++ [item]⟩

/-- `add (dbus_type&&)` of another object. -/
def addMove (s : DbusStruct) (item : DbusType) : DbusStruct := (s.addCopy item).updateSignature

/-- `add_attrib_signature` of the struct itself, whose last character is gone when its
    signature is read. -/
def addOwnSignature (s : DbusStruct) : Bytes :=
  s.sig.dropLast ++ s.sig.dropLast ++ [dbusStructEndChar]

/-- `add (const dbus_type&)` of the struct itself. -/
def addSelf (s : DbusStruct) : DbusStruct :=
  ⟨s.addOwnSignature, s.items ++ [.struct s.addOwnSignature s.items]⟩

/-- `add (dbus_type&&)` of the struct itself: `clone_move` takes its attributes. -/
def addSelfMoved (s : DbusStruct) : DbusStruct :=
  updateSignature ⟨empty.sig, empty.items ++ [.struct s.addOwnSignature s.items]⟩

/-- `add (const T&)` and `add (T&&)` for one of `dbus_basic_cpp_types`. -/
def addCpp (s : DbusStruct) (value : CppValue) : DbusStruct := s.add (some (.basic value.value))

/-- `add (const char*)`: a null pointer is ignored. -/
def addCString (s : DbusStruct) : Option Bytes → DbusStruct
  | none => s
  | some value => s.add (some (.basic (newString (.cString (some value)))))

/-- `remove`. -/
def remove (s : DbusStruct) (pos : Nat) : DbusStruct :=
  if s.items.length ≤ pos then s
  else updateSignature { s with items := s.items.eraseIdx pos }

end DbusStruct

/-! ## Structs with the signature of their attributes -/

def DbusType.isStruct : DbusType → Bool
  | .struct _ _ => true
  | _ => false

/-- The signature of a struct is that of its attributes, and so it is for the attributes that
    are structs. -/
inductive DbusType.Signed : DbusType → Prop where
  | struct {items : List DbusType} : (∀ item ∈ items, Signed item) →
      Signed (.struct (structSignature items) items)
  | other {v : DbusType} : v.isStruct = false → Signed v

namespace DbusStruct

/-- The same of an object. -/
structure Signed (s : DbusStruct) : Prop where
  sig : s.sig = structSignature s.items
  items : ∀ item ∈ s.items, item.Signed

theorem Signed.toDbusType {s : DbusStruct} (h : s.Signed) : s.toDbusType.Signed := by
  rw [DbusStruct.toDbusType, h.sig]
  exact .struct h.items

theorem signed_of_struct {sig : Bytes} {items : List DbusType}
    (h : (DbusType.struct sig items).Signed) : Signed ⟨sig, items⟩ := by
  cases h with
  | struct hitems => exact ⟨rfl, hitems⟩
  | other hother => cases hother

theorem signed_empty : empty.Signed := ⟨rfl, fun _ hitem => absurd hitem List.not_mem_nil⟩

section Signed

variable {s : DbusStruct} {item : DbusType}

theorem forall_mem_concat (h : s.Signed) (hitem : item.Signed) :
    ∀ i ∈ s.items ++ [item], i.Signed := by
  intro i hi
  obtain hold | hnew := List.mem_append.mp hi
  · exact h.items i hold
  · exact List.mem_singleton.mp hnew ▸ hitem

/-- The signature of one more attribute goes in front of the closing parenthesis. -/
theorem Signed.addCopy (h : s.Signed) (hitem : item.Signed) : (s.addCopy item).Signed where
  sig := by
    show s.addAttribSignature item = structSignature (s.items ++ [item])
    rw [addAttribSignature, h.sig, dropLast_structSignature, structSignature,
      DbusType.signatures_append, DbusType.signatures_cons, DbusType.signatures_nil,
      List.append_nil, List.cons_append, List.cons_append]
  items := forall_mem_concat h hitem

theorem Signed.addMove (h : s.Signed) (hitem : item.Signed) : (s.addMove item).Signed :=
  ⟨rfl, forall_mem_concat h hitem⟩

theorem Signed.add (h : s.Signed) {item : Option DbusType} (hitem : ∀ i ∈ item, i.Signed) :
    (s.add item).Signed := by
  cases item with
  | none => exact h
  | some item => exact h.addCopy (hitem item rfl)

theorem Signed.addCString (h : s.Signed) (value : Option Bytes) : (s.addCString value).Signed := by
  cases value with
  | none => exact h
  | some value => exact h.addCopy (.other rfl)

theorem Signed.updateSignature (h : s.Signed) : s.updateSignature.Signed := ⟨rfl, h.items⟩

theorem Signed.remove (h : s.Signed) (pos : Nat) : (s.remove pos).Signed := by
  rw [DbusStruct.remove]
  split
  case isTrue => exact h
  case isFalse => exact ⟨rfl, fun item hitem => h.items item (List.mem_of_mem_eraseIdx hitem)⟩

/-- No struct has the signature that it gets when it is added to itself. -/
theorem not_signed_addSelf (s : DbusStruct) : ¬ s.addSelf.Signed := by
  intro h
  -- The attribute that is added already has the signature of the whole.
  have hlength := congrArg List.length h.sig
  simp only [addSelf, structSignature, DbusType.signatures_append, DbusType.signatures_cons,
    DbusType.signature, List.length_cons, List.length_append] at hlength
  omega

/-- The attribute made of a struct that is moved into itself has its signature twice. -/
theorem Signed.not_signed_addSelfMoved (h : s.Signed) : ¬ s.addSelfMoved.Signed := by
  intro hmoved
  have hinner : Signed ⟨s.addOwnSignature, s.items⟩ :=
    signed_of_struct (hmoved.items _ (List.mem_singleton_self _))
  have hlength := congrArg List.length hinner.sig
  simp only [addOwnSignature, h.sig, dropLast_structSignature] at hlength
  simp only [structSignature, List.length_cons, List.length_append] at hlength
  omega

end Signed

end DbusStruct

/-! ## What the constructor makes -/

mutual
theorem SigType.default_signed (t : SigType) : t.default.Signed := by
  cases t with
  | basic type => exact .other rfl
  | variant => exact .other rfl
  | array element => exact .other rfl
  | struct first rest =>
    have hsig : (SigType.struct first rest).render =
        structSignature (SigType.defaults (first :: rest)) := by
      rw [structSignature, signatures_eq_renderAll (signatures_defaults (first :: rest)),
        ← structText_render, structText]
    rw [SigType.default, hsig]
    refine .struct fun item hitem => ?_
    obtain rfl | hrest := List.mem_cons.mp hitem
    · exact first.default_signed
    · exact SigType.defaults_signed rest item hrest
  | dict key value => exact .other rfl

theorem SigType.defaults_signed (types : List SigType) :
    ∀ item ∈ SigType.defaults types, item.Signed := by
  cases types with
  | nil => exact fun _ hitem => absurd hitem List.not_mem_nil
  | cons type types =>
    intro item hitem
    obtain rfl | hrest := List.mem_cons.mp hitem
    · exact type.default_signed
    · exact SigType.defaults_signed types item hrest
end

/-- The argument of the constructor is refused, or is one complete type between the
    parentheses. -/
def ReadToItsEnd (attributeSignatures : Bytes) : Prop :=
  dbusSignatureValidate (cStr (structText attributeSignatures)) = true →
    dbusSignatureValidateSingle (structText attributeSignatures) = true

/-- A budget within which the constructor returns or throws. -/
def constructionFuel (attributeSignatures : Bytes) : Nat := 2 * attributeSignatures.length + 2

theorem signed_ofAttributeSignatures {s : Bytes} {d : DbusStruct} (hread : ReadToItsEnd s)
    (h : DbusStruct.ofAttributeSignatures (constructionFuel s) s = .ok d) : d.Signed := by
  have hvalid : dbusSignatureValidate (cStr (structText s)) = true := by
    rw [constructionFuel, ofAttributeSignatures_succ] at h
    split at h
    case isTrue => cases h
    case isFalse hpassed =>
      simp only [Bool.or_eq_true, Bool.not_eq_true', not_or, Bool.not_eq_false] at hpassed
      exact hpassed.2
  obtain ⟨t, ht, hlimits⟩ := (validateSingle_iff _).mp (hread hvalid)
  have hnul : (0 : UInt8) ∉ structText s := ht ▸ t.nul_not_mem_render
  obtain ⟨first, rest, rfl, hs⟩ := exists_types_of_structText ht
  have happend : structText s = (SigType.struct first rest).render ++ [] := by
    rw [ht, List.append_nil]
  have hreturns := ofAttributeSignatures_eq hnul (cStr_eq_self hnul ▸ hvalid) happend hlimits
    (2 * s.length + 1) (Nat.le_refl _)
  obtain rfl := Exec.ok.inj (h.symm.trans hreturns)
  refine ⟨?_, SigType.defaults_signed (first :: rest)⟩
  show structText s = structSignature (SigType.defaults (first :: rest))
  rw [structSignature, signatures_eq_renderAll (signatures_defaults (first :: rest)), ← hs,
    structText]

/-! ## Runs -/

/-- All structs there are, in the order in which they were constructed; `none` where the object
    belongs to another struct by now. -/
abbrev StructStore := List (Option DbusStruct)

/-- A struct, or an attribute in it at any depth. -/
structure StructPlace where
  object : Nat
  path : List Nat
deriving DecidableEq

def DbusType.attribute? : DbusType → Nat → Option DbusType
  | .struct _ items, pos => items[pos]?
  | _, _ => none

namespace StructStore

open Hoare (Each)

def object? (s : StructStore) (object : Nat) : Option DbusStruct := s[object]?.join

def at? (s : StructStore) (p : StructPlace) : Option DbusType := do
  let d ← s.object? p.object
  p.path.foldlM DbusType.attribute? d.toDbusType

def structAt? (s : StructStore) (p : StructPlace) : Option DbusStruct :=
  match s.at? p with
  | some (.struct sig items) => some ⟨sig, items⟩
  | _ => none

def setObject (s : StructStore) (object : Nat) (d : DbusStruct) : StructStore :=
  s.set object (some d)

/-- A call, with the structs that take part in it by their places. -/
inductive Call where
  | construct
  | constructSignature (attributeSignatures : Bytes)
  | copyConstruct (other : StructPlace)
  | moveConstruct (other : Nat)
  | assign (target : Nat) (rhs : StructPlace)
  | moveAssign (target rhs : Nat)
  -- `operator=` with a value of another class on the right
  | assignOther (target : Nat) (rhs : DbusType)
  | add (target : Nat) (item : StructPlace)
  | addMoved (target item : Nat)
  -- the pointer overload of `add`, with a struct
  | addOwned (target item : Nat)
  -- the overloads of `add` with values of other classes
  | addOther (target : Nat) (item : DbusType)
  | addOtherMoved (target : Nat) (item : DbusType)
  | addOtherPointer (target : Nat) (item : Option DbusType)
  | addCpp (target : Nat) (item : CppValue)
  | addCString (target : Nat) (item : Option Bytes)
  | remove (target pos : Nat)
  | updateSignature (target : Nat)

/-- The calls that C++ gives a meaning to have a next state: no struct is assigned from a part
    of itself, and none is given the ownership of itself. -/
def step (s : StructStore) : Call → Option StructStore
  | .construct => some (s ++ [some .empty])
  | .constructSignature sig =>
    match DbusStruct.ofAttributeSignatures (constructionFuel sig) sig with
    | .ok d => some (s ++ [some d])
    | _ => some s
  | .copyConstruct other => do
    let b ← s.structAt? other
    return s ++ [some b]
  | .moveConstruct other => do
    let b ← s.object? other
    return s.setObject other .empty ++ [some b]
  | .assign target rhs => do
    let _ ← s.object? target
    let b ← s.structAt? rhs
    if rhs = ⟨target, []⟩ then return s
    else if rhs.object = target then none
    else return s.setObject target b
  | .moveAssign target rhs => do
    let _ ← s.object? target
    let b ← s.object? rhs
    if target = rhs then return s
    else return (s.setObject rhs .empty).setObject target b
  | .assignOther target rhs => do
    let _ ← s.object? target
    if rhs.isStruct then none else return s
  | .add target item => do
    let d ← s.object? target
    if item = ⟨target, []⟩ then return s.setObject target d.addSelf
    else
      let v ← s.at? item
      return s.setObject target (d.addCopy v)
  | .addMoved target item => do
    let d ← s.object? target
    let b ← s.object? item
    if target = item then return s.setObject target d.addSelfMoved
    else return (s.setObject item .empty).setObject target (d.addMove b.toDbusType)
  | .addOwned target item => do
    let d ← s.object? target
    let b ← s.object? item
    if target = item then none
    else return StructStore.setObject (s.set item none) target (d.add (some b.toDbusType))
  | .addOther target item => do
    let d ← s.object? target
    if item.isStruct then none else return s.setObject target (d.addCopy item)
  | .addOtherMoved target item => do
    let d ← s.object? target
    if item.isStruct then none else return s.setObject target (d.addMove item)
  | .addOtherPointer target item => do
    let d ← s.object? target
    if item.any DbusType.isStruct then none else return s.setObject target (d.add item)
  | .addCpp target item => do
    let d ← s.object? target
    return s.setObject target (d.addCpp item)
  | .addCString target item => do
    let d ← s.object? target
    return s.setObject target (d.addCString item)
  | .remove target pos => do
    let d ← s.object? target
    return s.setObject target (d.remove pos)
  | .updateSignature target => do
    let d ← s.object? target
    return s.setObject target d.updateSignature

/-- Any sequence of calls, starting with no structs. -/
def system : TransitionSystem StructStore Call where
  init s := s = []
  step := step

/-- The call adds no struct to itself, and constructs none from a text that is accepted without
    being read to its end. -/
def Fits (_ : StructStore) : Call → Prop
  | .constructSignature sig => ReadToItsEnd sig
  | .add target item => item ≠ ⟨target, []⟩
  | .addMoved target item => target ≠ item
  | _ => True

/-! ## Every struct keeps the signature of its attributes -/

/-- What the invariant says of a place in the store. -/
def SlotSigned (slot : Option DbusStruct) : Prop := ∀ d, slot = some d → d.Signed

theorem slotSigned_some {d : DbusStruct} (h : d.Signed) : SlotSigned (some d) := by
  rintro _ ⟨⟩
  exact h

theorem slotSigned_none : SlotSigned none := by
  rintro _ ⟨⟩

section Each

variable {s : StructStore}

theorem signed_object (h : Each SlotSigned s) {object : Nat} {d : DbusStruct}
    (hd : s.object? object = some d) : d.Signed :=
  h.get (Option.join_eq_some_iff.mp hd) d rfl

theorem signed_attributes {v w : DbusType} (path : List Nat) (hv : v.Signed)
    (hw : path.foldlM DbusType.attribute? v = some w) : w.Signed := by
  induction path generalizing v with
  | nil => exact Option.some.inj hw ▸ hv
  | cons pos path ih =>
    simp only [List.foldlM_cons, bind, Option.bind_eq_some_iff] at hw
    obtain ⟨item, hitem, hrest⟩ := hw
    refine ih ?_ hrest
    cases v with
    | struct sig items =>
      exact (DbusStruct.signed_of_struct hv).items item (List.mem_of_getElem? hitem)
    | _ => cases hitem

theorem signed_at (h : Each SlotSigned s) {p : StructPlace} {v : DbusType}
    (hv : s.at? p = some v) : v.Signed := by
  simp only [at?, bind, Option.bind_eq_some_iff] at hv
  obtain ⟨d, hd, hpath⟩ := hv
  exact signed_attributes p.path (signed_object h hd).toDbusType hpath

theorem signed_structAt (h : Each SlotSigned s) {p : StructPlace} {d : DbusStruct}
    (hd : s.structAt? p = some d) : d.Signed := by
  rw [structAt?] at hd
  split at hd
  case h_1 sig items hv =>
    obtain rfl := Option.some.inj hd
    exact DbusStruct.signed_of_struct (signed_at h hv)
  case h_2 => cases hd

theorem setObject_signed (h : Each SlotSigned s) (object : Nat) {d : DbusStruct}
    (hd : d.Signed) : Each SlotSigned (s.setObject object d) :=
  h.set (slotSigned_some hd) object

/-- A call that changes one struct by itself. -/
theorem mutate_signed (h : Each SlotSigned s) {s' : StructStore} (target : Nat)
    (change : DbusStruct → DbusStruct) (hchange : ∀ d, d.Signed → (change d).Signed)
    (hstep : (do let d ← s.object? target; return s.setObject target (change d)) = some s') :
    Each SlotSigned s' := by
  simp only [bind, Option.bind_eq_some_iff] at hstep
  obtain ⟨d, hd, hstep⟩ := hstep
  obtain rfl := Option.some.inj hstep
  exact setObject_signed h target (hchange d (signed_object h hd))

/-- The same for a call with a value that is no struct. -/
theorem mutateOther_signed (h : Each SlotSigned s) {s' : StructStore} (target : Nat)
    (change : DbusStruct → DbusStruct) (isStruct : Bool)
    (hchange : isStruct = false → ∀ d, d.Signed → (change d).Signed)
    (hstep : (do
      let d ← s.object? target
      if isStruct then none else return s.setObject target (change d)) = some s') :
    Each SlotSigned s' := by
  cases isStruct with
  | true =>
    simp only [bind, Option.bind_eq_some_iff] at hstep
    obtain ⟨d, -, hstep⟩ := hstep
    cases hstep
  | false => exact mutate_signed h target change (hchange rfl) hstep

end Each

/-- One call keeps the invariant. -/
theorem step_signed {s s' : StructStore} (h : Each SlotSigned s) {call : Call}
    (hfits : Fits s call) (hstep : step s call = some s') : Each SlotSigned s' := by
  cases call with
  | construct =>
    obtain rfl := Option.some.inj hstep
    exact h.concat (slotSigned_some DbusStruct.signed_empty)
  | constructSignature sig =>
    simp only [step] at hstep
    split at hstep
    case h_1 d hd =>
      obtain rfl := Option.some.inj hstep
      exact h.concat (slotSigned_some (signed_ofAttributeSignatures hfits hd))
    case h_2 =>
      obtain rfl := Option.some.inj hstep
      exact h
  | copyConstruct other =>
    simp only [step, bind, Option.bind_eq_some_iff] at hstep
    obtain ⟨b, hb, hstep⟩ := hstep
    obtain rfl := Option.some.inj hstep
    exact h.concat (slotSigned_some (signed_structAt h hb))
  | moveConstruct other =>
    simp only [step, bind, Option.bind_eq_some_iff] at hstep
    obtain ⟨b, hb, hstep⟩ := hstep
    obtain rfl := Option.some.inj hstep
    exact (setObject_signed h other DbusStruct.signed_empty).concat
      (slotSigned_some (signed_object h hb))
  | assign target rhs =>
    simp only [step, bind, Option.bind_eq_some_iff] at hstep
    obtain ⟨_, -, b, hb, hstep⟩ := hstep
    split at hstep
    case isTrue =>
      obtain rfl := Option.some.inj hstep
      exact h
    case isFalse =>
      split at hstep
      case isTrue => cases hstep
      case isFalse =>
        obtain rfl := Option.some.inj hstep
        exact setObject_signed h target (signed_structAt h hb)
  | moveAssign target rhs =>
    simp only [step, bind, Option.bind_eq_some_iff] at hstep
    obtain ⟨_, -, b, hb, hstep⟩ := hstep
    split at hstep
    case isTrue =>
      obtain rfl := Option.some.inj hstep
      exact h
    case isFalse =>
      obtain rfl := Option.some.inj hstep
      exact setObject_signed (setObject_signed h rhs DbusStruct.signed_empty) target
        (signed_object h hb)
  | assignOther target rhs =>
    simp only [step, bind, Option.bind_eq_some_iff] at hstep
    obtain ⟨_, -, hstep⟩ := hstep
    split at hstep
    case isTrue => cases hstep
    case isFalse =>
      obtain rfl := Option.some.inj hstep
      exact h
  | add target item =>
    simp only [step, bind, Option.bind_eq_some_iff] at hstep
    obtain ⟨d, hd, hstep⟩ := hstep
    rw [if_neg hfits] at hstep
    obtain ⟨v, hv, hstep⟩ := Option.bind_eq_some_iff.mp hstep
    obtain rfl := Option.some.inj hstep
    exact setObject_signed h target ((signed_object h hd).addCopy (signed_at h hv))
  | addMoved target item =>
    simp only [step, bind, Option.bind_eq_some_iff] at hstep
    obtain ⟨d, hd, b, hb, hstep⟩ := hstep
    rw [if_neg hfits] at hstep
    obtain rfl := Option.some.inj hstep
    exact setObject_signed (setObject_signed h item DbusStruct.signed_empty) target
      ((signed_object h hd).addMove (signed_object h hb).toDbusType)
  | addOwned target item =>
    simp only [step, bind, Option.bind_eq_some_iff] at hstep
    obtain ⟨d, hd, b, hb, hstep⟩ := hstep
    split at hstep
    case isTrue => cases hstep
    case isFalse =>
      obtain rfl := Option.some.inj hstep
      have hgone : Each SlotSigned (s.set item none) := h.set slotSigned_none item
      refine setObject_signed hgone target ((signed_object h hd).add ?_)
      rintro _ ⟨⟩
      exact (signed_object h hb).toDbusType
  | addOther target item =>
    exact mutateOther_signed h target (·.addCopy item) item.isStruct
      (fun hother _ hd => hd.addCopy (.other hother)) hstep
  | addOtherMoved target item =>
    exact mutateOther_signed h target (·.addMove item) item.isStruct
      (fun hother _ hd => hd.addMove (.other hother)) hstep
  | addOtherPointer target item =>
    refine mutateOther_signed h target (·.add item) (item.any DbusType.isStruct)
      (fun hother _ hd => hd.add ?_) hstep
    rintro v rfl
    exact .other hother
  | addCpp target item =>
    exact mutate_signed h target (·.addCpp item) (fun _ hd => hd.addCopy (.other rfl)) hstep
  | addCString target item =>
    exact mutate_signed h target (·.addCString item) (fun _ hd => hd.addCString item) hstep
  | remove target pos =>
    exact mutate_signed h target (·.remove pos) (fun _ hd => hd.remove pos) hstep
  | updateSignature target =>
    exact mutate_signed h target (·.updateSignature) (fun _ hd => hd.updateSignature) hstep

/-- In every run that adds no struct to itself and constructs none from a text that is accepted
    without being read to its end, every struct has the signature of its attributes. -/
theorem signed_of_reachable {s : StructStore} (h : system.ReachableWhen Fits s) {d : DbusStruct}
    (hd : some d ∈ s) : d.toDbusType.Signed := by
  have hsigned : Each SlotSigned s := by
    apply h.invariant
    case initial =>
      rintro s rfl slot hslot
      cases hslot
    case preserved =>
      intro s call s' hinv hfits hstep
      exact step_signed hinv hfits hstep
  exact (hsigned _ hd d rfl).toDbusType

/-- A struct is copied into another one and moved into a third one, and an attribute is removed
    again. -/
theorem signed_run :
    (DbusStruct.toDbusType ⟨text "(s(i))", [.basic (.string []),
      .struct (text "(i)") [.basic (.int32 0)]]⟩).Signed := by
  refine signed_of_reachable (TransitionSystem.reachableWhen_of_run
    [.constructSignature (text "i"), .constructSignature (text "sb"), .construct,
      .add 1 ⟨0, []⟩, .addMoved 2 0, .remove 1 1] rfl ?_ rfl) (List.Mem.tail _ (List.Mem.head _))
  refine ⟨?_, ?_, ?_, ?_, ?_, ?_, trivial⟩
  · show ReadToItsEnd (text "i")
    unfold ReadToItsEnd
    decide
  · show ReadToItsEnd (text "sb")
    unfold ReadToItsEnd
    decide
  · exact trivial
  · show (⟨0, []⟩ : StructPlace) ≠ ⟨1, []⟩
    decide
  · show 2 ≠ 0
    decide
  · exact trivial

/-- A text that reopens the parenthesis, a struct copied into itself and a struct moved into
    itself leave structs with other signatures. -/
theorem unsigned_reachable :
    (system.Reachable [some ⟨text "(i)(s)", [.basic (.int32 0)]⟩] ∧
        ¬ (DbusStruct.toDbusType ⟨text "(i)(s)", [.basic (.int32 0)]⟩).Signed) ∧
      (system.Reachable [some (DbusStruct.addSelf ⟨text "(i)", [.basic (.int32 0)]⟩)] ∧
        ¬ (DbusStruct.addSelf ⟨text "(i)", [.basic (.int32 0)]⟩).toDbusType.Signed) ∧
      system.Reachable [some (DbusStruct.addSelfMoved ⟨text "(i)", [.basic (.int32 0)]⟩)] ∧
        ¬ (DbusStruct.addSelfMoved ⟨text "(i)", [.basic (.int32 0)]⟩).toDbusType.Signed := by
  have hint : DbusStruct.Signed ⟨text "(i)", [.basic (.int32 0)]⟩ :=
    ⟨rfl, fun item hitem => List.mem_singleton.mp hitem ▸ .other rfl⟩
  refine ⟨⟨?_, fun h => ?_⟩, ⟨?_, fun h => ?_⟩, ?_, fun h => ?_⟩
  · exact TransitionSystem.reachable_of_run [.constructSignature (text "i)(s")] rfl rfl
  · exact absurd (DbusStruct.signed_of_struct h).sig (by decide)
  · exact TransitionSystem.reachable_of_run [.constructSignature (text "i"), .add 0 ⟨0, []⟩] rfl rfl
  · exact DbusStruct.not_signed_addSelf _ (DbusStruct.signed_of_struct h)
  · exact TransitionSystem.reachable_of_run [.constructSignature (text "i"), .addMoved 0 0] rfl rfl
  · exact hint.not_signed_addSelfMoved (DbusStruct.signed_of_struct h)

end StructStore

end Ultrabus
