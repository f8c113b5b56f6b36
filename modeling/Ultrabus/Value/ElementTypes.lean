import Ultrabus.Value.ObjectStore

/-! # The types of elements

Containers keep elements of one type.  An assignment through a reference to an element changes
the type of the element when an array, a struct or a dict adopts the signature of the operand,
and in no other case. -/

namespace Ultrabus

open DbusObject (Access)

/-- The signature of the elements of an array or of the values of a dict. -/
def DbusObject.ElementsMatch : DbusObject → Prop
  | .array sig items => ∀ item ∈ items, item.signature = sig.tail
  | .dict key sig items =>
    ∀ item ∈ items, item.2.signature = DictObject.valueSignature ⟨key, sig, []⟩
  | _ => True

/-- The elements of every array and the values of every dict in it have the signature that the
    container has for them. -/
inductive DbusObject.Homogeneous : DbusObject → Prop where
  | basic (value : Basic) : Homogeneous (.basic value)
  | array {element : Bytes} {items : List DbusObject} :
      (∀ item ∈ items, item.signature = element) → (∀ item ∈ items, Homogeneous item) →
      Homogeneous (.array (dbusTypeArray :: element) items)
  | struct {sig : Bytes} {items : List DbusObject} : (∀ item ∈ items, Homogeneous item) →
      Homogeneous (.struct sig items)
  | dict {key : BasicType} {value : Bytes} {items : List (Basic × DbusObject)} :
      (0 : UInt8) ∉ value → (∀ item ∈ items, item.2.signature = value) →
      (∀ item ∈ items, Homogeneous item.2) → Homogeneous (.dict key (dictSignature key value) items)
  | variant {value : DbusObject} : Homogeneous value → Homogeneous (.variant value)
  | emptyVariant : Homogeneous .emptyVariant

namespace DbusObject

theorem Homogeneous.elementsMatch {object : DbusObject} (h : object.Homogeneous) :
    object.ElementsMatch := by
  cases h with
  | array hsig _ => exact hsig
  | @dict key value items _ hsig _ =>
    show ∀ item ∈ items, _
    rw [DictObject.valueSignature, drop_take_dict]
    exact hsig
  | _ => trivial

/-- The coherent values are homogeneous. -/
theorem homogeneous_ofValue {v : DbusType} (h : v.Coherent) : (ofValue v).Homogeneous := by
  induction h with
  | basic _ _ _ => exact .basic _
  | array _ _ hitems _ ih =>
    rw [ofValue, ofItems_eq_map]
    refine .array (List.forall_mem_map.mpr fun item hitem => ?_) (List.forall_mem_map.mpr ih)
    rw [signature_ofValue]
    exact hitems item hitem
  | struct _ _ _ ih =>
    rw [ofValue, ofItems_eq_map]
    exact .struct (List.forall_mem_map.mpr ih)
  | @dict key value items hsig _ _ _ _ hvalues _ ih =>
    have hnul := nul_not_mem_of_validateSingle (validateSingle_dict_value hsig)
    rw [ofValue, ofEntries_eq_map]
    refine .dict hnul (List.forall_mem_map.mpr fun item hitem => ?_) (List.forall_mem_map.mpr ih)
    show (ofValue item.2).signature = value
    rw [signature_ofValue]
    exact hvalues item hitem
  | variant _ _ ih => exact .variant ih

theorem homogeneous_of_made {v : DbusType} (h : v.Made) : (ofValue v).Homogeneous := by
  induction h with
  | basic type => exact .basic _
  | array element => exact .array nofun nofun
  | @struct sig items _ ih =>
    rw [ofValue, ofItems_eq_map]
    exact .struct (List.forall_mem_map.mpr ih)
  | dict key hnul => exact .dict hnul nofun nofun
  | variant => exact .variant (.basic _)

/-! ## Elements in their place -/

/-- Access to what an array or a dict owns. -/
def Access.isElement : Access → Bool
  | .element _ | .value _ => true
  | _ => false

def FitsElement (a : Access) (old new : DbusObject) : Prop :=
  a.isElement = true → new.signature = old.signature

theorem homogeneous_local : accessors.Local Homogeneous FitsElement where
  part := by
    intro v a part hv hpart
    simp only [accessors_get] at hpart
    cases hv <;> cases a <;> simp only [get?, reduceCtorEq, Option.some.injEq] at hpart
    case array.element element items hsig hitems n =>
      exact hitems part (List.mem_of_getElem? hpart)
    case struct.attribute sig items hitems n => exact hitems part (List.mem_of_getElem? hpart)
    case dict.value key value items hnul hsig hitems n =>
      obtain ⟨item, hitem, rfl⟩ := Option.map_eq_some_iff.mp hpart
      exact hitems item (List.mem_of_getElem? hitem)
    case variant.content value hvalue => exact hpart ▸ hvalue
    case emptyVariant.content => exact hpart ▸ .basic _
  set := by
    intro v a part new hv hpart hnew hfits
    simp only [accessors_get, accessors_set] at hpart ⊢
    cases hv <;> cases a <;> simp only [get?, reduceCtorEq, Option.some.injEq] at hpart
    case array.element element items hsig hitems n =>
      have hpartSig := hsig part (List.mem_of_getElem? hpart)
      exact .array (forall_mem_set ((hfits rfl).trans hpartSig) hsig) (forall_mem_set hnew hitems)
    case struct.attribute sig items hitems n => exact .struct (forall_mem_set hnew hitems)
    case dict.value key value items hnul hsig hitems n =>
      obtain ⟨i, hi, rfl⟩ := Option.map_eq_some_iff.mp hpart
      have hpartSig := hsig i (List.mem_of_getElem? hi)
      exact .dict hnul
        (forall_mem_modify (P := fun v => v.signature = value) ((hfits rfl).trans hpartSig) hsig)
        (forall_mem_modify hnew hitems)
    case variant.content | emptyVariant.content => exact .variant hnew
  fits_set := fun a b new _ _ => signature_set _ b new

theorem Homogeneous.refilled {v : DbusObject} (h : v.Homogeneous) : v.refilled.Homogeneous := by
  induction h with
  | basic value => exact .basic value
  | array hsig _ ih =>
    rw [DbusObject.refilled, refilledItems_eq_map]
    refine .array (List.forall_mem_map.mpr fun item hitem => ?_) (List.forall_mem_map.mpr ih)
    rw [signature_refilled]
    exact hsig item hitem
  | struct _ ih =>
    rw [DbusObject.refilled, refilledItems_eq_map]
    exact .struct (List.forall_mem_map.mpr ih)
  | dict hnul hsig _ ih =>
    rw [DbusObject.refilled, refilledEntries_eq_map]
    refine .dict hnul (List.forall_mem_map.mpr fun item hitem => ?_) (List.forall_mem_map.mpr ih)
    show item.2.refilled.signature = _
    rw [signature_refilled]
    exact hsig item hitem
  | variant _ ih => exact .variant ih
  | emptyVariant => exact .variant (.basic _)

theorem Homogeneous.moved {v : DbusObject} (h : v.Homogeneous) : v.moved.Homogeneous := by
  cases h with
  | basic value => cases value <;> exact .basic _
  | array _ _ => exact .array nofun nofun
  | struct _ => exact .struct nofun
  | dict hnul _ _ => exact .dict hnul nofun nofun
  | variant _ | emptyVariant => exact .emptyVariant

/-! ## Signatures that are adopted -/

/-- `operator=` makes the signature of the operand that of the target, and it is another one. -/
def Adopts (target rhs : DbusObject) : Prop :=
  target.SameContainer rhs ∧ rhs.signature ≠ target.signature

theorem SameContainer.ok {target rhs : DbusObject} (h : target.SameContainer rhs) (byMove : Bool) :
    ∃ v, target.assign rhs byMove = .ok v ∧ v.signature = rhs.signature := by
  cases target with
  | array sig items | struct sig items =>
    cases rhs <;> first | exact h.elim | cases byMove <;> exact ⟨_, rfl, rfl⟩
  | dict key sig items =>
    cases rhs with
    | dict key' sig' items' =>
      obtain rfl : key' = key := h
      cases byMove with
      | true => exact ⟨.dict key' sig' items', by simp [assign, moveAssign], rfl⟩
      | false => exact ⟨.dict key' sig' (refilledEntries items'), by simp [assign, copyAssign], rfl⟩
    | _ => exact h.elim
  | _ => cases rhs <;> exact h.elim

theorem assign_cases {target rhs v : DbusObject} {byMove : Bool}
    (h : target.assign rhs byMove = .ok v) :
    v.signature = target.signature ∨ (target.SameContainer rhs ∧ v.signature = rhs.signature) := by
  cases byMove with
  | true =>
    obtain ⟨old, new, rfl, rfl, htype⟩ | ⟨hsame, rfl⟩ | ⟨hvariant, rfl⟩ := moveAssign_cases h
    · exact .inl (by rw [signature, signature, htype])
    · exact .inr ⟨hsame, rfl⟩
    · exact .inl (by rw [signature_wrapped, signature_of_isVariant hvariant])
  | false =>
    obtain ⟨old, new, rfl, rfl, htype⟩ | ⟨hsame, rfl⟩ | ⟨hvariant, rfl⟩ := copyAssign_cases h
    · exact .inl (by rw [signature, signature, htype])
    · exact .inr ⟨hsame, rhs.signature_refilled⟩
    · exact .inl (by rw [signature_wrapped, signature_of_isVariant hvariant])

/-- An assignment throws or leaves the signature as it is, unless the signature is adopted. -/
theorem assign_keeps_iff (target rhs : DbusObject) (byMove : Bool) :
    (∀ v, target.assign rhs byMove = .ok v → v.signature = target.signature) ↔
      ¬ target.Adopts rhs := by
  constructor
  · rintro h ⟨hsame, hne⟩
    obtain ⟨v, hv, hsig⟩ := hsame.ok byMove
    exact hne (hsig.symm.trans (h v hv))
  · intro hnot v hv
    obtain hkept | ⟨hsame, hsig⟩ := assign_cases hv
    · exact hkept
    · by_contra hne
      exact hnot ⟨hsame, fun heq => hne (hsig.trans heq)⟩

end DbusObject

namespace ObjectStore

/-! ## Runs -/

variable {ι : Type}

/-- The object at the place is an element of an array or a value of a dict. -/
def Place.IsElement (p : Place ι) : Prop := ∃ a ∈ p.path.getLast?, a.isElement = true

/-- No element adopts another signature, and no struct is moved out of an array or a dict, since
    that leaves the signature of a struct without attributes behind. -/
def KeepsSignatures (s : State ι) : Label ι → Prop
  | .assign target operand byMove => target ≠ operand →
    ∀ t x, s.at? target = some t → s.at? operand = some x →
      (target.IsElement → ¬ t.Adopts x) ∧
        (byMove = true → operand.IsElement → x.isStruct = true →
          t.isStruct = false ∧ t.isVariant = false)
  | .clone _ other true | .newVariantOf _ other true =>
    ∀ x, s.at? other = some x → other.IsElement → x.isStruct = false
  | _ => True

theorem fitsElement_moved {p : Place ι} {x : DbusObject}
    (h : p.IsElement → x.isStruct = false) :
    ∀ a ∈ p.path.getLast?, DbusObject.FitsElement a x x.moved :=
  fun a ha helement => DbusObject.signature_moved (h ⟨a, ha, helement⟩)

theorem homogeneous_create {sig : Bytes} {v : DbusObject} (h : create? sig = some v) :
    v.Homogeneous := by
  obtain ⟨value, hvalue, rfl⟩ := create?_eq_some h
  exact DbusObject.homogeneous_of_made (made_createDbusType hvalue)

theorem homogeneous_subscript {key : BasicType} {sig : Bytes} {items : List (Basic × DbusObject)}
    {value : DbusObject} (k : Basic) (h : (DbusObject.dict key sig items).Homogeneous)
    (hcreate : create? (DictObject.valueSignature ⟨key, sig, []⟩) = some value) :
    (DbusObject.dict key sig (OrderedMap.assign Basic.less k value items)).Homogeneous := by
  have hvalue := homogeneous_create hcreate
  cases h with
  | @dict _ valueSig _ hnul hsig hitems =>
    rw [DictObject.valueSignature, drop_take_dict] at hcreate
    refine .dict hnul (fun i hi => ?_) fun i hi => ?_
    · obtain hnew | ⟨old, hold, heq⟩ := OrderedMap.value_of_mem_assign hi
      · exact hnew ▸ signature_create hnul hcreate
      · exact heq ▸ hsig old hold
    · obtain hnew | ⟨old, hold, heq⟩ := OrderedMap.value_of_mem_assign hi
      · exact hnew ▸ hvalue
      · exact heq ▸ hitems old hold

theorem kept_homogeneous [DecidableEq ι] :
    Kept DbusObject.Homogeneous DbusObject.FitsElement (@KeepsSignatures ι) where
  isLocal := DbusObject.homogeneous_local
  fits _ _ _ hsig _ _ := hsig
  basic := .basic
  emptyVariant := .emptyVariant
  variant h _ := .variant h
  refilled := DbusObject.Homogeneous.refilled
  moved := DbusObject.Homogeneous.moved
  subscript := homogeneous_subscript
  moveAssign := by
    intro s target operand t x v hallowed hne ht hx hassign
    obtain ⟨hadopts, hstruct⟩ := hallowed hne t x ht hx
    constructor
    · intro a ha helement
      exact (DbusObject.assign_keeps_iff t x true).mpr (hadopts ⟨a, ha, helement⟩) v hassign
    · refine fitsElement_moved fun helement => Bool.eq_false_of_not_eq_true fun hx => ?_
      obtain ⟨hnotStruct, hnotVariant⟩ := hstruct rfl helement hx
      obtain htarget | htarget := DbusObject.isStruct_of_moveAssign hassign hx
      · simp [hnotStruct] at htarget
      · simp [hnotVariant] at htarget
  copyAssign := by
    intro s target operand t x v hallowed hne ht hx hassign a ha helement
    obtain ⟨hadopts, -⟩ := hallowed hne t x ht hx
    exact (DbusObject.assign_keeps_iff t x false).mpr (hadopts ⟨a, ha, helement⟩) v hassign
  moveOut := by
    intro s label other x hallowed hlabel hx
    refine fitsElement_moved fun helement => ?_
    cases label with
    | clone object other byMove | newVariantOf object other byMove =>
      cases byMove <;> cases hlabel
      exact hallowed x hx helement
    | _ => cases hlabel
  ofSignature _ _ hcreate := .variant (homogeneous_create hcreate)
  ofTypeCode _ _ hcreate := .variant (homogeneous_create hcreate)

variable [DecidableEq ι]

/-- An assignment through a reference throws or leaves the signature as it is, exactly when the
    target does not adopt a signature, and the elements of all arrays and dicts match, at any
    depth and in every run in which none of them adopts another. -/
theorem elementTypes_kept :
    (∀ (target rhs : DbusObject) (byMove : Bool),
      (∀ v, target.assign rhs byMove = .ok v → v.signature = target.signature) ↔
        ¬ target.Adopts rhs) ∧
    ∀ s : State ι, (system ι DbusObject.Homogeneous).ReachableWhen KeepsSignatures s →
      ∀ p v, s.at? p = some v → v.ElementsMatch := by
  refine ⟨DbusObject.assign_keeps_iff, fun s h p v hv => ?_⟩
  have heach : Each DbusObject.Homogeneous s := kept_homogeneous.each h
  exact (heach.at? DbusObject.homogeneous_local hv).elementsMatch

omit [DecidableEq ι] in
theorem keepsSignatures_assign {s : State ι} {target operand : Place ι} {byMove : Bool}
    {t x : DbusObject} (ht : s.at? target = some t) (hx : s.at? operand = some x)
    (hadopts : ¬ t.Adopts x) (hstruct : x.isStruct = false) :
    KeepsSignatures s (.assign target operand byMove) := by
  intro _ t' x' ht' hx'
  obtain rfl := Option.some.inj (ht.symm.trans ht')
  obtain rfl := Option.some.inj (hx.symm.trans hx')
  exact ⟨fun _ => hadopts, fun _ _ hx => by simp [hstruct] at hx⟩

def arrayOfInts (items : List Int32) : DbusObject :=
  .array [dbusTypeArray, BasicType.int32.code] (items.map fun n => .basic (.int32 n))

theorem homogeneous_arrayOfInts (items : List Int32) : (arrayOfInts items).Homogeneous :=
  .array (List.forall_mem_map.mpr fun _ _ => rfl) (List.forall_mem_map.mpr fun _ _ => .basic _)

/-- An array of two arrays of integers, another array of integers and one of strings. -/
def arrays : State Nat
  | 0 => some (.array [dbusTypeArray, dbusTypeArray, BasicType.int32.code]
    [arrayOfInts [1], arrayOfInts []])
  | 1 => some (arrayOfInts [5])
  | 2 => some (.array [dbusTypeArray, BasicType.string.code] [])
  | _ => none

theorem init_arrays : (system Nat DbusObject.Homogeneous).init arrays
  | 0, _, rfl =>
    .array (List.forall_mem_cons.mpr ⟨rfl, List.forall_mem_singleton.mpr rfl⟩)
      (List.forall_mem_cons.mpr ⟨homogeneous_arrayOfInts [1],
        List.forall_mem_singleton.mpr (homogeneous_arrayOfInts [])⟩)
  | 1, _, rfl => homogeneous_arrayOfInts [5]
  | 2, _, rfl => .array nofun nofun

/-- Elements are assigned arrays of integers, and an integer what it cannot hold. -/
def arraysRun : List (Label Nat) :=
  [.assign ⟨0, [.element 0]⟩ ⟨1, []⟩ true, .assign ⟨0, [.element 1]⟩ ⟨0, [.element 0]⟩ false,
    .assign ⟨0, [.element 1, .element 0]⟩ ⟨2, []⟩ false]

theorem arraysRun_elementTypes_kept :
    ∃ s v, (system Nat DbusObject.Homogeneous).run arrays arraysRun = some s ∧
      s.at? ⟨0, []⟩ = some v ∧ v.ElementsMatch ∧ s.at? ⟨0, [.element 1]⟩ = some (arrayOfInts [5]) ∧
      s.at? ⟨1, []⟩ = some (arrayOfInts []) := by
  have hrun : (system Nat DbusObject.Homogeneous).run arrays arraysRun = some _ := rfl
  refine ⟨_, _, hrun, rfl, elementTypes_kept.2 _
    (TransitionSystem.reachableWhen_of_run arraysRun init_arrays ?_ hrun) ⟨0, []⟩ _ rfl, rfl, rfl⟩
  exact ⟨keepsSignatures_assign rfl rfl (fun h => h.2 rfl) rfl,
    keepsSignatures_assign rfl rfl (fun h => h.2 rfl) rfl,
    keepsSignatures_assign rfl rfl (fun h => h.1) rfl, trivial⟩

/-- An element of an array of arrays of integers is assigned an array of strings. -/
theorem arrays_element_adopts :
    ∃ s v, (system Nat DbusObject.Homogeneous).init arrays ∧
      (system Nat DbusObject.Homogeneous).run arrays
        [.assign ⟨0, [.element 0]⟩ ⟨2, []⟩ false] = some s ∧
      (arrays.at? ⟨0, [.element 0]⟩).map DbusObject.signature = some (text "ai") ∧
      (s.at? ⟨0, [.element 0]⟩).map DbusObject.signature = some (text "as") ∧
      s.at? ⟨0, []⟩ = some v ∧ ¬ v.ElementsMatch := by
  refine ⟨_, _, init_arrays, rfl, by decide, by decide, rfl, fun h => ?_⟩
  have hfirst := h (.array [dbusTypeArray, BasicType.string.code] []) (.head _)
  revert hfirst
  decide

end ObjectStore

end Ultrabus
