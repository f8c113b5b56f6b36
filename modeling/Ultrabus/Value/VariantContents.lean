import Ultrabus.Value.ObjectStore

/-! # What variants contain

The constructors and assignments of `dbus_variant` take what is in a variant and not the variant
itself, wherever it comes from.  The constructors that make a default value do not look at it:
the default value of the signature of a variant is a variant. -/

namespace Ultrabus

/-- No variant in it contains a variant. -/
inductive DbusObject.Flat : DbusObject → Prop where
  | basic (value : Basic) : Flat (.basic value)
  | array (sig : Bytes) {items : List DbusObject} : (∀ item ∈ items, Flat item) →
      Flat (.array sig items)
  | struct (sig : Bytes) {items : List DbusObject} : (∀ item ∈ items, Flat item) →
      Flat (.struct sig items)
  | dict (key : BasicType) (sig : Bytes) {items : List (Basic × DbusObject)} :
      (∀ item ∈ items, Flat item.2) → Flat (.dict key sig items)
  | variant {value : DbusObject} : value.isVariant = false → Flat value → Flat (.variant value)
  | emptyVariant : Flat .emptyVariant

namespace DbusObject

theorem flat_of_made {v : DbusType} (h : v.Made) : (ofValue v).Flat := by
  induction h with
  | basic type => exact .basic _
  | array element => exact .array _ nofun
  | @struct sig items _ ih =>
    rw [ofValue, ofItems_eq_map]
    exact .struct sig (List.forall_mem_map.mpr ih)
  | dict key hnul => exact .dict key _ nofun
  | variant => exact .variant rfl (.basic _)

/-- What takes the place of the content of a variant is not a variant unless that was one. -/
def FitsContent (a : Access) (old new : DbusObject) : Prop :=
  a = .content → new.isVariant = old.isVariant

theorem flat_local : accessors.Local Flat FitsContent where
  part := by
    intro v a part hv hpart
    simp only [accessors_get] at hpart
    cases hv <;> cases a <;> simp only [get?, reduceCtorEq, Option.some.injEq] at hpart
    case array.element sig items hitems n => exact hitems part (List.mem_of_getElem? hpart)
    case struct.attribute sig items hitems n => exact hitems part (List.mem_of_getElem? hpart)
    case dict.value key sig items hitems n =>
      obtain ⟨item, hitem, rfl⟩ := Option.map_eq_some_iff.mp hpart
      exact hitems item (List.mem_of_getElem? hitem)
    case variant.content value hvariant hvalue => exact hpart ▸ hvalue
    case emptyVariant.content => exact hpart ▸ .basic _
  set := by
    intro v a part new hv hpart hnew hfits
    simp only [accessors_get, accessors_set] at hpart ⊢
    cases hv <;> cases a <;> simp only [get?, reduceCtorEq, Option.some.injEq] at hpart
    case array.element sig items hitems n => exact .array sig (forall_mem_set hnew hitems)
    case struct.attribute sig items hitems n => exact .struct sig (forall_mem_set hnew hitems)
    case dict.value key sig items hitems n => exact .dict key sig (forall_mem_modify hnew hitems)
    case variant.content value hvariant hvalue =>
      exact .variant ((hfits rfl).trans (hpart ▸ hvariant)) hnew
    case emptyVariant.content => exact .variant ((hfits rfl).trans (hpart ▸ rfl)) hnew
  fits_set := fun a b new _ _ => isVariant_set _ b new

theorem Flat.refilled {v : DbusObject} (h : v.Flat) : v.refilled.Flat := by
  induction h with
  | basic value => exact .basic value
  | array sig _ ih =>
    rw [DbusObject.refilled, refilledItems_eq_map]
    exact .array sig (List.forall_mem_map.mpr ih)
  | struct sig _ ih =>
    rw [DbusObject.refilled, refilledItems_eq_map]
    exact .struct sig (List.forall_mem_map.mpr ih)
  | dict key sig _ ih =>
    rw [DbusObject.refilled, refilledEntries_eq_map]
    exact .dict key sig (List.forall_mem_map.mpr ih)
  | variant hvariant _ ih =>
    rw [DbusObject.refilled]
    exact .variant ((isVariant_refilled _).trans hvariant) ih
  | emptyVariant => exact .variant rfl (.basic _)

theorem Flat.moved {v : DbusObject} (h : v.Flat) : v.moved.Flat := by
  cases h with
  | basic value => cases value <;> exact .basic _
  | array sig _ => exact .array sig nofun
  | struct sig _ => exact .struct _ nofun
  | dict key sig _ => exact .dict key sig nofun
  | variant _ _ | emptyVariant => exact .emptyVariant

/-- No assignment makes a variant of another object, or another object of a variant. -/
theorem isVariant_moveAssign {target rhs v : DbusObject} (h : target.moveAssign rhs = .ok v) :
    v.isVariant = target.isVariant := by
  obtain ⟨old, new, rfl, rfl, -⟩ | ⟨hsame, rfl⟩ | ⟨hvariant, rfl⟩ := moveAssign_cases h
  · rfl
  · exact SameContainer.isVariant_eq hsame
  · rw [isVariant_wrapped, hvariant]

theorem isVariant_copyAssign {target rhs v : DbusObject} (h : target.copyAssign rhs = .ok v) :
    v.isVariant = target.isVariant := by
  obtain ⟨old, new, rfl, rfl, -⟩ | ⟨hsame, rfl⟩ | ⟨hvariant, rfl⟩ := copyAssign_cases h
  · rfl
  · exact rhs.isVariant_refilled.trans (SameContainer.isVariant_eq hsame)
  · rw [isVariant_wrapped, hvariant]

end DbusObject

namespace ObjectStore

theorem typeCode_of_variant {typeCode : Int} (hvalid : dbusTypeIsValid typeCode = true)
    (hcode : cStr [UInt8.ofInt typeCode] = [dbusTypeVariant]) :
    typeCode = dbusTypeVariant.toNat := by
  have hrange : 0 ≤ typeCode ∧ typeCode < 256 := by
    by_contra hnot
    simp [dbusTypeIsValid, charOfInt?, if_neg hnot] at hvalid
  have hchar : UInt8.ofInt typeCode = dbusTypeVariant := by
    simp only [cStr, List.takeWhile_cons] at hcode
    split at hcode
    case isTrue => exact (List.cons.inj hcode).1
    case isFalse => cases hcode
  have hnat : (UInt8.ofInt typeCode).toNat = typeCode.toNat := by
    rw [UInt8.ofInt, UInt8.toNat_ofNat']
    omega
  rw [← hchar, hnat]
  omega

/-! ## Runs -/

variable {ι : Type}

/-- No variant is constructed from the signature or from the type code of variants. -/
def NamesNoVariant (_ : State ι) : Label ι → Prop
  | .newVariantOfSignature _ valueSignature =>
    ∀ sig, signatureOf? valueSignature = some sig → cStr sig ≠ [dbusTypeVariant]
  | .newVariantOfTypeCode _ typeCode => typeCode ≠ dbusTypeVariant.toNat
  | _ => True

theorem flat_create {sig : Bytes} {v : DbusObject} (h : create? sig = some v) : v.Flat := by
  obtain ⟨value, hvalue, rfl⟩ := create?_eq_some h
  exact DbusObject.flat_of_made (made_createDbusType hvalue)

theorem flat_variant_create {sig : Bytes} {v : DbusObject} (h : create? sig = some v)
    (hne : cStr sig ≠ [dbusTypeVariant]) : (DbusObject.variant v).Flat := by
  refine .variant (Bool.eq_false_of_not_eq_true fun hvariant => ?_) (flat_create h)
  obtain ⟨value, hvalue, rfl⟩ := create?_eq_some h
  rw [DbusObject.isVariant_ofValue] at hvariant
  exact hne (cStr_of_isVariant hvalue hvariant)

theorem flat_subscript {key : BasicType} {sig : Bytes} {items : List (Basic × DbusObject)}
    {value : DbusObject} (k : Basic) (h : (DbusObject.dict key sig items).Flat)
    (hcreate : create? (DictObject.valueSignature ⟨key, sig, []⟩) = some value) :
    (DbusObject.dict key sig (OrderedMap.assign Basic.less k value items)).Flat := by
  cases h with
  | dict _ _ hitems =>
    refine .dict key sig fun i hi => ?_
    obtain hnew | ⟨old, hold, heq⟩ := OrderedMap.value_of_mem_assign hi
    · exact hnew ▸ flat_create hcreate
    · exact heq ▸ hitems old hold

theorem kept_flat : Kept DbusObject.Flat DbusObject.FitsContent (@NamesNoVariant ι) where
  isLocal := DbusObject.flat_local
  fits _ _ _ _ hvariant _ := hvariant
  basic := .basic
  emptyVariant := .emptyVariant
  variant h hvariant := .variant hvariant h
  refilled := DbusObject.Flat.refilled
  moved := DbusObject.Flat.moved
  subscript := flat_subscript
  moveAssign _ _ _ _ hassign :=
    ⟨fun _ _ _ => DbusObject.isVariant_moveAssign hassign,
      fun _ _ _ => DbusObject.isVariant_moved _⟩
  copyAssign _ _ _ _ hassign _ _ _ := DbusObject.isVariant_copyAssign hassign
  moveOut _ _ _ _ _ _ := DbusObject.isVariant_moved _
  ofSignature hallowed hsig hcreate := flat_variant_create hcreate (hallowed _ hsig)
  ofTypeCode hallowed hvalid hcreate :=
    flat_variant_create hcreate fun hcode => hallowed (typeCode_of_variant hvalid hcode)

variable [DecidableEq ι]

/-- No variant contains a variant in a run in which none is constructed from the signature or
    the type code of variants. -/
theorem content_not_variant {s : State ι}
    (h : (system ι DbusObject.Flat).ReachableWhen NamesNoVariant s) (p : Place ι)
    (v content : DbusObject) (hv : s.at? p = some v) (hvariant : v.isVariant = true)
    (hcontent : v.get? .content = some content) : content.isVariant = false := by
  have heach : Each DbusObject.Flat s := kept_flat.each h
  have hflat := heach.at? DbusObject.flat_local hv
  cases hflat with
  | variant hnot _ => exact Option.some.inj hcontent ▸ hnot
  | emptyVariant => exact Option.some.inj hcontent ▸ rfl
  | _ => cases hvariant

/-- Variants are constructed, moved into each other and read. -/
def variantsRun : List (Label Nat) :=
  [.newVariant 0, .newVariantOfSignature 1 (.cString (some [BasicType.string.code])),
    .newVariantOf 2 ⟨1, []⟩ true, .assign ⟨0, []⟩ ⟨2, []⟩ false,
    .newVariantOf 3 ⟨2, [.content]⟩ true, .newVariantOfPointer 4 (some 3),
    -- the code of a byte
    .newVariantOfTypeCode 5 121,
    .get ⟨1, []⟩, .assign ⟨5, []⟩ ⟨4, []⟩ true, .assignText ⟨0, []⟩ (.string (text "text"))]

theorem variantsRun_content_not_variant :
    ∃ s content, (system Nat DbusObject.Flat).run (fun _ => none) variantsRun = some s ∧
      s.at? ⟨5, [.content]⟩ = some content ∧ content.isVariant = false ∧
      s.at? ⟨4, []⟩ = some .emptyVariant := by
  have hrun : (system Nat DbusObject.Flat).run (fun _ => none) variantsRun = some _ := rfl
  have hempty : (system Nat DbusObject.Flat).init fun _ => none := by
    intro i v hv
    cases hv
  refine ⟨_, .basic (.string []), hrun, rfl, content_not_variant
    (TransitionSystem.reachableWhen_of_run variantsRun hempty ?_ hrun) ⟨5, []⟩
    (.variant (.basic (.string []))) _ rfl rfl rfl, rfl⟩
  have hstring : cStr [BasicType.string.code] ≠ [dbusTypeVariant] := by decide
  have hbyte : (121 : Int) ≠ dbusTypeVariant.toNat := by decide
  refine ⟨trivial, fun sig hsig => ?_, trivial, trivial, trivial, trivial, hbyte, trivial, trivial,
    trivial, trivial⟩
  cases hsig
  exact hstring

/-- A variant is constructed from the signature or from the type code of variants. -/
theorem newVariant_contains_variant :
    (∃ s, (system Nat DbusObject.Flat).run (fun _ => none)
        [.newVariantOfSignature 0 (.cString (some [dbusTypeVariant]))] = some s ∧
      s.at? ⟨0, []⟩ = some (.variant (.variant DbusObject.newI32))) ∧
    ∃ s, (system Nat DbusObject.Flat).run (fun _ => none)
        [.newVariantOfTypeCode 0 118] = some s ∧
      s.at? ⟨0, []⟩ = some (.variant (.variant DbusObject.newI32)) :=
  ⟨⟨_, rfl, rfl⟩, ⟨_, rfl, rfl⟩⟩

end ObjectStore

end Ultrabus
