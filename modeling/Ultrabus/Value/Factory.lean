import Ultrabus.Lib.Exec
import Ultrabus.Value.Typing

/-! # Values from signatures

`create_dbus_type` and the constructors that it calls: of arrays and dicts from the
signature of their contents, of structs from those of their attributes.  The constructor
of a struct calls `create_dbus_type` again for every attribute, so that both spend a unit
of a budget.

The signature iterator of libdbus stands for the complete types still ahead of it at one
level. -/

namespace Ultrabus

/-- The default constructor of each class. -/
def BasicType.default : BasicType → Basic
  | .byte => .byte 0
  | .boolean => .boolean false
  | .int16 => .int16 0
  | .uint16 => .uint16 0
  | .int32 => .int32 0
  | .uint32 => .uint32 0
  | .int64 => .int64 0
  | .uint64 => .uint64 0
  | .double => .double 0
  | .string => .string []
  | .objectPath => .objectPath (text "/")
  | .signature => .signature []
  | .unixFd => .unixFd (-1)

@[simp] theorem BasicType.type_default (t : BasicType) : t.default.type = t := by
  cases t <;> rfl

def createDbusBasic (typeCode : UInt8) : Option DbusType :=
  (BasicType.ofCode? typeCode).map fun type => .basic type.default

/-- `dbus_dict<KeyType> (const char* value_signature)`. -/
def DbusDict.ofValueSignatureText (key : BasicType) (valueSignature : Bytes) :
    Except Exception DbusDict :=
  if dbusSignatureValidateSingle valueSignature then
    .ok ⟨key, dictSignature key valueSignature, []⟩
  else .error (.invalidArgument (text "Invalid DBus Dict value signature"))

/-- `create_dbus_dict (int, const char*)`: one class of dicts for each basic type code. -/
def createDbusDict (dbusTypeCode : UInt8) (valueSignature : Bytes) :
    Except Exception (Option DbusType) := do
  if !dbusSignatureValidateSingle valueSignature then return none
  match BasicType.ofCode? dbusTypeCode with
  | some key =>
    let dict ← DbusDict.ofValueSignatureText key valueSignature
    return some dict.toDbusType
  | none => return none

/-- `dbus_variant ()`. -/
def DbusVariant.default : DbusType := .variant (.basic BasicType.int32.default)

/-! ## The signature iterator -/

/-- The texts of the complete types still ahead at one level. -/
abbrev SignatureIter := List Bytes

/-- `dbus_signature_iter_init` and `dbus_signature_iter_recurse` into a struct. -/
def SignatureIter.recurseStruct (sig : Bytes) : SignatureIter :=
  match parseSingle (2 * sig.length) sig with
  | some (.struct first rest, _) => (first :: rest).map SigType.render
  | _ => []

/-! ## The factory -/

mutual
def createDbusType : Nat → Bytes → Exec Exception (Option DbusType)
  | 0, _ => .timeout
  | fuel + 1, sig =>
    if sig.isEmpty || !dbusSignatureValidateSingle (cStr sig) then return none
    else
      let typeCode := sig.headD 0
      if typeCode = dbusTypeArray then
        if sig[1]? = some dbusDictEntryBeginChar then
          .ofExcept (createDbusDict (sig[2]?.getD 0) (cStr ((sig.drop 3).take (sig.length - 4))))
        else do
          let array ← .ofExcept (DbusArray.ofElementSignature (cStr sig.tail))
          return some array.toDbusType
      else if typeCode = dbusStructBeginChar then do
        let s ← DbusStruct.ofAttributeSignatures fuel ((sig.drop 1).take (sig.length - 2))
        return some s.toDbusType
      else if typeCode = dbusTypeVariant then return some DbusVariant.default
      else return createDbusBasic typeCode

/-- `dbus_struct (const std::string& attribute_signatures)`. -/
def DbusStruct.ofAttributeSignatures : Nat → Bytes → Exec Exception DbusStruct
  | 0, _ => .timeout
  | fuel + 1, attributeSignatures =>
    let sig := dbusStructBeginChar :: (attributeSignatures ++ [dbusStructEndChar])
    if attributeSignatures.isEmpty || !dbusSignatureValidate (cStr sig) then
      .throw (.invalidArgument (text "Invalid signature for DBus struct attributes"))
    else do
      let items ← attribLoop fuel [] (SignatureIter.recurseStruct (cStr sig))
      return ⟨sig, items⟩

/-- The body of the loop runs before the iterator is asked for another type. -/
def attribLoop : Nat → List DbusType → SignatureIter → Exec Exception (List DbusType)
  | 0, _, _ => .timeout
  | fuel + 1, items, attribIter => do
    let ptr ← createDbusType fuel (attribIter.headD [])
    match ptr with
    | none => .throw (.invalidArgument (text "Invalid signature for DBus struct attribute"))
    | some item =>
      match attribIter.tail with
      | [] => return items ++ [item]
      | next => attribLoop fuel (items ++ [item]) next
end

/-! ## What the factory makes -/

mutual
/-- The value of a type that has nothing in it but what the type asks for. -/
def SigType.default : SigType → DbusType
  | .basic type => .basic type.default
  | .variant => DbusVariant.default
  | .array element => .array (SigType.array element).render []
  | .struct first rest =>
    .struct (SigType.struct first rest).render (first.default :: SigType.defaults rest)
  | .dict key value => .dict key (SigType.dict key value).render []

def SigType.defaults : List SigType → List DbusType
  | [] => []
  | type :: types => type.default :: SigType.defaults types
end

mutual
theorem SigType.default_hasType (t : SigType) : t.default.HasType t := by
  cases t with
  | basic type => exact .basic type.type_default
  | variant =>
    have hcontent : (DbusType.basic (.int32 0)).HasType (.basic .int32) := .basic rfl
    exact .variant rfl hcontent
  | array element => exact .array fun item hitem => absurd hitem List.not_mem_nil
  | struct first rest => exact .struct first.default_hasType (SigType.defaults_hasTypes rest)
  | dict key value =>
    exact .dict (fun item hitem => absurd hitem List.not_mem_nil) .nil
      fun item hitem => absurd hitem List.not_mem_nil

theorem SigType.defaults_hasTypes (types : List SigType) :
    HasTypes types (SigType.defaults types) := by
  cases types with
  | nil => exact .nil
  | cons type types => exact .cons type.default_hasType (SigType.defaults_hasTypes types)
end

/-! ## The checks agree at every level -/

theorem SigType.le_of_mem {t : SigType} {types : List SigType} (h : t ∈ types) :
    t.render.length ≤ (SigType.renderAll types).length ∧
      t.arrayDepth ≤ SigType.arrayDepthAll types ∧
      t.structDepth ≤ SigType.structDepthAll types := by
  induction types with
  | nil => cases h
  | cons type types ih =>
    simp only [SigType.renderAll, SigType.arrayDepthAll, SigType.structDepthAll,
      List.length_append]
    obtain rfl | hmem := List.mem_cons.mp h
    · omega
    · have := ih hmem
      omega

theorem SigType.WithinLimits.struct_field {first : SigType} {rest : List SigType}
    (h : (SigType.struct first rest).WithinLimits) {t : SigType} (ht : t ∈ first :: rest) :
    t.WithinLimits := by
  obtain ⟨hlength, harray, hstruct⟩ := h
  have hle := SigType.le_of_mem ht
  simp only [SigType.render, SigType.renderAll, SigType.arrayDepth, SigType.arrayDepthAll,
    SigType.structDepth, SigType.structDepthAll, List.length_cons, List.length_append] at *
  exact ⟨by omega, by omega, by omega⟩

theorem SigType.WithinLimits.validateSingle {t : SigType} (h : t.WithinLimits) :
    dbusSignatureValidateSingle t.render = true :=
  (validateSingle_iff _).mpr ⟨t, rfl, h⟩

theorem SigType.WithinLimits.validate {t : SigType} (h : t.WithinLimits) :
    dbusSignatureValidate t.render = true :=
  (validate_iff _).mpr ⟨[t], (SigType.renderAll_singleton t).symm, h.1, by simpa using h⟩

@[simp] theorem cStr_render (t : SigType) : cStr t.render = t.render :=
  cStr_eq_self t.nul_not_mem_render

/-- The attribute signatures that the factory cuts out of the text of a struct. -/
theorem drop_take_struct (body : Bytes) :
    let sig := dbusStructBeginChar :: (body ++ [dbusStructEndChar])
    (sig.drop 1).take (sig.length - 2) = body := by
  simp

/-- The value signature that the factory cuts out of the text of a dict. -/
theorem drop_take_dict (key : BasicType) (value : Bytes) :
    ((dictSignature key value).drop 3).take ((dictSignature key value).length - 4) = value := by
  simp [dictSignature, dictEntrySignature]

theorem render_struct (first : SigType) (rest : List SigType) :
    (SigType.struct first rest).render = dbusStructBeginChar ::
      ((first.render ++ SigType.renderAll rest) ++ [dbusStructEndChar]) := by
  rw [SigType.render, List.append_assoc]

theorem recurseStruct_render (first : SigType) (rest : List SigType) :
    SignatureIter.recurseStruct (SigType.struct first rest).render =
      (first :: rest).map SigType.render := by
  have hparse := parseSingle_render (.struct first rest) [] _
    (Nat.le_refl (2 * (SigType.struct first rest).render.length))
  rw [List.append_nil] at hparse
  rw [SignatureIter.recurseStruct, hparse]

/-! ## The factory returns -/

open Exec (Settles eventually_succ)
open Filter (atTop)

theorem createDbusDict_render {key : BasicType} {value : SigType}
    (h : (SigType.dict key value).WithinLimits) :
    createDbusDict key.code value.render = .ok (some (SigType.dict key value).default) := by
  have hvalue : dbusSignatureValidateSingle value.render = true :=
    validateSingle_dict_value (h.validateSingle : dbusSignatureValidateSingle
      (dictSignature key value.render) = true)
  simp only [createDbusDict, hvalue, BasicType.ofCode?_code, DbusDict.ofValueSignatureText]
  rfl

mutual
/-- The text of a type within the limits becomes the default value of the type.  Two units
    for each byte are enough. -/
theorem createDbusType_render (t : SigType) (h : t.WithinLimits) (fuel : Nat)
    (enough : 2 * t.render.length ≤ fuel) :
    createDbusType fuel t.render = .ok (some t.default) := by
  have hvalid := h.validateSingle
  have hnonempty : t.render.isEmpty = false := by simp [t.render_ne_nil]
  cases fuel with
  | zero => have := t.render_length_pos; omega
  | succ fuel =>
    simp only [createDbusType, cStr_render, hvalid, hnonempty]
    cases t with
    | basic type => simp [SigType.render, createDbusBasic, SigType.default]
    | variant => rfl
    | array element =>
      -- The element does not start as a dict entry.
      obtain ⟨c, tail, hhead, -, hnotDict⟩ := element.render_head
      have hsecond : (SigType.array element).render[1]? ≠ some dbusDictEntryBeginChar := by
        simpa [SigType.render, hhead] using hnotDict
      have hctor : DbusArray.ofElementSignature element.render =
          .ok ⟨(SigType.array element).render, []⟩ := if_pos hvalid
      simp only [if_neg hsecond]
      simp [SigType.render, hctor, SigType.default, DbusArray.toDbusType]
    | struct first rest =>
      rw [render_struct, drop_take_struct,
        ofAttributeSignatures_render first rest h fuel (by omega)]
      rfl
    | dict key value =>
      rw [show (SigType.dict key value).render = dictSignature key value.render from rfl,
        drop_take_dict, cStr_render]
      simp only [dictSignature, dictEntrySignature, List.headD_cons, List.getElem?_cons_succ,
        List.getElem?_cons_zero, Option.getD_some, createDbusDict_render h]
      rfl
termination_by fuel

theorem ofAttributeSignatures_render (first : SigType) (rest : List SigType)
    (h : (SigType.struct first rest).WithinLimits) (fuel : Nat)
    (enough : 2 * (SigType.struct first rest).render.length ≤ fuel + 1) :
    DbusStruct.ofAttributeSignatures fuel (first.render ++ SigType.renderAll rest) =
      .ok ⟨(SigType.struct first rest).render, first.default :: SigType.defaults rest⟩ := by
  have hbody : (first.render ++ SigType.renderAll rest).isEmpty = false := by
    simp [first.render_ne_nil]
  rw [render_struct, List.length_cons, List.length_append] at enough
  cases fuel with
  | zero => omega
  | succ fuel =>
    have hloop := attribLoop_render first rest (fun t ht => h.struct_field ht) [] fuel (by
      simp only [SigType.renderAll, List.length_singleton] at enough ⊢
      omega)
    simp only [DbusStruct.ofAttributeSignatures, hbody, ← render_struct, cStr_render,
      recurseStruct_render, hloop, h.validate]
    rfl
termination_by fuel

/-- The loop goes over the attributes to the last one. -/
theorem attribLoop_render (first : SigType) (rest : List SigType)
    (h : ∀ t ∈ first :: rest, t.WithinLimits) (items : List DbusType) (fuel : Nat)
    (enough : 2 * (SigType.renderAll (first :: rest)).length + 1 ≤ fuel) :
    attribLoop fuel items ((first :: rest).map SigType.render) =
      .ok (items ++ first.default :: SigType.defaults rest) := by
  simp only [SigType.renderAll, List.length_append] at enough
  cases fuel with
  | zero => omega
  | succ fuel =>
    have hfirst := createDbusType_render first (h first (.head _)) fuel (by omega)
    cases rest with
    | nil => simp [attribLoop, hfirst, SigType.defaults]
    | cons second rest =>
      have hpos := first.render_length_pos
      have hloop := attribLoop_render second rest (fun t ht => h t (.tail _ ht))
        (items ++ [first.default]) fuel (by omega)
      rw [List.append_assoc] at hloop
      simp only [attribLoop, List.map_cons, List.headD_cons, hfirst, Exec.ok_bind,
        List.tail_cons, SigType.defaults]
      exact hloop
termination_by fuel
end

/-- On a text without NUL bytes the factory returns: the default value of the type, at every
    level of the classes that the text denotes, if the text is one complete type within
    the limits, and a null pointer otherwise. -/
theorem createDbusType_settles {sig : Bytes} (hnul : (0 : UInt8) ∉ sig) :
    ∃ ptr, Settles (fun fuel => createDbusType fuel sig) (.ok ptr) ∧
      (ptr.isSome = true ↔ ∃ t : SigType, sig = t.render ∧ t.WithinLimits) ∧
      ∀ v, ptr = some v → v.signature = sig ∧
        ∃ t : SigType, sig = t.render ∧ v.HasType t ∧ v = t.default := by
  by_cases hsig : ∃ t : SigType, sig = t.render ∧ t.WithinLimits
  · obtain ⟨t, rfl, ht⟩ := hsig
    refine ⟨some t.default, ?_, by simpa using ⟨t, rfl, ht⟩, ?_⟩
    · exact (Filter.eventually_ge_atTop _).mono (createDbusType_render t ht)
    · rintro v ⟨⟩
      exact ⟨t.default_hasType.signature, t, rfl, t.default_hasType, rfl⟩
  · have hinvalid : dbusSignatureValidateSingle sig = false := by
      rw [← validateSingle_iff, Bool.not_eq_true] at hsig
      exact hsig
    refine ⟨none, ?_, by simpa using hsig, fun v hv => by cases hv⟩
    apply eventually_succ
    refine .of_forall fun fuel => ?_
    simp [createDbusType, cStr_eq_self hnul, hinvalid]

theorem createDbusType_settles_struct :
    ∃ ptr, Settles (fun fuel => createDbusType fuel (text "(ia{sv}ag)")) (.ok ptr) ∧
      (ptr.isSome = true ↔
        ∃ t : SigType, text "(ia{sv}ag)" = t.render ∧ t.WithinLimits) ∧
      ∀ v, ptr = some v → v.signature = text "(ia{sv}ag)" ∧
        ∃ t : SigType, text "(ia{sv}ag)" = t.render ∧ v.HasType t ∧ v = t.default :=
  createDbusType_settles (by decide)

end Ultrabus
