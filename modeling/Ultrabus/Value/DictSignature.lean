import Ultrabus.Value.DictOperations

/-! # The value types that a dict accepts

The constructors of `dbus_dict`, `reset` and `create_dbus_dict` validate the value signature
alone, and then put four characters and a level of arrays around it. -/

namespace Ultrabus

/-- The calls that take the value signature of a dict as a text. -/
inductive ValueTypeCall where
  -- `dbus_dict (const char*)`
  | constructText
  -- `dbus_dict (const std::string&)`
  | constructString
  -- `reset (const char*)` and `reset (const std::string&)` on a dict
  | resetText (d : DictObject)
  | resetString (d : DictObject)
  -- `create_dbus_dict (int, const char*)` and `create_dbus_dict (int, const std::string&)`
  | create

namespace ValueTypeCall

/-- A dict that a call makes, or leaves when it returns true, has one single complete type for
    its signature, and a call of `reset` that returns false, or throws, changes nothing.
    `key` is the key type of a new dict. -/
def AcceptsOnlyValid (key : BasicType) (v : Bytes) : ValueTypeCall → Prop
  | .constructText => ∀ d, DictObject.ofSignatureText (some v) (DictObject.initial key) = .ok () d →
    dbusSignatureValidateSingle d.sig = true
  | .constructString => ∀ d, DictObject.ofSignatureString v (DictObject.initial key) = .ok () d →
    dbusSignatureValidateSingle d.sig = true
  | .resetText d =>
    match DictObject.resetText (some v) d with
    | .ok true d' => dbusSignatureValidateSingle d'.sig = true
    | .ok false d' | .error _ d' => d' = d
  | .resetString d =>
    match DictObject.resetString v d with
    | .ok true d' => dbusSignatureValidateSingle d'.sig = true
    | .ok false d' | .error _ d' => d' = d
  | .create => ∀ value, createDbusDict key.code (cStr v) = .ok (some value) →
    dbusSignatureValidateSingle value.signature = true

/-- The signature of the dict that the call makes, or leaves when it returns true. -/
def wholeSignature (key : BasicType) (v : Bytes) : ValueTypeCall → Bytes
  | .constructText | .create => dictSignature key (cStr v)
  -- The constructor checks the text up to its first NUL and keeps all of it.
  | .constructString => dictSignature key v
  | .resetText d | .resetString d => dictSignature d.key (cStr v)

/-- If the text up to its first NUL is a value signature at all, then it has at most 251
    characters and 31 levels of arrays; and the text that the constructor takes as a
    `std::string` has no NUL. -/
def LeavesRoom (v : Bytes) (call : ValueTypeCall) : Prop :=
  ∀ t : SigType, cStr v = t.render → t.WithinLimits →
    t.render.length ≤ 251 ∧ t.arrayDepth ≤ 31 ∧ (call = .constructString → (0 : UInt8) ∉ v)

end ValueTypeCall

/-! ## The signature of the whole -/

/-- Of a complete type the type of the dict is complete too, but it may be beyond the limits. -/
theorem validateSingle_dictSignature_iff (key : BasicType) {t : SigType} (h : t.WithinLimits) :
    dbusSignatureValidateSingle (dictSignature key t.render) = true ↔
      t.render.length ≤ 251 ∧ t.arrayDepth ≤ 31 := by
  obtain ⟨-, -, hstruct⟩ := h
  have hrender : dictSignature key t.render = (SigType.dict key t).render := rfl
  rw [hrender, validateSingle_iff]
  constructor
  · rintro ⟨whole, hwhole, hlength, harray, -⟩
    obtain rfl := SigType.render_injective hwhole
    simp only [SigType.render, SigType.arrayDepth, List.length_cons, List.length_append,
      List.length_nil, dbusMaximumSignatureLength, dbusMaximumTypeRecursionDepth] at hlength harray
    omega
  · rintro ⟨hlength, harray⟩
    refine ⟨.dict key t, rfl, ?_, ?_, hstruct⟩
    · simp only [SigType.render, List.length_cons, List.length_append, List.length_nil,
        dbusMaximumSignatureLength]
      omega
    · simp only [SigType.arrayDepth, dbusMaximumTypeRecursionDepth]
      omega

theorem nul_notMem_of_validateSingle_dict {key : BasicType} {v : Bytes}
    (h : dbusSignatureValidateSingle (dictSignature key v) = true) : (0 : UInt8) ∉ v := by
  have hnul := nul_not_mem_of_validateSingle h
  simp only [dictSignature, dictEntrySignature, List.mem_cons, List.mem_append, not_or] at hnul
  exact hnul.2.2.2.1

/-- The check on the value signature says enough of the whole exactly if there is room for the
    characters around it. -/
theorem validateSingle_dict_iff (key : BasicType) (v : Bytes) :
    (dbusSignatureValidateSingle (cStr v) = true →
      dbusSignatureValidateSingle (dictSignature key (cStr v)) = true) ↔
    ∀ t : SigType, cStr v = t.render → t.WithinLimits →
      t.render.length ≤ 251 ∧ t.arrayDepth ≤ 31 := by
  rw [validateSingle_iff]
  constructor
  · intro h t ht hlimits
    have hwhole := h ⟨t, ht, hlimits⟩
    rwa [ht, validateSingle_dictSignature_iff key hlimits] at hwhole
  · rintro h ⟨t, ht, hlimits⟩
    rw [ht, validateSingle_dictSignature_iff key hlimits]
    exact h t ht hlimits

/-! ## The calls -/

section Calls

variable (key : BasicType) (v : Bytes)

theorem ofSignatureText_run :
    DictObject.ofSignatureText (some v) (DictObject.initial key) =
      if dbusSignatureValidateSingle (cStr v) then .ok () ⟨key, dictSignature key (cStr v), []⟩
      else .error DictObject.invalidValueSignature (DictObject.initial key) := by
  simp only [DictObject.ofSignatureText]
  cases dbusSignatureValidateSingle (cStr v) <;> rfl

theorem ofSignatureString_run :
    DictObject.ofSignatureString v (DictObject.initial key) =
      if dbusSignatureValidateSingle (cStr v) then .ok () ⟨key, dictSignature key v, []⟩
      else .error DictObject.invalidValueSignature (DictObject.initial key) := by
  simp only [DictObject.ofSignatureString]
  cases dbusSignatureValidateSingle (cStr v) <;> rfl

theorem resetText_run (d : DictObject) :
    DictObject.resetText (some v) d =
      if dbusSignatureValidateSingle (cStr v) then
        .ok true ⟨d.key, dictSignature d.key (cStr v), []⟩
      else .ok false d := by
  simp only [DictObject.resetText]
  cases dbusSignatureValidateSingle (cStr v) <;> rfl

theorem createDbusDict_run :
    createDbusDict key.code (cStr v) =
      .ok (if dbusSignatureValidateSingle (cStr v) then
        some (.dict key (dictSignature key (cStr v)) []) else none) := by
  cases hvalid : dbusSignatureValidateSingle (cStr v) with
  | false =>
    simp only [createDbusDict, hvalid]
    rfl
  | true =>
    simp only [createDbusDict, hvalid, BasicType.ofCode?_code, DbusDict.ofValueSignatureText]
    rfl

end Calls

namespace ValueTypeCall

/-- `reset` on a text that has no NUL or that ends at its first NUL. -/
theorem resetText_iff (d : DictObject) (v : Bytes) :
    (match DictObject.resetText (some v) d with
      | .ok true d' => dbusSignatureValidateSingle d'.sig = true
      | .ok false d' | .error _ d' => d' = d) ↔
    (dbusSignatureValidateSingle (cStr v) = true →
      dbusSignatureValidateSingle (dictSignature d.key (cStr v)) = true) := by
  rw [resetText_run]
  cases dbusSignatureValidateSingle (cStr v) with
  | false => simp
  | true => simp

/-- A call accepts what passes the check on the value signature, and the signature it makes of
    it should pass the check too. -/
theorem acceptsOnlyValid_iff_wholeSignature (key : BasicType) (v : Bytes)
    (call : ValueTypeCall) : call.AcceptsOnlyValid key v ↔
      (dbusSignatureValidateSingle (cStr v) = true →
        dbusSignatureValidateSingle (call.wholeSignature key v) = true) := by
  cases call with
  | constructText =>
    rw [AcceptsOnlyValid, ofSignatureText_run]
    cases dbusSignatureValidateSingle (cStr v) <;> simp [wholeSignature]
  | constructString =>
    rw [AcceptsOnlyValid, ofSignatureString_run]
    cases dbusSignatureValidateSingle (cStr v) <;> simp [wholeSignature]
  | resetText d => exact resetText_iff d v
  | resetString d => exact resetText_iff d v
  | create =>
    rw [AcceptsOnlyValid, createDbusDict_run]
    cases dbusSignatureValidateSingle (cStr v) <;> simp [DbusType.signature, wholeSignature]

/-- For every text, every key type and every state of the dict, a call accepts only value types
    of valid dicts exactly if the text leaves room for the characters and the level of arrays
    around it. -/
theorem acceptsOnlyValid_iff (key : BasicType) (v : Bytes) (call : ValueTypeCall) :
    call.AcceptsOnlyValid key v ↔ call.LeavesRoom v := by
  rw [acceptsOnlyValid_iff_wholeSignature]
  -- The condition for the calls that take the text up to its first NUL.
  have hroom : call ≠ .constructString → (call.LeavesRoom v ↔
      ∀ t : SigType, cStr v = t.render → t.WithinLimits →
        t.render.length ≤ 251 ∧ t.arrayDepth ≤ 31) := by
    intro hcall
    simp only [LeavesRoom, hcall, false_implies, and_true]
  cases call with
  | constructText => exact (validateSingle_dict_iff key v).trans (hroom (by simp)).symm
  | create => exact (validateSingle_dict_iff key v).trans (hroom (by simp)).symm
  | resetText d => exact (validateSingle_dict_iff d.key v).trans (hroom (by simp)).symm
  | resetString d => exact (validateSingle_dict_iff d.key v).trans (hroom (by simp)).symm
  | constructString =>
    simp only [wholeSignature, validateSingle_iff (cStr v)]
    constructor
    · intro h t ht hlimits
      have hwhole := h ⟨t, ht, hlimits⟩
      have hnul := nul_notMem_of_validateSingle_dict hwhole
      rw [← cStr_eq_self hnul, ht, validateSingle_dictSignature_iff key hlimits] at hwhole
      exact ⟨hwhole.1, hwhole.2, fun _ => hnul⟩
    · intro h hvalid
      obtain ⟨t, ht, hlimits⟩ := hvalid
      obtain ⟨hlength, harray, hnul⟩ := h t ht hlimits
      rw [← cStr_eq_self (hnul rfl), ht, validateSingle_dictSignature_iff key hlimits]
      exact ⟨hlength, harray⟩

/-- A struct of 250 integers: 252 characters, and 256 with those of a dict around them. -/
def longStruct : SigType := .struct (.basic .int32) (List.replicate 249 (.basic .int32))

/-- Every call accepts the value signature although no message can carry such a dict. -/
theorem longStruct_not_acceptsOnlyValid :
    ¬ ValueTypeCall.constructText.AcceptsOnlyValid .string longStruct.render ∧
      ¬ ValueTypeCall.constructString.AcceptsOnlyValid .string longStruct.render ∧
      ¬ (ValueTypeCall.resetText ⟨.string, text "a{si}", []⟩).AcceptsOnlyValid .string
        longStruct.render ∧
      ¬ ValueTypeCall.create.AcceptsOnlyValid .string longStruct.render := by
  have hlimits : longStruct.WithinLimits := by decide +kernel
  have hwhole : ¬ dbusSignatureValidateSingle (dictSignature .string longStruct.render) := by
    rw [validateSingle_dictSignature_iff .string hlimits]
    decide +kernel
  have hcall : ∀ call : ValueTypeCall,
      call.wholeSignature .string longStruct.render = dictSignature .string longStruct.render →
        ¬ call.AcceptsOnlyValid .string longStruct.render := by
    intro call hsig
    rw [acceptsOnlyValid_iff_wholeSignature, cStr_render, hsig]
    exact fun h => hwhole (h hlimits.validateSingle)
  have hcStr := congrArg (dictSignature .string) (cStr_render longStruct)
  exact ⟨hcall _ hcStr, hcall _ rfl, hcall _ hcStr, hcall _ hcStr⟩

end ValueTypeCall

end Ultrabus
