import Ultrabus.Value.Factory

/-! # Structs from the signatures of their attributes

The constructor of a struct puts its argument between parentheses and validates the result
as a sequence of types, but makes attributes for the first type of the sequence only. -/

namespace Ultrabus

open Exec (Settles eventually_succ)

/-- The signature of a struct with attributes of the given signatures. -/
def structText (attributeSignatures : Bytes) : Bytes :=
  dbusStructBeginChar :: (attributeSignatures ++ [dbusStructEndChar])

/-- The argument is accepted exactly when it makes one single complete type, and the struct has
    one attribute for each type in it then. -/
structure ConstructsStruct (s : Bytes) : Prop where
  succeeds_iff :
    (∃ v, Settles (fun fuel => DbusStruct.ofAttributeSignatures fuel s) (.ok v)) ↔
      ∃ t : SigType, structText s = t.render ∧ t.WithinLimits
  made : ∀ v, Settles (fun fuel => DbusStruct.ofAttributeSignatures fuel s) (.ok v) →
    v.sig = structText s ∧ v.sig = structSignature v.items ∧
      ∃ types, s = SigType.renderAll types ∧
        v.items.map DbusType.signature = types.map SigType.render

/-- The argument closes the parenthesis in front of it and opens another one, so that there are
    two or more types. -/
def ReopensParenthesis (s : Bytes) : Prop :=
  ∃ first second rest, structText s = SigType.renderAll (first :: second :: rest) ∧
    (structText s).length ≤ dbusMaximumSignatureLength ∧
    ∀ t ∈ first :: second :: rest, t.WithinLimits

/-! ## Types in parentheses -/

theorem structText_render (first : SigType) (rest : List SigType) :
    structText (SigType.renderAll (first :: rest)) = (SigType.struct first rest).render :=
  (render_struct first rest).symm

/-- A complete type at the start of a text in parentheses is a struct. -/
theorem exists_struct_of_structText {s more : Bytes} {t : SigType}
    (h : structText s = t.render ++ more) : ∃ first rest, t = .struct first rest := by
  have harray : dbusStructBeginChar ≠ dbusTypeArray := by decide
  have hvariant : dbusStructBeginChar ≠ dbusTypeVariant := by decide
  cases t with
  | basic type => exact absurd (List.cons.inj h).1.symm type.code_ne_structBegin
  | variant => exact absurd (List.cons.inj h).1 hvariant
  | array element => exact absurd (List.cons.inj h).1 harray
  | struct first rest => exact ⟨first, rest, rfl⟩
  | dict key value => exact absurd (List.cons.inj h).1 harray

/-- One complete type is a struct of the types between the parentheses. -/
theorem exists_types_of_structText {s : Bytes} {t : SigType} (h : structText s = t.render) :
    ∃ first rest, t = .struct first rest ∧ s = SigType.renderAll (first :: rest) := by
  obtain ⟨first, rest, rfl⟩ :=
    exists_struct_of_structText (h.trans (List.append_nil _).symm)
  refine ⟨first, rest, rfl, ?_⟩
  rw [← structText_render] at h
  exact List.append_cancel_right (List.cons.inj h).2

/-- The types of a sequence are found one after the other. -/
theorem SigType.renderAll_injective {types types' : List SigType}
    (h : SigType.renderAll types = SigType.renderAll types') : types = types' := by
  have hparse := parseTypes_render types _ (Nat.le_refl _)
  rw [h, parseTypes_render types' _ (Nat.le_refl _)] at hparse
  exact (Option.some.inj hparse).symm

theorem signatures_defaults (types : List SigType) :
    (SigType.defaults types).map DbusType.signature = types.map SigType.render := by
  induction types with
  | nil => rfl
  | cons type types ih =>
    rw [SigType.defaults, List.map_cons, List.map_cons, ih, type.default_hasType.signature]

theorem signatures_eq_renderAll {items : List DbusType} {types : List SigType}
    (h : items.map DbusType.signature = types.map SigType.render) :
    DbusType.signatures items = SigType.renderAll types := by
  rw [DbusType.signatures, List.flatMap_def, h]
  induction types generalizing items with
  | nil => rfl
  | cons type types ih =>
    cases items with
    | nil => cases h
    | cons item items =>
      rw [List.map_cons, List.flatten_cons, ih (List.cons.inj h).2, SigType.renderAll]

/-! ## The constructor -/

theorem ofAttributeSignatures_succ (fuel : Nat) (s : Bytes) :
    DbusStruct.ofAttributeSignatures (fuel + 1) s =
      if s.isEmpty || !dbusSignatureValidate (cStr (structText s)) then
        .throw (.invalidArgument (text "Invalid signature for DBus struct attributes"))
      else do
        let items ← attribLoop fuel [] (SignatureIter.recurseStruct (cStr (structText s)))
        return ⟨structText s, items⟩ := by
  rw [DbusStruct.ofAttributeSignatures]
  rfl

/-- The check passes where a sequence of types starts with a struct, and the attributes are
    those of that struct. -/
theorem ofAttributeSignatures_eq {s more : Bytes} {first : SigType} {rest : List SigType}
    (hnul : (0 : UInt8) ∉ structText s) (hvalid : dbusSignatureValidate (structText s) = true)
    (hs : structText s = (SigType.struct first rest).render ++ more)
    (hlimits : (SigType.struct first rest).WithinLimits) (fuel : Nat)
    (enough : 2 * s.length + 1 ≤ fuel) :
    DbusStruct.ofAttributeSignatures (fuel + 1) s =
      .ok ⟨structText s, SigType.defaults (first :: rest)⟩ := by
  have hiter : SignatureIter.recurseStruct (structText s) = (first :: rest).map SigType.render := by
    have hparse := parseSingle_render (.struct first rest) more (2 * (structText s).length) (by
      rw [hs, List.length_append]
      omega)
    rw [← hs] at hparse
    rw [SignatureIter.recurseStruct, hparse]
  have hempty : s.isEmpty = false := by
    cases s with
    | nil =>
      -- Nothing is left between the parentheses for the first attribute.
      obtain ⟨c, tail, hhead, hend, -⟩ := first.render_head
      simp only [structText, SigType.render, hhead, List.nil_append, List.cons_append,
        List.cons.injEq] at hs
      exact absurd hs.2.1.symm hend
    | cons b s => rfl
  have hlength : (SigType.renderAll (first :: rest)).length ≤ s.length := by
    have hlengths := congrArg List.length hs
    rw [← structText_render] at hlengths
    simp only [structText, List.length_cons, List.length_append] at hlengths
    omega
  have hloop := attribLoop_render first rest (fun t ht => hlimits.struct_field ht) [] fuel
    (by omega)
  simp only [ofAttributeSignatures_succ, cStr_eq_self hnul, hvalid, hempty, hiter, hloop]
  rfl

theorem ofAttributeSignatures_settles {s more : Bytes} {first : SigType} {rest : List SigType}
    (hnul : (0 : UInt8) ∉ structText s) (hvalid : dbusSignatureValidate (structText s) = true)
    (hs : structText s = (SigType.struct first rest).render ++ more)
    (hlimits : (SigType.struct first rest).WithinLimits) :
    Settles (fun fuel => DbusStruct.ofAttributeSignatures fuel s)
      (.ok ⟨structText s, SigType.defaults (first :: rest)⟩) := by
  apply eventually_succ
  exact (Filter.eventually_ge_atTop (2 * s.length + 1)).mono
    (ofAttributeSignatures_eq hnul hvalid hs hlimits)

/-- Otherwise the constructor throws. -/
theorem ofAttributeSignatures_throws {s : Bytes} (hnul : (0 : UInt8) ∉ structText s)
    (hinvalid : s = [] ∨ dbusSignatureValidate (structText s) = false) :
    Settles (fun fuel => DbusStruct.ofAttributeSignatures fuel s)
      (.throw (.invalidArgument (text "Invalid signature for DBus struct attributes"))) := by
  apply eventually_succ
  refine .of_forall fun fuel => ?_
  have hrefused : (s.isEmpty || !dbusSignatureValidate (cStr (structText s))) = true := by
    rw [cStr_eq_self hnul]
    obtain rfl | hinvalid := hinvalid
    · rfl
    · simp [hinvalid]
  show DbusStruct.ofAttributeSignatures (fuel + 1) s = _
  rw [ofAttributeSignatures_succ, if_pos hrefused]

theorem not_constructs_of_throws {s : Bytes} {e : Exception} {v : DbusStruct}
    (hthrows : Settles (fun fuel => DbusStruct.ofAttributeSignatures fuel s) (.throw e)) :
    ¬ Settles (fun fuel => DbusStruct.ofAttributeSignatures fuel s) (.ok v) :=
  fun hreturns => nomatch hreturns.unique hthrows

/-- A text that is one complete type in parentheses is read to its end. -/
theorem constructsStruct_of_struct {s : Bytes} {first : SigType} {rest : List SigType}
    (hnul : (0 : UInt8) ∉ structText s)
    (hs : s = SigType.renderAll (first :: rest))
    (hlimits : (SigType.struct first rest).WithinLimits) : ConstructsStruct s := by
  have htext : structText s = (SigType.struct first rest).render :=
    hs ▸ structText_render first rest
  have happend : structText s = (SigType.struct first rest).render ++ [] := by
    rw [htext, List.append_nil]
  have hreturns := ofAttributeSignatures_settles hnul (htext ▸ hlimits.validate) happend hlimits
  refine ⟨iff_of_true ⟨_, hreturns⟩ ⟨_, htext, hlimits⟩, fun v hv => ?_⟩
  obtain rfl := Exec.ok.inj (hv.unique hreturns)
  have hmap := signatures_defaults (first :: rest)
  refine ⟨rfl, ?_, first :: rest, hs, hmap⟩
  show structText s = structSignature (SigType.defaults (first :: rest))
  rw [structSignature, signatures_eq_renderAll hmap, ← hs, structText]

/-- Two or more types pass the check, but they are no single one. -/
theorem ReopensParenthesis.not_constructsStruct {s : Bytes} (hnul : (0 : UInt8) ∉ structText s)
    (h : ReopensParenthesis s) : ¬ ConstructsStruct s := by
  obtain ⟨t, second, more, htypes, hlength, hlimits⟩ := h
  obtain ⟨first, rest, rfl⟩ := exists_struct_of_structText htypes
  have hvalid := (validate_iff _).mpr ⟨_, htypes, hlength, hlimits⟩
  have hreturns := ofAttributeSignatures_settles hnul hvalid htypes (hlimits _ List.mem_cons_self)
  intro hconstructs
  obtain ⟨t, ht, -⟩ := hconstructs.succeeds_iff.mp ⟨_, hreturns⟩
  rw [htypes, ← SigType.renderAll_singleton] at ht
  cases SigType.renderAll_injective ht

theorem nul_notMem_structText {s : Bytes} (h : (0 : UInt8) ∉ s) : (0 : UInt8) ∉ structText s := by
  simp only [structText, List.mem_cons, List.mem_append, not_or]
  exact ⟨by decide, h, by decide, List.not_mem_nil⟩

/-- On every text without NUL bytes the constructor does as it promises exactly when the text
    does not reopen the parenthesis. -/
theorem constructsStruct_iff (s : Bytes) (hnul : (0 : UInt8) ∉ s) :
    ConstructsStruct s ↔ ¬ ReopensParenthesis s := by
  have hnul' := nul_notMem_structText hnul
  by_cases hvalid : s ≠ [] ∧ dbusSignatureValidate (structText s) = true
  · obtain ⟨hne, hvalid⟩ := hvalid
    obtain ⟨types, htypes, hlength, hlimits⟩ := (validate_iff _).mp hvalid
    cases types with
    | nil => cases htypes
    | cons t more =>
      have hfirst := hlimits t List.mem_cons_self
      obtain ⟨first, rest, rfl⟩ := exists_struct_of_structText htypes
      cases more with
      | nil =>
        rw [SigType.renderAll_singleton] at htypes
        obtain ⟨first', rest', heq, hs⟩ := exists_types_of_structText htypes
        obtain ⟨rfl, rfl⟩ := SigType.struct.inj heq
        refine iff_of_true (constructsStruct_of_struct hnul' hs hfirst) ?_
        rintro ⟨_, _, _, htwo, -⟩
        rw [htypes, ← SigType.renderAll_singleton] at htwo
        cases SigType.renderAll_injective htwo
      | cons second more =>
        have hreopens : ReopensParenthesis s := ⟨_, _, _, htypes, hlength, hlimits⟩
        exact iff_of_false (hreopens.not_constructsStruct hnul') (not_not.mpr hreopens)
  · have hrefused : s = [] ∨ dbusSignatureValidate (structText s) = false := by
      rwa [not_and_or, not_not, Bool.not_eq_true] at hvalid
    have hthrows := ofAttributeSignatures_throws hnul' hrefused
    refine iff_of_true ⟨iff_of_false ?_ ?_, fun v hv => ?_⟩ ?_
    · rintro ⟨v, hv⟩
      exact not_constructs_of_throws hthrows hv
    · rintro ⟨t, ht, hlimits⟩
      obtain ⟨first, rest, rfl, hs⟩ := exists_types_of_structText ht
      refine hvalid ⟨?_, ht ▸ hlimits.validate⟩
      rw [hs]
      simp [SigType.renderAll, first.render_ne_nil]
    · exact absurd hv (not_constructs_of_throws hthrows)
    · rintro ⟨first, second, rest, htypes, hlength, hlimits⟩
      refine hvalid ⟨?_, (validate_iff _).mpr ⟨_, htypes, hlength, hlimits⟩⟩
      rintro rfl
      obtain ⟨c, tail, hhead, hend, -⟩ := first.render_head
      obtain ⟨first', rest', rfl⟩ := exists_struct_of_structText htypes
      have hlen := congrArg List.length htypes
      have hpos := first'.render_length_pos
      simp [structText, SigType.renderAll, SigType.render] at hlen
      omega

/-- `a{sv}` and a struct between the parentheses. -/
theorem constructsStruct_dict_struct : ConstructsStruct (text "a{sv}(ib)") := by
  refine (constructsStruct_iff _ (by decide)).mpr ?_
  rintro ⟨first, second, rest, htypes, -⟩
  have hsingle : structText (text "a{sv}(ib)") = SigType.renderAll [.struct (.dict .string .variant)
      [.struct (.basic .int32) [.basic .boolean]]] := by decide
  rw [hsingle] at htypes
  cases SigType.renderAll_injective htypes

/-- A text that closes the parenthesis and opens another one is accepted, although the two
    structs are no single complete type, and gives a struct with one attribute. -/
theorem reopened_not_constructsStruct :
    ¬ ConstructsStruct (text "i)(s") ∧
      Settles (fun fuel => DbusStruct.ofAttributeSignatures fuel (text "i)(s"))
        (.ok ⟨text "(i)(s)", [.basic (.int32 0)]⟩) := by
  have htypes : structText (text "i)(s") =
      SigType.renderAll [.struct (.basic .int32) [], .struct (.basic .string) []] := by decide
  have hlimits : ∀ t ∈ [SigType.struct (.basic .int32) [], .struct (.basic .string) []],
      t.WithinLimits := by decide
  refine ⟨?_, ?_⟩
  · exact ReopensParenthesis.not_constructsStruct (by decide) ⟨_, _, _, htypes, by decide, hlimits⟩
  · exact ofAttributeSignatures_settles (by decide) (by decide) htypes (by decide)

end Ultrabus
