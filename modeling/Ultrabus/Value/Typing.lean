import Ultrabus.Value.Types

/-! # Values of a signature

`v.HasType t` says that `v` is of the class that the signature of `t` denotes, and so is
everything in it.  Unlike `DbusType.Coherent` it leaves the content of the basic values
open, and covers file descriptors and every class of keys. -/

namespace Ultrabus

mutual
/-- Values of the class that a signature denotes, which holds at every level.  The entries
    of a dict are enumerated in the order of the map. -/
inductive DbusType.HasType : SigType → DbusType → Prop where
  | basic {type : BasicType} {value : Basic} : value.type = type →
      DbusType.HasType (.basic type) (.basic value)
  | variant {type : SigType} {value : DbusType} : value.isVariant = false →
      DbusType.HasType type value → DbusType.HasType .variant (.variant value)
  | array {element : SigType} {items : List DbusType} :
      (∀ item ∈ items, DbusType.HasType element item) →
      DbusType.HasType (.array element) (.array (SigType.array element).render items)
  | struct {first : SigType} {rest : List SigType} {item : DbusType} {items : List DbusType} :
      DbusType.HasType first item → HasTypes rest items →
      DbusType.HasType (.struct first rest)
        (.struct (SigType.struct first rest).render (item :: items))
  | dict {key : BasicType} {value : SigType} {items : List (Basic × DbusType)} :
      (∀ item ∈ items, item.1.type = key) → OrderedMap.Sorted Basic.less items →
      (∀ item ∈ items, DbusType.HasType value item.2) →
      DbusType.HasType (.dict key value) (.dict key (SigType.dict key value).render items)

/-- Attributes of the given types, one for each. -/
inductive HasTypes : List SigType → List DbusType → Prop where
  | nil : HasTypes [] []
  | cons {type : SigType} {types : List SigType} {item : DbusType} {items : List DbusType} :
      DbusType.HasType type item → HasTypes types items → HasTypes (type :: types) (item :: items)
end

theorem DbusType.HasType.signature {t : SigType} {v : DbusType} (h : v.HasType t) :
    v.signature = t.render := by
  cases h with
  | basic htype => rw [← htype]; rfl
  | _ => rfl

theorem HasTypes.length {types : List SigType} {items : List DbusType}
    (h : HasTypes types items) : types.length = items.length := by
  induction types generalizing items with
  | nil =>
    cases h
    rfl
  | cons type types ih =>
    cases h with
    | cons _ hrest => rw [List.length_cons, List.length_cons, ih hrest]

theorem HasTypes.of_exists {items : List DbusType} (h : ∀ item ∈ items, ∃ t, item.HasType t) :
    ∃ types, HasTypes types items ∧ SigType.renderAll types = DbusType.signatures items := by
  induction items with
  | nil => exact ⟨[], .nil, rfl⟩
  | cons item items ih =>
    rw [List.forall_mem_cons] at h
    obtain ⟨⟨type, hitem⟩, hitems⟩ := h
    obtain ⟨types, htypes, hrender⟩ := ih hitems
    refine ⟨type :: types, .cons hitem htypes, ?_⟩
    rw [SigType.renderAll, hrender, DbusType.signatures_cons, hitem.signature]

/-- The coherent values are values of their signatures. -/
theorem DbusType.Coherent.exists_hasType {v : DbusType} (h : v.Coherent) :
    ∃ t, v.HasType t := by
  induction h with
  | basic _ _ _ => exact ⟨_, .basic rfl⟩
  | @array element items hsig hhead hitems _ ih =>
    obtain ⟨type, helement⟩ := validateSingle_array_element hsig hhead
    subst helement
    refine ⟨.array type, .array fun item hitem => ?_⟩
    obtain ⟨t, ht⟩ := ih item hitem
    exact SigType.render_injective (ht.signature.symm.trans (hitems item hitem)) ▸ ht
  | @struct items _ hne _ ih =>
    obtain ⟨types, htypes, hrender⟩ := HasTypes.of_exists ih
    cases htypes with
    | nil => exact absurd rfl hne
    | @cons first rest item items hitem hitems =>
      refine ⟨.struct first rest, ?_⟩
      have hsig : structSignature (item :: items) = (SigType.struct first rest).render := by
        rw [structSignature, ← hrender, SigType.renderAll, SigType.render, List.append_assoc]
      rw [hsig]
      exact .struct hitem hitems
  | @dict key value items hsig _ _ hkeys hsorted hvalues _ ih =>
    obtain ⟨type, rfl, -⟩ := (validateSingle_iff value).mp (validateSingle_dict_value hsig)
    refine ⟨.dict key type, .dict (fun item hitem => (hkeys item hitem).1) hsorted
      fun item hitem => ?_⟩
    obtain ⟨t, ht⟩ := ih item hitem
    exact SigType.render_injective (ht.signature.symm.trans (hvalues item hitem)) ▸ ht
  | variant hvariant _ ih =>
    obtain ⟨t, ht⟩ := ih
    exact ⟨.variant, .variant hvariant ht⟩

end Ultrabus
