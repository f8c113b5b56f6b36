import Mathlib.Data.List.Forall2
import Ultrabus.Message.Arguments

/-! # What the decoder does on one value

`Decodes w v` says that reading the tree `w` ends with the value `v`.  There is one rule
for each kind of tree; the loops are run on lists whose elements decode. -/

namespace Ultrabus

open Exec (Settles eventually_succ)
open Filter (atTop)
open List (Forall₂)

/-- From some budget on, `create_value_from_iter` returns `v` where `w` is ahead. -/
def Decodes (w : Wire) (v : DbusType) : Prop :=
  ∀ᶠ fuel in atTop, ∀ rest, createValueFromIter fuel (w :: rest) = .ok (some v)

theorem exists_forall₂ {α β : Type} {R : α → β → Prop} {l : List α} (h : ∀ a ∈ l, ∃ b, R a b) :
    ∃ l', Forall₂ R l l' := by
  induction l with
  | nil => exact ⟨[], .nil⟩
  | cons a l ih =>
    obtain ⟨b, hb⟩ := h a List.mem_cons_self
    obtain ⟨l', hl'⟩ := ih fun a' ha' => h a' (List.mem_cons_of_mem _ ha')
    exact ⟨b :: l', .cons hb hl'⟩

theorem exists_of_mem_right {α β : Type} {R : α → β → Prop} {l : List α} {l' : List β}
    (h : Forall₂ R l l') {b : β} (hb : b ∈ l') : ∃ a ∈ l, R a b := by
  induction h with
  | nil => cases hb
  | @cons a b' l l' hab _ ih =>
    obtain rfl | hb := List.mem_cons.mp hb
    · exact ⟨a, List.mem_cons_self, hab⟩
    · obtain ⟨a', ha', hr⟩ := ih hb
      exact ⟨a', List.mem_cons_of_mem _ ha', hr⟩

/-! ## Loops -/

theorem foldl_add (s : DbusStruct) (hsig : s.sig = structSignature s.items) (vs : List DbusType) :
    vs.foldl (fun s v => s.add (some v)) s = ⟨structSignature (s.items ++ vs), s.items ++ vs⟩ := by
  induction vs generalizing s with
  | nil => simp [← hsig]
  | cons v vs ih =>
    have hadd : (s.add (some v)).sig = structSignature (s.add (some v)).items := by
      simp only [DbusStruct.add, DbusStruct.addAttribSignature, hsig, dropLast_structSignature]
      simp [structSignature, DbusType.signatures_append]
    rw [List.foldl_cons, ih _ hadd]
    simp [DbusStruct.add]

theorem structLoop_settles {ws : List Wire} {vs : List DbusType} (h : Forall₂ Decodes ws vs)
    (s : DbusStruct) :
    Settles (fun fuel => structLoop fuel s ws) (.ok (vs.foldl (fun s v => s.add (some v)) s)) := by
  induction h generalizing s with
  | nil =>
    -- The end of the struct is noticed by the next attempt to read a value.
    apply eventually_succ
    apply eventually_succ
    exact .of_forall fun fuel => rfl
  | @cons w v ws vs hw _ ih =>
    apply eventually_succ
    filter_upwards [hw, ih (s.add (some v))] with fuel hhead htail
    simp only [structLoop, hhead, Exec.ok_bind, ReadIter.next, List.tail_cons, htail,
      List.foldl_cons]

theorem arrayLoop_settles {ws : List Wire} {vs : List DbusType} (h : Forall₂ Decodes ws vs)
    (a : DbusArray) (hsig : ∀ v ∈ vs, cStr v.signature = a.elementSignature) :
    Settles (fun fuel => arrayLoop fuel a ws) (.ok { a with items := a.items ++ vs }) := by
  induction h generalizing a with
  | nil =>
    apply eventually_succ
    apply eventually_succ
    exact .of_forall fun fuel => by simp [arrayLoop, createValueFromIter]
  | @cons w v ws vs hw _ ih =>
    have hhead : cStr v.signature = a.elementSignature := hsig v List.mem_cons_self
    have htail := ih { a with items := a.items ++ [v] } fun v' hv' =>
      hsig v' (List.mem_cons_of_mem _ hv')
    apply eventually_succ
    filter_upwards [hw, htail] with fuel hvalue hrest
    have hpush : a.pushBack (some v) = .ok { a with items := a.items ++ [v] } := by
      simp [DbusArray.pushBack, DbusArray.verifyElementSignature, hhead]
    simp only [arrayLoop, hvalue, Exec.ok_bind, hpush, Exec.ofExcept_ok, ReadIter.next,
      List.tail_cons, hrest, List.append_assoc, List.singleton_append]

/-- An entry of a dict keyed by `key` with values of signature `value` decodes to `d`. -/
def DecodesEntry (key : BasicType) (value : Bytes) (e : Basic × Wire) (d : Basic × DbusType) :
    Prop :=
  d.1 = e.1 ∧ e.1.type = key ∧ e.1.Valid ∧ d.2.signature = value ∧ Decodes e.2 d.2

theorem Decodes.basic {value : Basic} (h : value.Valid) :
    Decodes (.basic value) (.basic value) := by
  have hvalue : Basic.ofDBusBasicValue value = .ok value := by
    cases value <;> simp_all [Basic.ofDBusBasicValue, Basic.Valid]
  apply eventually_succ
  exact .of_forall fun fuel rest => by simp [createValueFromIter, hvalue]

theorem dictLoop_settles {key : BasicType} {value : Bytes} {entries : List (Basic × Wire)}
    {decoded : List (Basic × DbusType)} (h : Forall₂ (DecodesEntry key value) entries decoded)
    (items : List (Basic × DbusType)) :
    Settles (fun fuel => dictLoop fuel ⟨key, dictSignature key value, items⟩
        (entries.map Wire.entry))
      (.ok ⟨key, dictSignature key value,
        decoded.foldl (fun items e => OrderedMap.assign Basic.less e.1 e.2 items) items⟩) := by
  induction h generalizing items with
  | nil =>
    apply eventually_succ
    exact .of_forall fun fuel => by simp [dictLoop, ReadIter.argTypeIsDictEntry]
  | @cons e d entries decoded hentry _ ih =>
    obtain ⟨k, w⟩ := e
    obtain ⟨k', v⟩ := d
    obtain ⟨rfl, htype, hvalid, hsig, hvalue⟩ := hentry
    have htail := ih (OrderedMap.assign Basic.less k' v items)
    have hset : (DbusDict.set ⟨key, dictSignature key value, items⟩ k' (some v)).1 =
        ⟨key, dictSignature key value, OrderedMap.assign Basic.less k' v items⟩ := by
      have hsig' : v.signature = value := hsig
      simp [DbusDict.set, hsig']
    have htype' : k'.type = key := htype
    -- The entry is read to its end, so that none of the `continue` branches is taken.
    apply eventually_succ
    filter_upwards [Decodes.basic hvalid, hvalue, htail] with fuel hkey hval hrest
    simp [dictLoop, Wire.entry, ReadIter.argTypeIsDictEntry, Wire.isDictEntry, ReadIter.recurse,
      ReadIter.argTypeIs, htype', hkey [w], ReadIter.next, ReadIter.argTypeIsInvalid, hval [],
      DbusType.castBasic, hset, hrest]

/-! ## Containers -/

theorem Decodes.struct {ws : List Wire} {vs : List DbusType} (h : Forall₂ Decodes ws vs) :
    Decodes (.struct ws) (.struct (structSignature vs) vs) := by
  have hloop := structLoop_settles h .empty
  rw [foldl_add .empty rfl] at hloop
  have hempty : DbusStruct.empty.items = [] := rfl
  simp only [hempty, List.nil_append] at hloop
  apply eventually_succ
  apply eventually_succ
  filter_upwards [hloop] with fuel hloop rest
  simp [createValueFromIter, createStructFromIter, ReadIter.recurse, hloop,
    DbusStruct.toDbusType]

theorem Decodes.array {element : Bytes} {ws : List Wire} {vs : List DbusType}
    (hsig : dbusSignatureValidateSingle (dbusTypeArray :: element) = true)
    (hnot : element.head? ≠ some dbusDictEntryBeginChar) (h : Forall₂ Decodes ws vs)
    (hvs : ∀ v ∈ vs, v.signature = element) :
    Decodes (.array element ws) (.array (dbusTypeArray :: element) vs) := by
  have hnul := cStr_of_validateSingle hsig
  have helement : cStr element = element :=
    cStr_eq_self fun h0 => nul_not_mem_of_validateSingle hsig (List.mem_cons_of_mem _ h0)
  have hloop := arrayLoop_settles h ⟨dbusTypeArray :: element, []⟩ fun v hv => by
    rw [hvs v hv, helement]; rfl
  apply eventually_succ
  apply eventually_succ
  filter_upwards [hloop] with fuel hloop rest
  simp [createValueFromIter, createArrayFromIter, ReadIter.elementTypeIsDictEntry, hnot,
    ReadIter.getSignature, Wire.signature, DbusArray.ofElementSignature, hsig,
    ReadIter.recurse, hloop, DbusArray.toDbusType]

theorem Decodes.dict {key : BasicType} {value : Bytes} {entries : List (Basic × Wire)}
    {decoded : List (Basic × DbusType)}
    (hsig : dbusSignatureValidateSingle (dictSignature key value) = true)
    (h : Forall₂ (DecodesEntry key value) entries decoded) :
    Decodes (.array (dictEntrySignature key value) (entries.map Wire.entry))
      (.dict key (dictSignature key value) (OrderedMap.ofEntries Basic.less decoded)) := by
  have hvalue := validateSingle_dict_value hsig
  have hnew : DbusDict.ofValueSignature key value = .ok ⟨key, dictSignature key value, []⟩ := by
    simp [DbusDict.ofValueSignature, cStr_of_validateSingle hvalue, hvalue]
  -- One unit for each of the four functions on the way to the loop.
  apply eventually_succ
  apply eventually_succ
  apply eventually_succ
  apply eventually_succ
  filter_upwards [dictLoop_settles h []] with fuel hloop rest
  simp [createValueFromIter, createArrayFromIter, ReadIter.elementTypeIsDictEntry,
    createDictFromIter, ReadIter.getSignature, Wire.signature, dictEntrySignature,
    createDictFromIterImpl, hnew, ReadIter.recurse, hloop, DbusDict.toDbusType,
    OrderedMap.ofEntries]

theorem Decodes.variant {w : Wire} {v : DbusType} (h : Decodes w v) :
    Decodes (.variant [w]) (DbusVariant.ofPointer (some v)) := by
  apply eventually_succ
  apply eventually_succ
  filter_upwards [h] with fuel hvalue rest
  simp [createValueFromIter, createVariantFromIter, ReadIter.recurse, ReadIter.argTypeIsInvalid,
    hvalue []]

/-! ## Messages -/

theorem argumentsLoop_settles {ws : List Wire} {vs : List DbusType} (h : Forall₂ Decodes ws vs)
    (args : List DbusType) (maxArgs : Nat) :
    Settles (fun fuel => Message.argumentsLoop fuel args ws maxArgs)
      (.ok (args ++ if maxArgs = 0 then vs else vs.take maxArgs)) := by
  induction h generalizing args maxArgs with
  | nil =>
    apply eventually_succ
    apply eventually_succ
    exact .of_forall fun fuel => by simp [Message.argumentsLoop, createValueFromIter]
  | @cons w v ws vs hw _ ih =>
    apply eventually_succ
    filter_upwards [hw, ih (args ++ [v]) (maxArgs - 1)] with fuel hhead htail
    simp only [Message.argumentsLoop, hhead, Exec.ok_bind, ReadIter.next, List.tail_cons, htail]
    rcases maxArgs with - | - | n <;> simp

/-- A message whose arguments all decode is read in full, or up to `max_args`. -/
theorem arguments_settles {m : Message} {vs : List DbusType} (h : Forall₂ Decodes m.body vs)
    (maxArgs : Nat) :
    Settles (fun fuel => m.arguments fuel maxArgs)
      (.ok (if maxArgs = 0 then vs else vs.take maxArgs)) := by
  cases hbody : m.body with
  | nil =>
    rw [hbody] at h
    cases h
    exact .of_forall fun fuel => by simp [Message.arguments, hbody]
  | cons w ws =>
    filter_upwards [argumentsLoop_settles h [] maxArgs] with fuel hloop
    simpa [Message.arguments, hbody] using hloop

end Ultrabus
