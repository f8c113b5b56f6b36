import Ultrabus.Message.TypedTargets
import Ultrabus.Proxy.Signals

/-! # Dicts with texts for keys

What a dict of a message that is keyed by strings or object paths gives for a key, what the
decoded dict gives for it, and what the C++ maps that are filled with its entries give for it:
all three are the same, namely what the last entry with the key says. -/

namespace Ultrabus.Interfaces

open List (Forall₂)
open Proxy (textOf castStringDict emplaceIfaces)

/-! ## Look-ups -/

/-- The key and the value of a dict entry. -/
def entryOf? : Wire → Option (Basic × Wire)
  | .dictEntry [.basic key, value] => some (key, value)
  | _ => none

/-- What the last entry with the key holds. -/
def wireAt (key : Basic) : Wire → Option Wire
  | .array _ elements => lastWire key (elements.filterMap entryOf?)
  | _ => none

/-- What a decoded dict holds for the key. -/
def valueAt (key : Basic) : DbusType → Option DbusType
  | .dict _ _ items => OrderedMap.lookup Basic.less key items
  | _ => none

/-- The classes of keys that are texts. -/
def IsTextKey (type : BasicType) : Prop := type = .string ∨ type = .objectPath

@[simp] theorem filterMap_entryOf? (entries : List (Basic × Wire)) :
    (entries.map Wire.entry).filterMap entryOf? = entries := by
  rw [List.filterMap_map]
  exact List.filterMap_some

/-- A key that is a text is in the order of its class. -/
theorem orderedKey_of_text {key : Basic} (h : IsTextKey key.type) : OrderedKey key.type key := by
  refine ⟨rfl, ?_⟩
  cases key with
  | double bits => obtain h | h := h <;> cases h
  | _ => rfl

/-- The texts of two keys of one class compare as the keys do. -/
theorem textLess_textOf {type : BasicType} (htext : IsTextKey type) {a b : Basic}
    (ha : a.type = type) (hb : b.type = type) :
    textLess (textOf (.basic a)) (textOf (.basic b)) = Basic.less a b := by
  subst ha
  obtain h | h := htext
  · cases a <;> cases h
    cases b <;> cases hb
    rfl
  · cases a <;> cases h
    cases b <;> cases hb
    rfl

/-- Texts are told apart by their order. -/
theorem textLess_equiv {a b : Bytes} : OrderedMap.equiv textLess a b = true ↔ a = b := by
  have hrank := OrderedMap.StrictWeakOn.equiv_iff_rank (S := fun _ => True)
    (fun s : Bytes => s.map fun c => (c.toNat : Int)) (fun a b _ _ => textLess_iff a b)
    (a := a) (b := b) trivial trivial
  exact hrank.trans ⟨map_toNat_injective, fun h => h ▸ rfl⟩

/-- A decoded dict, and how it is connected with the entries of the message. -/
structure TextDict (type : BasicType) (value : Bytes) (w : Wire)
    (items : List (Basic × DbusType)) : Prop where
  reads : Reads w (.dict type (dictSignature type value) items)
  sorted : OrderedMap.Sorted Basic.less items
  keys : ∀ i ∈ items, i.1.type = type
  values : ∀ i ∈ items, ∃ w' : Wire, w'.Valid ∧ w'.signature = value ∧ Decodes w' i.2
  lookup : ∀ key : Basic, key.type = type →
    Option.Rel (fun w' v => w'.Valid ∧ w'.signature = value ∧ Decodes w' v) (wireAt key w)
      (OrderedMap.lookup Basic.less key items)

/-- Every dict of a message that is keyed by texts is decoded to one. -/
theorem exists_textDict {type : BasicType} (value : Bytes) (htext : IsTextKey type) {w : Wire}
    (h : w.Valid) (hsig : w.signature = dictSignature type value) :
    ∃ items, TextDict type value w items := by
  cases h with
  | @basic value _ => exact absurd (List.cons.inj hsig).1 value.type.code_ne_array
  | struct _ _ => exact absurd (List.cons.inj hsig).1 (by decide)
  | variant _ _ => exact absurd (List.cons.inj hsig).1 (by decide)
  | array _ hhead _ _ =>
    obtain rfl := (List.cons.inj hsig).2
    exact absurd rfl hhead
  | @dict key' value' entries hvalid hkeys hvalues hentries =>
    obtain ⟨rfl, rfl⟩ := dictSignature_injective hsig
    have hdecodes : ∀ e ∈ entries, ∃ d, DecodesEntry key' value' e d ∧
        e.2.Valid ∧ e.2.signature = value' := by
      intro e he
      obtain ⟨v, hv⟩ := (hentries e he).exists_decodesAs
      exact ⟨(e.1, v), ⟨rfl, (hkeys e he).1, (hkeys e he).2,
        hv.signature.trans (hvalues e he), hv.decodes⟩, hentries e he, hvalues e he⟩
    obtain ⟨ds, hds⟩ := exists_forall₂ hdecodes
    have hordered : ∀ key : Basic, key.type = key' → OrderedKey key' key := by
      rintro key rfl
      exact orderedKey_of_text htext
    have hdsKeys : OrderedMap.KeysIn (OrderedKey key') ds := by
      intro d hd
      obtain ⟨n, hn, rfl⟩ := List.mem_iff_getElem.mp hd
      have hlength := hds.length_eq
      obtain ⟨⟨hkey, htype, -, -, -⟩, -, -⟩ := hds.get (hlength ▸ hn) hn
      exact hordered _ (hkey ▸ htype)
    have horder := Basic.less_strictWeakOn key'
    have hreads : Reads (.array (dictEntrySignature key' value') (entries.map Wire.entry))
        (.dict key' (dictSignature key' value') (OrderedMap.ofEntries Basic.less ds)) :=
      ⟨.dict hvalid (hds.imp fun _ _ h => h.1), rfl, ⟨value', rfl⟩, rfl, rfl⟩
    refine ⟨OrderedMap.ofEntries Basic.less ds, hreads, OrderedMap.sorted_ofEntries horder hdsKeys,
      fun i hi => (hdsKeys.ofEntries i hi).1, fun i hi => ?_, fun key hkey => ?_⟩
    · obtain ⟨d, hd, hvalue⟩ := OrderedMap.value_of_mem_ofEntries hi
      obtain ⟨n, hn, rfl⟩ := List.mem_iff_getElem.mp hd
      have hlength := hds.length_eq
      obtain ⟨⟨-, -, -, -, hdecodes⟩, hvalid, hsig⟩ := hds.get (hlength ▸ hn) hn
      exact ⟨_, hvalid, hsig, hvalue ▸ hdecodes⟩
    · -- The map compares by equivalence and the message by sameness: on texts they agree.
      have hcongr : OrderedMap.lastValue (OrderedMap.equiv Basic.less) key ds =
          OrderedMap.lastValue Basic.sameKey key ds :=
        OrderedMap.lastValue_congr fun d hd =>
          Bool.eq_iff_iff.mpr (Basic.equiv_iff_sameKey (hdsKeys d hd) (hordered key hkey))
      rw [OrderedMap.lookup_ofEntries horder hdsKeys (hordered key hkey), hcongr, wireAt,
        filterMap_entryOf?]
      exact OrderedMap.lastValue_rel Basic.sameKey key
        (hds.imp fun _ _ h => ⟨h.1.1, h.2.1, h.2.2, h.1.2.2.2.2⟩)

/-! ## Maps that are filled with the entries -/

/-- The entries of a dict, under the texts of its keys. -/
def textEntries {ν : Type} (items : List (Basic × ν)) : List (Bytes × ν) :=
  items.map fun i => (textOf (.basic i.1), i.2)

section Sorted

variable {type : BasicType} {ν : Type} {items : List (Basic × ν)}

theorem lookup_textEntries (htext : IsTextKey type) (hkeys : ∀ i ∈ items, i.1.type = type)
    (key : Basic) (hkey : key.type = type) :
    OrderedMap.lookup textLess (textOf (.basic key)) (textEntries items) =
      OrderedMap.lookup Basic.less key items := by
  have hmap := OrderedMap.lookup_map textLess (fun key => textOf (.basic key))
    (id : ν → ν) fun i hi =>
      ⟨textLess_textOf htext (hkeys i hi) hkey, textLess_textOf htext hkey (hkeys i hi)⟩
  rw [Option.map_id] at hmap
  exact hmap

theorem sorted_textEntries (htext : IsTextKey type) (hkeys : ∀ i ∈ items, i.1.type = type)
    (hsorted : OrderedMap.Sorted Basic.less items) :
    OrderedMap.Sorted textLess (textEntries items) := by
  refine List.pairwise_map.mpr (hsorted.imp_of_mem fun {a b} ha hb hless => ?_)
  rwa [textLess_textOf htext (hkeys a ha) (hkeys b hb)]

/-- The keys in front of a later one are less, also as texts. -/
theorem textLess_of_sorted (htext : IsTextKey type) {before : List (Basic × ν)}
    {item : Basic × ν} {after : List (Basic × ν)}
    (hkeys : ∀ i ∈ before ++ item :: after, i.1.type = type)
    (hsorted : OrderedMap.Sorted Basic.less (before ++ item :: after)) :
    ∀ entry ∈ textEntries before, textLess entry.1 (textOf (.basic item.1)) = true := by
  intro entry hentry
  obtain ⟨i, hi, rfl⟩ := List.mem_map.mp hentry
  have hless := (List.pairwise_append.mp hsorted).2.2 i hi item List.mem_cons_self
  rwa [← textLess_textOf htext (hkeys i (List.mem_append_left _ hi))
    (hkeys item (List.mem_append_right _ List.mem_cons_self))] at hless

end Sorted

/-- Every entry of the dict gets into the map of interfaces. -/
theorem emplaceIfaces_eq {items : List (Basic × DbusType)} (hkeys : ∀ i ∈ items, i.1.type = .string)
    (hsorted : OrderedMap.Sorted Basic.less items)
    (hvalues : ∀ i ∈ items, ∃ sig entries, i.2 = .dict .string sig entries) :
    emplaceIfaces [] items = .ok (textEntries items) := by
  -- The entries that are in the map already are those in front.
  suffices h : ∀ before after, before ++ after = items →
      emplaceIfaces (textEntries before) after = .ok (textEntries items) from h [] items rfl
  intro before after
  induction after generalizing before with
  | nil =>
    rintro rfl
    rw [List.append_nil]
    rfl
  | cons item after ih =>
    obtain ⟨key, value⟩ := item
    rintro rfl
    obtain ⟨sig, entries, hvalue⟩ := hvalues (key, value) (by simp)
    obtain rfl : value = .dict .string sig entries := hvalue
    have hless := textLess_of_sorted (.inl rfl) hkeys hsorted
    have hnext := ih (before ++ [(key, .dict .string sig entries)]) (by simp)
    have hentries : textEntries (before ++ [(key, DbusType.dict .string sig entries)]) =
        textEntries before ++ [(textOf (.basic key), .dict .string sig entries)] := by
      simp [textEntries]
    rw [hentries] at hnext
    have hemplace := OrderedMap.emplace_of_forall_less (DbusType.dict .string sig entries) hless
    rw [← hnext, ← hemplace]
    rfl

end Ultrabus.Interfaces
