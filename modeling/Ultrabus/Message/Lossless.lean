import Ultrabus.Message.Decoding

/-! # What decoding keeps of a message

Every well-formed body is read to the end without an exception, with one value for each
argument and the signature of the message.  The content survives as well, except that a
map ordered by `<=>` cannot keep a NaN next to another key: `DecodesAs`
says when a decoded value shows every key of every dict with its last value. -/

namespace Ultrabus

open Exec (Settles)
open List (Forall₂)
open OrderedMap (StrictWeakOn KeysIn)

/-- The last value that the entries of a wire dict give to a key. -/
def lastWire (key : Basic) (entries : List (Basic × Wire)) : Option Wire :=
  OrderedMap.lastValue Basic.sameKey key entries

/-- The value shows the whole tree: arrays and structs element by element, dicts with
    exactly the keys of the tree, each once and with its last value.  A variant inside a
    variant is shown as the inner one. -/
inductive Faithful : Wire → DbusType → Prop where
  | basic {value : Basic} : Faithful (.basic value) (.basic value)
  | struct {fields : List Wire} {sig : Bytes} {items : List DbusType} :
      Forall₂ Faithful fields items → Faithful (.struct fields) (.struct sig items)
  | array {element sig : Bytes} {elements : List Wire} {items : List DbusType} :
      element.head? ≠ some dbusDictEntryBeginChar → Forall₂ Faithful elements items →
      Faithful (.array element elements) (.array sig items)
  | dict {element sig : Bytes} {key : BasicType} {entries : List (Basic × Wire)}
      {items : List (Basic × DbusType)} :
      (∀ e ∈ entries, ∃ d ∈ items, Basic.sameKey e.1 d.1 = true) →
      (∀ d ∈ items, (lastWire d.1 entries).isSome) →
      (∀ d ∈ items, ∀ w, lastWire d.1 entries = some w → Faithful w d.2) →
      items.Pairwise (fun d d' => Basic.sameKey d.1 d'.1 = false) →
      Faithful (.array element (entries.map Wire.entry)) (.dict key sig items)
  | variant {w : Wire} {v : DbusType} : v.isVariant = false → Faithful w v →
      Faithful (.variant [w]) (.variant v)
  | nested {w : Wire} {v : DbusType} : Faithful (.variant [w]) (.variant v) →
      Faithful (.variant [.variant [w]]) (.variant v)

/-- In every dict whose values reach the result, a NaN key is the only key. -/
inductive NanKeysAlone : Wire → Prop where
  | basic {value : Basic} : NanKeysAlone (.basic value)
  | struct {fields : List Wire} : (∀ w ∈ fields, NanKeysAlone w) → NanKeysAlone (.struct fields)
  | array {element : Bytes} {elements : List Wire} :
      element.head? ≠ some dbusDictEntryBeginChar → (∀ w ∈ elements, NanKeysAlone w) →
      NanKeysAlone (.array element elements)
  | dict {element : Bytes} {entries : List (Basic × Wire)} :
      element.head? = some dbusDictEntryBeginChar →
      (∀ e ∈ entries, e.1.isNaN = true → ∀ e' ∈ entries, e'.1 = e.1) →
      (∀ e ∈ entries, ∀ w, lastWire e.1 entries = some w → NanKeysAlone w) →
      NanKeysAlone (.array element (entries.map Wire.entry))
  | variant {w : Wire} : NanKeysAlone w → NanKeysAlone (.variant [w])

def Wire.isVariant : Wire → Bool
  | .variant _ => true
  | _ => false

/-- What decoding the tree `w` comes to. -/
structure DecodesAs (w : Wire) (v : DbusType) : Prop where
  decodes : Decodes w v
  signature : v.signature = w.signature
  isVariant : v.isVariant = w.isVariant
  faithful_iff : Faithful w v ↔ NanKeysAlone w

/-! ## Inversion -/

theorem Wire.entry_injective : Function.Injective Wire.entry := by
  intro e e' h
  obtain ⟨k, w⟩ := e
  obtain ⟨k', w'⟩ := e'
  simp only [Wire.entry, Wire.dictEntry.injEq, List.cons.injEq, Wire.basic.injEq, and_true] at h
  exact Prod.ext h.1 h.2

theorem faithful_struct_iff {fields : List Wire} {sig : Bytes} {items : List DbusType} :
    Faithful (.struct fields) (.struct sig items) ↔ Forall₂ Faithful fields items :=
  ⟨fun h => by cases h; assumption, .struct⟩

theorem faithful_array_iff {element sig : Bytes} {elements : List Wire} {items : List DbusType}
    (hnot : element.head? ≠ some dbusDictEntryBeginChar) :
    Faithful (.array element elements) (.array sig items) ↔ Forall₂ Faithful elements items :=
  ⟨fun h => by cases h; assumption, .array hnot⟩

theorem faithful_dict_iff {element sig : Bytes} {key : BasicType} {entries : List (Basic × Wire)}
    {items : List (Basic × DbusType)} :
    Faithful (.array element (entries.map Wire.entry)) (.dict key sig items) ↔
      (∀ e ∈ entries, ∃ d ∈ items, Basic.sameKey e.1 d.1 = true) ∧
      (∀ d ∈ items, (lastWire d.1 entries).isSome) ∧
      (∀ d ∈ items, ∀ w, lastWire d.1 entries = some w → Faithful w d.2) ∧
      items.Pairwise (fun d d' => Basic.sameKey d.1 d'.1 = false) := by
  constructor
  · intro h
    generalize hw : Wire.array element (entries.map Wire.entry) = w at h
    generalize hv : DbusType.dict key sig items = v at h
    cases h with
    | dict hkeys hsome hvalues hnodup =>
      obtain ⟨-, hentries⟩ := Wire.array.inj hw
      obtain ⟨-, -, rfl⟩ := DbusType.dict.inj hv
      cases List.map_injective_iff.mpr Wire.entry_injective hentries
      exact ⟨hkeys, hsome, hvalues, hnodup⟩
    | _ => cases hw <;> cases hv
  · rintro ⟨hkeys, hsome, hvalues, hnodup⟩
    exact .dict hkeys hsome hvalues hnodup

theorem nanKeysAlone_dict_iff {element : Bytes} {entries : List (Basic × Wire)}
    (hdict : element.head? = some dbusDictEntryBeginChar) :
    NanKeysAlone (.array element (entries.map Wire.entry)) ↔
      (∀ e ∈ entries, e.1.isNaN = true → ∀ e' ∈ entries, e'.1 = e.1) ∧
      (∀ e ∈ entries, ∀ w, lastWire e.1 entries = some w → NanKeysAlone w) := by
  constructor
  · intro h
    generalize hw : Wire.array element (entries.map Wire.entry) = w at h
    cases h with
    | dict _ hnan hvalues =>
      obtain ⟨-, hentries⟩ := Wire.array.inj hw
      cases List.map_injective_iff.mpr Wire.entry_injective hentries
      exact ⟨hnan, hvalues⟩
    | array hnot _ =>
      obtain ⟨rfl, -⟩ := Wire.array.inj hw
      exact absurd hdict hnot
    | _ => cases hw
  · rintro ⟨hnan, hvalues⟩
    exact .dict hdict hnan hvalues

/-! ## Lists of trees -/

theorem forall₂_faithful_iff {ws : List Wire} {vs : List DbusType} (h : Forall₂ DecodesAs ws vs) :
    Forall₂ Faithful ws vs ↔ ∀ w ∈ ws, NanKeysAlone w := by
  induction h with
  | nil => simp
  | cons hw _ ih => simp [hw.faithful_iff, ih]

theorem signatures_of_decodesAs {ws : List Wire} {vs : List DbusType}
    (h : Forall₂ DecodesAs ws vs) : DbusType.signatures vs = Wire.signatures ws := by
  induction h with
  | nil => rfl
  | cons hw _ ih => simp [Wire.signatures, hw.signature, ih]

theorem signature_of_mem {element : Bytes} {ws : List Wire} {vs : List DbusType}
    (h : Forall₂ DecodesAs ws vs) (hsig : ∀ w ∈ ws, w.signature = element) :
    ∀ v ∈ vs, v.signature = element := by
  induction h with
  | nil => simp
  | @cons w v ws vs hw _ ih =>
    intro v' hv'
    rcases List.mem_cons.mp hv' with rfl | hv'
    · exact hw.signature.trans (hsig w List.mem_cons_self)
    · exact ih (fun w' h' => hsig w' (List.mem_cons_of_mem _ h')) v' hv'

/-! ## Dicts -/

def EntryDecodesAs (e : Basic × Wire) (d : Basic × DbusType) : Prop :=
  d.1 = e.1 ∧ DecodesAs e.2 d.2

variable {key : BasicType} {entries : List (Basic × Wire)} {ds : List (Basic × DbusType)}

theorem keys_eq (h : Forall₂ EntryDecodesAs entries ds) :
    ds.map Prod.fst = entries.map Prod.fst := by
  induction h with
  | nil => rfl
  | cons hentry _ ih => simp [hentry.1, ih]

theorem exists_entry_of_mem_keys {d : Basic × DbusType} (h : Forall₂ EntryDecodesAs entries ds)
    (hd : d.1 ∈ ds.map Prod.fst) : ∃ e ∈ entries, e.1 = d.1 := by
  rw [keys_eq h] at hd
  exact List.mem_map.mp hd

theorem mem_keys_of_mem_ofEntries {d : Basic × DbusType}
    (hd : d ∈ OrderedMap.ofEntries Basic.less ds) : d.1 ∈ ds.map Prod.fst :=
  OrderedMap.mem_keys_of_mem_ofEntries (List.mem_map_of_mem hd)

theorem lastWire_rel (h : Forall₂ EntryDecodesAs entries ds) (k : Basic) :
    Option.Rel DecodesAs (lastWire k entries) (OrderedMap.lastValue Basic.sameKey k ds) :=
  OrderedMap.lastValue_rel Basic.sameKey k h

/-- When NaN keys stand alone, the order of the map is good on all keys of the dict and
    tells them apart as `sameKey` does. -/
theorem exists_order (htype : ∀ e ∈ entries, e.1.type = key)
    (hnan : ∀ e ∈ entries, e.1.isNaN = true → ∀ e' ∈ entries, e'.1 = e.1) :
    ∃ S : Basic → Prop, StrictWeakOn Basic.less S ∧ (∀ e ∈ entries, S e.1) ∧
      ∀ a b, S a → S b → OrderedMap.equiv Basic.less a b = Basic.sameKey a b := by
  by_cases h : ∃ e ∈ entries, e.1.isNaN = true
  · obtain ⟨e, he, hn⟩ := h
    refine ⟨fun k => k = e.1, .of_unordered (Basic.unordered_of_isNaN hn), hnan e he hn, ?_⟩
    rintro a b rfl rfl
    simp [OrderedMap.equiv, (Basic.unordered_of_isNaN hn e.1).1]
  · refine ⟨OrderedKey key, Basic.less_strictWeakOn key, fun e he => ⟨htype e he, ?_⟩, ?_⟩
    · simpa using fun hn => h ⟨e, he, hn⟩
    · intro a b ha hb
      exact Bool.eq_iff_iff.mpr (Basic.equiv_iff_sameKey ha hb)

/-- A dict that shows all its keys has no NaN next to another key. -/
theorem nan_alone_of_keys_shown (htype : ∀ e ∈ entries, e.1.type = key)
    (h : Forall₂ EntryDecodesAs entries ds)
    (hkeys : ∀ e ∈ entries, ∃ d ∈ OrderedMap.ofEntries Basic.less ds,
      Basic.sameKey e.1 d.1 = true) :
    ∀ e ∈ entries, e.1.isNaN = true → ∀ e' ∈ entries, e'.1 = e.1 := by
  cases h with
  | nil => simp
  | @cons e₀ d₀ entries ds hentry htail =>
    obtain ⟨k, v⟩ := d₀
    obtain ⟨rfl, -⟩ := hentry
    cases hnan : e₀.1.isNaN with
    | false =>
      -- The first key is ordered: no NaN ever gets into the map.
      have hin : KeysIn (OrderedKey key) (OrderedMap.ofEntries Basic.less ((e₀.1, v) :: ds)) := by
        refine OrderedMap.keysIn_ofEntries_of_first ⟨htype e₀ List.mem_cons_self, hnan⟩
          fun d hd => ?_
        obtain ⟨e, he, hde⟩ := exists_entry_of_mem_keys htail (List.mem_map_of_mem hd)
        exact Basic.orderedKey_or_unordered (hde ▸ htype e (List.mem_cons_of_mem _ he))
      intro e he hn
      obtain ⟨d, hd, hsame⟩ := hkeys e he
      have heq := (Basic.sameKey_of_isNaN hn).mp hsame
      exact absurd (hin d hd).2 (by simp [← heq, hn])
    | true =>
      -- The first key is a NaN: it is the only key of the map.
      obtain ⟨last, hitems⟩ := OrderedMap.ofEntries_unordered_first (Basic.unordered_of_isNaN hnan)
      have heq : ∀ e ∈ e₀ :: entries, e.1 = e₀.1 := by
        intro e he
        obtain ⟨d, hd, hsame⟩ := hkeys e he
        rw [hitems, List.mem_singleton] at hd
        rw [hd, Basic.sameKey_comm] at hsame
        exact ((Basic.sameKey_of_isNaN hnan).mp hsame).symm
      intro e he _ e' he'
      rw [heq e he, heq e' he']

/-- A map shows the entries: each key once, with its last value. -/
structure ShowsEntries (entries : List (Basic × Wire)) (items : List (Basic × DbusType)) : Prop
    where
  keys : ∀ e ∈ entries, ∃ d ∈ items, Basic.sameKey e.1 d.1 = true ∧
    lastWire e.1 entries = lastWire d.1 entries
  values : ∀ d ∈ items, ∃ w, lastWire d.1 entries = some w ∧ DecodesAs w d.2
  nodup : items.Pairwise fun d d' => Basic.sameKey d.1 d'.1 = false

theorem showsEntries_ofEntries (htype : ∀ e ∈ entries, e.1.type = key)
    (h : Forall₂ EntryDecodesAs entries ds)
    (hnan : ∀ e ∈ entries, e.1.isNaN = true → ∀ e' ∈ entries, e'.1 = e.1) :
    ShowsEntries entries (OrderedMap.ofEntries Basic.less ds) := by
  obtain ⟨S, order, hS, hsame⟩ := exists_order htype hnan
  have hSds : KeysIn S ds := fun d hd => by
    obtain ⟨e, he, heq⟩ := exists_entry_of_mem_keys h (List.mem_map_of_mem hd)
    exact heq ▸ hS e he
  have hSmap : KeysIn S (OrderedMap.ofEntries Basic.less ds) := hSds.ofEntries
  constructor
  case keys =>
    intro e he
    have hkey : e.1 ∈ ds.map Prod.fst := keys_eq h ▸ List.mem_map_of_mem he
    obtain ⟨k, hk, hequiv⟩ := OrderedMap.exists_equiv_ofEntries order hSds hkey
    obtain ⟨d, hd, rfl⟩ := List.mem_map.mp hk
    refine ⟨d, hd, hsame _ _ (hS e he) (hSmap d hd) ▸ hequiv, ?_⟩
    refine OrderedMap.lastValue_congr fun e' he' => ?_
    rw [← hsame _ _ (hS e' he') (hS e he), ← hsame _ _ (hS e' he') (hSmap d hd)]
    exact order.equiv_congr_right (hS e' he') (hS e he) (hSmap d hd) hequiv
  case values =>
    intro d hd
    -- The map compares by equivalence, the tree by sameness; on these keys they agree.
    have hlast := OrderedMap.lastValue_of_mem_ofEntries order hSds hd
    have hcongr : OrderedMap.lastValue (OrderedMap.equiv Basic.less) d.1 ds =
        OrderedMap.lastValue Basic.sameKey d.1 ds :=
      OrderedMap.lastValue_congr fun d' hd' => hsame _ _ (hSds d' hd') (hSmap d hd)
    have hrel := lastWire_rel h d.1
    rw [← hcongr, hlast] at hrel
    generalize hwire : lastWire d.1 entries = found at hrel
    cases hrel with
    | some hw => exact ⟨_, rfl, hw⟩
  case nodup =>
    refine (List.Pairwise.imp_of_mem fun {d d'} hd hd' hless => ?_)
      (OrderedMap.sorted_ofEntries order hSds)
    rw [← hsame _ _ (hSmap d hd) (hSmap d' hd')]
    simp [OrderedMap.equiv, hless]

/-- The dict read from entries shows them exactly when NaN keys stand alone in it and in
    the values that reach the result. -/
theorem faithful_ofEntries_iff (htype : ∀ e ∈ entries, e.1.type = key)
    (h : Forall₂ EntryDecodesAs entries ds) (value sig : Bytes) :
    Faithful (.array (dictEntrySignature key value) (entries.map Wire.entry))
        (.dict key sig (OrderedMap.ofEntries Basic.less ds)) ↔
      NanKeysAlone (.array (dictEntrySignature key value) (entries.map Wire.entry)) := by
  rw [faithful_dict_iff, nanKeysAlone_dict_iff rfl]
  constructor
  · rintro ⟨hkeys, -, hvalues, -⟩
    have hnan := nan_alone_of_keys_shown htype h hkeys
    have hshows := showsEntries_ofEntries htype h hnan
    refine ⟨hnan, fun e he w hw => ?_⟩
    obtain ⟨d, hd, -, hlast⟩ := hshows.keys e he
    obtain ⟨w', hw', hdecodes⟩ := hshows.values d hd
    have hfaithful := hvalues d hd w (hlast ▸ hw)
    rw [← hlast, hw] at hw'
    cases hw'
    exact hdecodes.faithful_iff.mp hfaithful
  · rintro ⟨hnan, halone⟩
    have hshows := showsEntries_ofEntries htype h hnan
    refine ⟨fun e he => ?_, fun d hd => ?_, fun d hd w hw => ?_, hshows.nodup⟩
    · obtain ⟨d, hd, hsame, -⟩ := hshows.keys e he
      exact ⟨d, hd, hsame⟩
    · obtain ⟨w, hw, -⟩ := hshows.values d hd
      simp [hw]
    · obtain ⟨w', hw', hdecodes⟩ := hshows.values d hd
      rw [hw] at hw'
      cases hw'
      obtain ⟨e, he, heq⟩ := exists_entry_of_mem_keys h (mem_keys_of_mem_ofEntries hd)
      exact hdecodes.faithful_iff.mpr (halone e he w (heq ▸ hw))

/-! ## One tree -/

theorem Faithful.isVariant_eq {w : Wire} {v : DbusType} (h : Faithful w v) :
    v.isVariant = w.isVariant := by
  cases h <;> rfl

/-- Wrapping a decoded value in a variant, or handing on the variant that it is. -/
theorem faithful_ofPointer_iff {w : Wire} {v : DbusType} (hv : v.isVariant = w.isVariant) :
    Faithful (.variant [w]) (DbusVariant.ofPointer (some v)) ↔ Faithful w v := by
  by_cases hvariant : v.isVariant = true
  · -- The value is a variant already, read from a variant.
    obtain ⟨u, rfl⟩ : ∃ u, v = .variant u := by cases v <;> simp_all [DbusType.isVariant]
    obtain ⟨items, rfl⟩ : ∃ items, w = .variant items := by cases w <;> simp_all [Wire.isVariant]
    constructor
    · intro h
      cases h with
      | variant hnot hu => simp [hu.isVariant_eq, Wire.isVariant] at hnot
      | nested hu => exact hu
    · -- The inner variant may itself be shown through several layers.
      intro h
      cases h with
      | variant hnot hu => exact .nested (.variant hnot hu)
      | nested hu => exact .nested (.nested hu)
  · have hpointer : DbusVariant.ofPointer (some v) = .variant v := by
      cases v <;> simp_all [DbusVariant.ofPointer, DbusType.isVariant]
    rw [hpointer]
    constructor
    · intro h
      cases h with
      | variant _ hv => exact hv
      | nested _ => simp [hv, Wire.isVariant] at hvariant
    · exact .variant (by simpa using hvariant)

/-- Every well-formed tree decodes, by one rule for each kind of tree. -/
theorem Wire.Valid.exists_decodesAs {w : Wire} (h : w.Valid) : ∃ v, DecodesAs w v := by
  induction h with
  | @basic value hvalid =>
    refine ⟨.basic value, .basic hvalid, rfl, rfl, ?_⟩
    simp [NanKeysAlone.basic, Faithful.basic]
  | @struct fields _ _ ih =>
    obtain ⟨vs, hvs⟩ := exists_forall₂ ih
    refine ⟨_, .struct (hvs.imp fun _ _ h => h.decodes), ?_, rfl, ?_⟩
    · simp [DbusType.signature, structSignature, signatures_of_decodesAs hvs, Wire.signature]
    · rw [faithful_struct_iff, forall₂_faithful_iff hvs]
      exact ⟨.struct, fun h => by cases h; assumption⟩
  | @array element elements hsig hnot hsame _ ih =>
    obtain ⟨vs, hvs⟩ := exists_forall₂ ih
    refine ⟨_, .array hsig hnot (hvs.imp fun _ _ h => h.decodes) (signature_of_mem hvs hsame),
      rfl, rfl, ?_⟩
    rw [faithful_array_iff hnot, forall₂_faithful_iff hvs]
    refine ⟨.array hnot, fun h => ?_⟩
    cases h with
    | array _ h => exact h
    | dict hdict _ _ => exact absurd hdict hnot
  | @dict key value entries hsig hkeys hvalues _ ih =>
    have hentries : ∀ e ∈ entries, ∃ d, EntryDecodesAs e d := fun e he => by
      obtain ⟨v, hv⟩ := ih e he
      exact ⟨(e.1, v), rfl, hv⟩
    obtain ⟨ds, hds⟩ := exists_forall₂ hentries
    have hdecodes : Forall₂ (DecodesEntry key value) entries ds := by
      refine List.forall₂_iff_zip.mpr ⟨hds.length_eq, fun {e d} hmem => ?_⟩
      obtain ⟨hkey, hd⟩ := List.forall₂_zip hds hmem
      have he := (List.of_mem_zip hmem).1
      exact ⟨hkey, (hkeys e he).1, (hkeys e he).2, hd.signature.trans (hvalues e he), hd.decodes⟩
    exact ⟨_, .dict hsig hdecodes, rfl, rfl,
      faithful_ofEntries_iff (fun e he => (hkeys e he).1) hds value _⟩
  | @variant w _ _ ih =>
    obtain ⟨v, hv⟩ := ih
    refine ⟨_, hv.decodes.variant, by simp [Wire.signature], ?_, ?_⟩
    · cases v <;> rfl
    · rw [faithful_ofPointer_iff hv.isVariant, hv.faithful_iff]
      exact ⟨.variant, fun h => by cases h; assumption⟩

/-! ## Whole messages -/

/-- Reading the arguments ends without an exception, with one value for each argument and
    the signature of the message. -/
theorem arguments_total (m : Message) (hvalid : ∀ w ∈ m.body, w.Valid) :
    ∃ args, Settles (fun fuel => m.arguments fuel 0) (.ok args) ∧
      args.length = m.body.length ∧ DbusType.signatures args = m.signature ∧
      (Forall₂ Faithful m.body args ↔ ∀ w ∈ m.body, NanKeysAlone w) := by
  obtain ⟨args, hargs⟩ := exists_forall₂ fun w hw => (hvalid w hw).exists_decodesAs
  have hsettles := arguments_settles (hargs.imp fun _ _ h => h.decodes) 0
  exact ⟨args, by simpa using hsettles, hargs.length_eq.symm, signatures_of_decodesAs hargs,
    forall₂_faithful_iff hargs⟩

/-- Decoding is total and loses no argument. -/
def Message.LosesNothing (m : Message) : Prop :=
  ∃ args, Settles (fun fuel => m.arguments fuel 0) (.ok args) ∧
    args.length = m.body.length ∧ DbusType.signatures args = m.signature ∧
    Forall₂ Faithful m.body args

/-- A well-formed message loses nothing exactly when every NaN key stands alone. -/
theorem losesNothing_iff_nanKeysAlone (m : Message) (hvalid : ∀ w ∈ m.body, w.Valid) :
    m.LosesNothing ↔ ∀ w ∈ m.body, NanKeysAlone w := by
  obtain ⟨args, hsettles, hlength, hsig, hfaithful⟩ := arguments_total m hvalid
  constructor
  · rintro ⟨args', hsettles', -, -, hfaithful'⟩
    cases Exec.ok.inj (hsettles.unique hsettles')
    exact hfaithful.mp hfaithful'
  · intro halone
    exact ⟨args, hsettles, hlength, hsig, hfaithful.mpr halone⟩

/-- A dict in which a key is repeated, and a variant in a variant. -/
def repeatedKeyMessage : Message where
  ctx := some {
    type := 1
    body := [
      .array (dictEntrySignature .string [BasicType.byte.code])
        ([(.string (text "a"), .basic (.byte 1)), (.string (text "a"), .basic (.byte 2))].map
          Wire.entry),
      .variant [.variant [.basic (.byte 3)]]] }

theorem repeatedKeyMessage_losesNothing : repeatedKeyMessage.LosesNothing := by
  have hvalid : ∀ w ∈ repeatedKeyMessage.body, w.Valid := by
    intro w hw
    simp only [repeatedKeyMessage, Message.body, List.mem_cons, List.not_mem_nil, or_false] at hw
    rcases hw with rfl | rfl
    · refine .dict (by decide) (by decide) (by decide) fun e he => ?_
      simp only [List.mem_cons, List.not_mem_nil, or_false] at he
      rcases he with rfl | rfl <;> exact .basic trivial
    · exact .variant (by decide) (.variant (by decide) (.basic trivial))
  refine (losesNothing_iff_nanKeysAlone repeatedKeyMessage hvalid).mpr fun w hw => ?_
  simp only [repeatedKeyMessage, Message.body, List.mem_cons, List.not_mem_nil, or_false] at hw
  rcases hw with rfl | rfl
  · refine .dict rfl (by decide) fun e he w hw => ?_
    simp only [List.mem_cons, List.not_mem_nil, or_false] at he
    rcases he with rfl | rfl <;> cases hw <;> exact .basic
  · exact .variant (.variant .basic)

/-- The dict `{1.0: 1, NaN: 2}`. -/
def nanKeyEntries : List (Basic × Wire) :=
  [(.double 0x3FF0000000000000, .basic (.byte 1)), (.double 0x7FF8000000000000, .basic (.byte 2))]

def nanKeyMessage : Message where
  ctx := some {
    type := 1
    body := [.array (dictEntrySignature .double [BasicType.byte.code])
      (nanKeyEntries.map Wire.entry)] }

/-- The NaN key of `nanKeyMessage` is not in the decoded dict, and its value has replaced
    that of the other key. -/
theorem nanKeyMessage_loses_key :
    (∀ w ∈ nanKeyMessage.body, w.Valid) ∧ ¬ nanKeyMessage.LosesNothing := by
  constructor
  · intro w hw
    simp only [nanKeyMessage, Message.body, List.mem_cons, List.not_mem_nil, or_false] at hw
    subst hw
    refine .dict (by decide) (by decide) (by decide) fun e he => ?_
    simp only [nanKeyEntries, List.mem_cons, List.not_mem_nil, or_false] at he
    rcases he with rfl | rfl <;> exact .basic trivial
  · rintro ⟨args, hsettles, -, -, hfaithful⟩
    have hentries : Forall₂ (DecodesEntry .double [BasicType.byte.code]) nanKeyEntries
        [(.double 0x3FF0000000000000, .basic (.byte 1)),
          (.double 0x7FF8000000000000, .basic (.byte 2))] :=
      .cons ⟨rfl, rfl, trivial, rfl, .basic trivial⟩
        (.cons ⟨rfl, rfl, trivial, rfl, .basic trivial⟩ .nil)
    have hdecodes := arguments_settles (m := nanKeyMessage)
      (.cons (Decodes.dict (by decide) hentries) .nil) 0
    cases Exec.ok.inj (hsettles.unique hdecodes)
    obtain ⟨hdict, -⟩ := List.forall₂_cons.mp hfaithful
    obtain ⟨hkeys, -⟩ := faithful_dict_iff.mp hdict
    revert hkeys
    decide

end Ultrabus
