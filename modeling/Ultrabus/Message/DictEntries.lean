import Ultrabus.Message.Lossless

/-! # Entries that the dict loop skips

`create_dict_from_iter_impl` passes over an entry with `continue` when the key is of another
type, when there is no key or no value, and when the value cannot be decoded.  Only the end
of its loop advances the iterator. -/

namespace Ultrabus

open Exec (Extends Settles eventually_succ settles_of_extends)
open Filter (atTop)

/-! ## Larger budgets -/

/-- One more unit of budget changes no outcome of the functions `create_*_from_iter`. -/
structure MoreBudget (fuel : Nat) : Prop where
  value : ∀ iter, Extends (createValueFromIter fuel iter) (createValueFromIter (fuel + 1) iter)
  struct : ∀ iter, Extends (createStructFromIter fuel iter) (createStructFromIter (fuel + 1) iter)
  structLoop : ∀ s iter, Extends (structLoop fuel s iter) (structLoop (fuel + 1) s iter)
  dictImpl : ∀ key iter signature, Extends (createDictFromIterImpl fuel key iter signature)
    (createDictFromIterImpl (fuel + 1) key iter signature)
  dictLoop : ∀ dict iter, Extends (dictLoop fuel dict iter) (dictLoop (fuel + 1) dict iter)
  dict : ∀ iter, Extends (createDictFromIter fuel iter) (createDictFromIter (fuel + 1) iter)
  array : ∀ iter, Extends (createArrayFromIter fuel iter) (createArrayFromIter (fuel + 1) iter)
  arrayLoop : ∀ array iter,
    Extends (arrayLoop fuel array iter) (arrayLoop (fuel + 1) array iter)
  variant : ∀ iter,
    Extends (createVariantFromIter fuel iter) (createVariantFromIter (fuel + 1) iter)

namespace MoreBudget

variable {fuel : Nat}

theorem value_succ (h : MoreBudget fuel) (iter : ReadIter) :
    Extends (createValueFromIter (fuel + 1) iter) (createValueFromIter (fuel + 2) iter) := by
  cases iter with
  | nil => exact .refl _
  | cons w rest =>
    cases w with
    | basic value => exact .refl _
    | struct fields => exact h.struct _
    | array element elements => exact h.array _
    | dictEntry items => exact .refl _
    | variant items => exact h.variant _

theorem structLoop_succ (h : MoreBudget fuel) (s : DbusStruct) (iter : ReadIter) :
    Extends (Ultrabus.structLoop (fuel + 1) s iter) (Ultrabus.structLoop (fuel + 2) s iter) := by
  refine (h.value iter).bind fun attrib => ?_
  cases attrib with
  | none => exact .refl _
  | some attrib => exact h.structLoop _ _

theorem arrayLoop_succ (h : MoreBudget fuel) (array : DbusArray) (iter : ReadIter) :
    Extends (Ultrabus.arrayLoop (fuel + 1) array iter)
      (Ultrabus.arrayLoop (fuel + 2) array iter) := by
  refine (h.value iter).bind fun element => ?_
  cases element with
  | none => exact .refl _
  | some element => exact (Extends.refl _).bind fun _ => h.arrayLoop _ _

theorem dictLoop_succ (h : MoreBudget fuel) (dict : DbusDict) (iter : ReadIter) :
    Extends (Ultrabus.dictLoop (fuel + 1) dict iter) (Ultrabus.dictLoop (fuel + 2) dict iter) := by
  rw [Ultrabus.dictLoop, Ultrabus.dictLoop]
  split
  case isFalse => exact .refl _
  case isTrue =>
    dsimp only
    split
    case isTrue => exact h.dictLoop _ _
    case isFalse =>
      refine (h.value _).bind fun key => ?_
      cases key with
      | none => exact h.dictLoop _ _
      | some key =>
        dsimp only
        split
        case isTrue => exact h.dictLoop _ _
        case isFalse =>
          refine (h.value _).bind fun value => ?_
          cases value with
          | none => exact h.dictLoop _ _
          | some value => exact (Extends.refl _).bind fun _ => h.dictLoop _ _

theorem dict_succ (h : MoreBudget fuel) (iter : ReadIter) :
    Extends (createDictFromIter (fuel + 1) iter) (createDictFromIter (fuel + 2) iter) := by
  rw [createDictFromIter, createDictFromIter]
  split
  · exact h.dictImpl _ _ _
  · exact .refl _

theorem array_succ (h : MoreBudget fuel) (iter : ReadIter) :
    Extends (createArrayFromIter (fuel + 1) iter) (createArrayFromIter (fuel + 2) iter) := by
  rw [createArrayFromIter, createArrayFromIter]
  split
  case isTrue => exact h.dict _
  case isFalse =>
    refine (Extends.refl _).bind fun _ => ?_
    exact (h.arrayLoop _ _).bind fun _ => .refl _

theorem variant_succ (h : MoreBudget fuel) (iter : ReadIter) :
    Extends (createVariantFromIter (fuel + 1) iter) (createVariantFromIter (fuel + 2) iter) := by
  rw [createVariantFromIter, createVariantFromIter]
  split
  case isTrue => exact .refl _
  case isFalse => exact (h.value _).bind fun _ => .refl _

theorem succ (h : MoreBudget fuel) : MoreBudget (fuel + 1) where
  value := h.value_succ
  struct _ := (h.structLoop _ _).bind fun _ => .refl _
  structLoop := h.structLoop_succ
  dictImpl _ _ _ := (Extends.refl _).bind fun _ => (h.dictLoop _ _).bind fun _ => .refl _
  dictLoop := h.dictLoop_succ
  dict := h.dict_succ
  array := h.array_succ
  arrayLoop := h.arrayLoop_succ
  variant := h.variant_succ

end MoreBudget

/-- The functions call each other with the budget that is left: one induction for all. -/
theorem moreBudget (fuel : Nat) : MoreBudget fuel := by
  induction fuel with
  | zero =>
    exact ⟨fun _ => .timeout _, fun _ => .timeout _, fun _ _ => .timeout _,
      fun _ _ _ => .timeout _, fun _ _ => .timeout _, fun _ => .timeout _, fun _ => .timeout _,
      fun _ _ => .timeout _, fun _ => .timeout _⟩
  | succ fuel ih => exact ih.succ

/-! ## What the loop makes of an entry -/

/-- Reading an iterator comes to `value`; `none` is the null pointer. -/
def ReadsAs (iter : ReadIter) (value : Option DbusType) : Prop :=
  Settles (fun fuel => createValueFromIter fuel iter) (.ok value)

/-- The four `continue` branches, on an iterator over an entry of a dict keyed by `key`. -/
inductive Skipped (key : BasicType) (entryIter : ReadIter) : Prop where
  | keyType : entryIter.argTypeIs key = false → Skipped key entryIter
  | noKey : entryIter.argTypeIs key = true → ReadsAs entryIter none → Skipped key entryIter
  | noValue {k : DbusType} : entryIter.argTypeIs key = true → ReadsAs entryIter (some k) →
      entryIter.next.argTypeIsInvalid = true → Skipped key entryIter
  | nullValue {k : DbusType} : entryIter.argTypeIs key = true → ReadsAs entryIter (some k) →
      entryIter.next.argTypeIsInvalid = false → ReadsAs entryIter.next none →
      Skipped key entryIter

/-- The entry passes the checks of the loop, which calls `dict.set (k, v)` for it. -/
structure Passes (key : BasicType) (entryIter : ReadIter) (k : Basic) (v : DbusType) :
    Prop where
  keyType : entryIter.argTypeIs key = true
  readsKey : ReadsAs entryIter (some (.basic k))
  castKey : k.type = key
  hasValue : entryIter.next.argTypeIsInvalid = false
  readsValue : ReadsAs entryIter.next (some v)

/-- What `dict.set` stores for a value in a dict with values of signature `signature`. -/
def storedValue (signature : Bytes) (value : DbusType) : Option DbusType :=
  if value.signature = signature then some value
  else if signature.head? = some dbusTypeVariant then some (DbusVariant.ofPointer (some value))
  else none

/-- `Kept key signature entries kept`: each of the entries is skipped or passes the checks, and
    `kept` are the keys and values of those that `dict.set` accepts. -/
inductive Kept (key : BasicType) (signature : Bytes) :
    List (List Wire) → List (Basic × DbusType) → Prop where
  | nil : Kept key signature [] []
  | skipped {entry : List Wire} {entries : List (List Wire)} {kept : List (Basic × DbusType)} :
      Skipped key entry → Kept key signature entries kept →
      Kept key signature (entry :: entries) kept
  | passes {entry : List Wire} {entries : List (List Wire)} {kept : List (Basic × DbusType)}
      {k : Basic} {v : DbusType} :
      Passes key entry k v → Kept key signature entries kept →
      Kept key signature (entry :: entries)
        (((storedValue signature v).map fun v => (k, v)).toList ++ kept)

/-- `create_dict_from_iter_impl` ends on an array of the entries, and the dict is the map of the
    entries it keeps. -/
def DecodesKept (key : BasicType) (signature : Bytes) (entries : List (List Wire)) : Prop :=
  ∃ kept, Kept key signature entries kept ∧ ∀ rest,
    Settles (fun fuel => createDictFromIterImpl fuel key
        (.array (dictEntrySignature key signature) (entries.map .dictEntry) :: rest) signature)
      (.ok (some (.dict key (dictSignature key signature)
        (OrderedMap.ofEntries Basic.less kept))))

/-! ## One turn of the loop -/

variable {key : BasicType} {entry : List Wire}

/-- A turn that skips an entry leaves the iterator where it is, so that the next turn skips the
    same entry. -/
theorem dictLoop_of_skipped (dict : DbusDict) (h : Skipped dict.key entry) (rest : ReadIter)
    (fuel : Nat) : dictLoop fuel dict (.dictEntry entry :: rest) = .timeout := by
  induction fuel with
  | zero => rfl
  | succ fuel ih =>
    have hmore := fun iter fuel => (moreBudget fuel).value iter
    have hentry : ReadIter.recurse (.dictEntry entry :: rest) = entry := rfl
    have hhead : ReadIter.argTypeIsDictEntry (.dictEntry entry :: rest) = true := rfl
    rw [dictLoop, if_pos hhead, hentry]
    dsimp only
    cases h with
    | keyType htype => rw [htype]; exact ih
    | noKey htype hkey =>
      rw [htype]
      obtain hread | hread := hkey.eq_or_timeout (hmore _) fuel
      · rw [hread]; exact ih
      · rw [hread]; rfl
    | noValue htype hkey hend =>
      rw [htype]
      obtain hread | hread := hkey.eq_or_timeout (hmore _) fuel
      · rw [hread, hend]; exact ih
      · rw [hread]; rfl
    | nullValue htype hkey hend hvalue =>
      rw [htype]
      obtain hread | hread := hkey.eq_or_timeout (hmore _) fuel
      · rw [hread, hend]
        obtain hread' | hread' := hvalue.eq_or_timeout (hmore _) fuel
        · simp only [Exec.ok_bind, hread']; exact ih
        · simp only [Exec.ok_bind, hread']; rfl
      · rw [hread]; rfl

/-- A turn that calls `dict.set` advances the iterator. -/
theorem dictLoop_of_passes (dict : DbusDict) {k : Basic} {v : DbusType}
    (h : Passes dict.key entry k v) (rest : ReadIter) :
    ∀ᶠ fuel in atTop, dictLoop (fuel + 1) dict (.dictEntry entry :: rest) =
      dictLoop fuel (dict.set k (some v)).1 rest := by
  have hcast : (DbusType.basic k).castBasic dict.key = .ok k := if_pos h.castKey
  filter_upwards [h.readsKey, h.readsValue] with fuel hkey hvalue
  have hentry : ReadIter.recurse (.dictEntry entry :: rest) = entry := rfl
  have hhead : ReadIter.argTypeIsDictEntry (.dictEntry entry :: rest) = true := rfl
  rw [dictLoop, if_pos hhead, hentry]
  simp only [h.keyType, hkey, h.hasValue, hvalue, hcast, Exec.ok_bind, Exec.ofExcept_ok,
    Bool.not_true, Bool.false_eq_true, if_false]
  rfl

/-! ## The whole loop -/

/-- The dict that some entries have been assigned to. -/
def filled (key : BasicType) (signature : Bytes) (kept : List (Basic × DbusType)) : DbusDict :=
  ⟨key, dictSignature key signature, OrderedMap.ofEntries Basic.less kept⟩

variable {signature : Bytes} {entries : List (List Wire)} {kept before : List (Basic × DbusType)}

theorem set_filled (kept : List (Basic × DbusType)) (k : Basic) (v : DbusType) :
    ((filled key signature kept).set k (some v)).1 = filled key signature
      (kept ++ ((storedValue signature v).map fun v => (k, v)).toList) := by
  have hvalue : (filled key signature kept).valueSignature = signature :=
    valueSignature_dictSignature _ _ _
  simp only [DbusDict.set, hvalue, storedValue]
  split
  case isTrue => simp [filled, OrderedMap.ofEntries_concat]
  case isFalse =>
    split
    case isTrue => simp [filled, OrderedMap.ofEntries_concat]
    case isFalse => simp

/-- The loop comes to its end where every entry passes the checks. -/
theorem dictLoop_settles_of_passes (signature : Bytes)
    (h : ∀ entry ∈ entries, ∃ k v, Passes key entry k v) (before : List (Basic × DbusType)) :
    ∃ kept, Kept key signature entries kept ∧
      Settles (fun fuel => dictLoop fuel (filled key signature before) (entries.map .dictEntry))
        (.ok (filled key signature (before ++ kept))) := by
  induction entries generalizing before with
  | nil =>
    refine ⟨[], .nil, ?_⟩
    apply eventually_succ
    exact .of_forall fun fuel => by simp [dictLoop, ReadIter.argTypeIsDictEntry]
  | cons entry entries ih =>
    obtain ⟨k, v, hentry⟩ := h entry List.mem_cons_self
    have hrest := fun e he => h e (List.mem_cons_of_mem _ he)
    obtain ⟨kept, hkept, hloop⟩ :=
      ih hrest (before ++ ((storedValue signature v).map fun v => (k, v)).toList)
    refine ⟨_, .passes hentry hkept, ?_⟩
    rw [List.append_assoc] at hloop
    have hturn := dictLoop_of_passes (filled key signature before) hentry
      (entries.map .dictEntry)
    apply eventually_succ
    filter_upwards [hturn, hloop] with fuel hturn hloop
    rw [List.map_cons, hturn, set_filled, hloop]

/-- Where the loop comes to its end, it has skipped no entry. -/
theorem passes_of_dictLoop_settles (hkept : Kept key signature entries kept) {dict : DbusDict}
    (h : Settles (fun fuel => dictLoop fuel (filled key signature before)
      (entries.map .dictEntry)) (.ok dict)) :
    ∀ entry ∈ entries, ∃ k v, Passes key entry k v := by
  induction hkept generalizing before with
  | nil => simp
  | @skipped entry entries _ hskipped _ _ =>
    obtain ⟨fuel, hfuel⟩ := h.exists
    have hforever := dictLoop_of_skipped (filled key signature before) hskipped
      (entries.map .dictEntry) fuel
    cases hforever.symm.trans hfuel
  | @passes entry entries _ k v hentry _ ih =>
    have hturn := dictLoop_of_passes (filled key signature before) hentry
      (entries.map .dictEntry)
    have hlater := (Filter.tendsto_add_atTop_nat 1).eventually h
    have hrest : Settles (fun fuel => dictLoop fuel (filled key signature (before ++
        ((storedValue signature v).map fun v => (k, v)).toList)) (entries.map .dictEntry))
        (.ok dict) := by
      filter_upwards [hturn, hlater] with fuel hturn hlater
      rw [← set_filled, ← hturn, ← List.map_cons, hlater]
    intro e he
    obtain rfl | he := List.mem_cons.mp he
    · exact ⟨k, v, hentry⟩
    · exact ih hrest e he

/-- `create_dict_from_iter_impl` is its loop, run on an empty dict. -/
theorem createDictFromIterImpl_eq
    (hsig : dbusSignatureValidateSingle (dictSignature key signature) = true) (fuel : Nat)
    (rest : ReadIter) :
    createDictFromIterImpl (fuel + 1) key
        (.array (dictEntrySignature key signature) (entries.map .dictEntry) :: rest) signature =
      (dictLoop fuel (filled key signature []) (entries.map .dictEntry) >>= fun dict =>
        .ok (some dict.toDbusType)) := by
  have hvalue := validateSingle_dict_value hsig
  have hnew : DbusDict.ofValueSignature key signature = .ok (filled key signature []) := by
    simp [DbusDict.ofValueSignature, cStr_of_validateSingle hvalue, hvalue, filled,
      OrderedMap.ofEntries]
  rw [createDictFromIterImpl, hnew]
  rfl

/-- Decoding the entries of a dict ends, with the dict of those it keeps, exactly if every entry
    passes the checks of the loop. -/
theorem createDictFromIterImpl_ends_iff
    (hsig : dbusSignatureValidateSingle (dictSignature key signature) = true) :
    DecodesKept key signature entries ↔ ∀ entry ∈ entries, ∃ k v, Passes key entry k v := by
  constructor
  · rintro ⟨kept, hkept, hends⟩
    have hlater := (Filter.tendsto_add_atTop_nat 1).eventually (hends [])
    have hloop : Settles (fun fuel => dictLoop fuel (filled key signature [])
        (entries.map .dictEntry)) (.ok (filled key signature kept)) := by
      filter_upwards [hlater] with fuel hfuel
      rw [createDictFromIterImpl_eq hsig, Exec.bind_eq_ok_iff] at hfuel
      obtain ⟨⟨k, sig, items⟩, hdict, hresult⟩ := hfuel
      obtain ⟨rfl, rfl, rfl⟩ : k = key ∧ sig = dictSignature key signature ∧
          items = OrderedMap.ofEntries Basic.less kept := by
        simpa [DbusDict.toDbusType] using hresult
      exact hdict
    exact passes_of_dictLoop_settles hkept hloop
  · intro h
    obtain ⟨kept, hkept, hloop⟩ := dictLoop_settles_of_passes signature h []
    refine ⟨kept, hkept, fun rest => ?_⟩
    apply eventually_succ
    filter_upwards [hloop] with fuel hloop
    rw [createDictFromIterImpl_eq hsig, hloop]
    rfl

/-! ## Inputs -/

/-- `create_dict_from_iter_impl` runs for ever on an array that starts with a skipped entry. -/
theorem createDictFromIterImpl_of_skipped
    (hsig : dbusSignatureValidateSingle (dictSignature key signature) = true)
    (h : Skipped key entry) (rest : ReadIter) (fuel : Nat) :
    createDictFromIterImpl fuel key
        (.array (dictEntrySignature key signature) ((entry :: entries).map .dictEntry) :: rest)
        signature = .timeout := by
  cases fuel with
  | zero => rfl
  | succ fuel =>
    have hforever := dictLoop_of_skipped (filled key signature []) h
      (entries.map .dictEntry) fuel
    rw [createDictFromIterImpl_eq hsig, List.map_cons, hforever]
    rfl

/-- The entries of the arrays that libdbus validates pass the checks. -/
theorem exists_passes_of_valid {e : Basic × Wire} (htype : e.1.type = key) (hkey : e.1.Valid)
    (hvalue : e.2.Valid) : ∃ v, Passes key [.basic e.1, e.2] e.1 v := by
  obtain ⟨v, hv⟩ := hvalue.exists_decodesAs
  have hreads := Decodes.basic hkey
  refine ⟨v, ?_, ?_, htype, rfl, ?_⟩
  · simp [ReadIter.argTypeIs, htype]
  · filter_upwards [hreads] with fuel hfuel
    exact hfuel _
  · filter_upwards [hv.decodes] with fuel hfuel
    exact hfuel _

/-- Texts for texts, in two entries. -/
theorem decodesKept_texts : DecodesKept .string (text "s")
    [[.basic (.string (text "a")), .basic (.string (text "x"))],
      [.basic (.string (text "b")), .basic (.string (text "y"))]] := by
  have hentry : ∀ k v : Bytes, validUtf8 k = true → validUtf8 v = true →
      ∃ k' v', Passes .string [.basic (.string k), .basic (.string v)] k' v' := by
    intro k v hk hv
    obtain ⟨v', hv'⟩ := exists_passes_of_valid (e := (.string k, .basic (.string v))) rfl hk
      (.basic hv)
    exact ⟨.string k, v', hv'⟩
  refine (createDictFromIterImpl_ends_iff (by decide)).mpr fun entry hmem => ?_
  simp only [List.mem_cons, List.not_mem_nil, or_false] at hmem
  obtain rfl | rfl := hmem
  · exact hentry _ _ (by decide) (by decide)
  · exact hentry _ _ (by decide) (by decide)

/-- A number in place of a text: the loop is to skip the entry, and never gets past it. -/
theorem not_decodesKept_numberKey :
    Kept .string (text "s") [[.basic (.byte 1), .basic (.string (text "x"))]] [] ∧
      ¬ DecodesKept .string (text "s") [[.basic (.byte 1), .basic (.string (text "x"))]] := by
  have hskipped : Skipped .string [.basic (.byte 1), .basic (.string (text "x"))] :=
    .keyType (by decide)
  refine ⟨.skipped hskipped .nil, ?_⟩
  rintro ⟨kept, -, hends⟩
  obtain ⟨fuel, hfuel⟩ := (hends []).exists
  have hsig : dbusSignatureValidateSingle (dictSignature .string (text "s")) = true := by decide
  have hforever := @createDictFromIterImpl_of_skipped _ _ _ [] hsig hskipped [] fuel
  cases hforever.symm.trans hfuel

end Ultrabus
