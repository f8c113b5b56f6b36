import Mathlib.Data.List.TakeWhile

/-! # D-Bus type codes and signatures

Byte strings, the type codes of the D-Bus protocol and the grammar of signatures with
its limits: at most 255 bytes, 32 levels of arrays and 32 levels of structs.

`dbusSignatureValidateSingle` and `dbusSignatureValidate` are the two validators of
libdbus that the library calls, as the D-Bus specification describes them: a parser for
the grammar.  `validateSingle_iff` ties the parser to the grammar itself, given by the
syntax trees `SigType` and their text `SigType.render`. -/

namespace Ultrabus

/-- A `std::string`: any sequence of bytes. -/
abbrev Bytes := List UInt8

/-- What `c_str()` shows of a `std::string`: the bytes before the first NUL. -/
def cStr (s : Bytes) : Bytes := s.takeWhile (· ≠ 0)

/-- The bytes of a text in the source. -/
def text (s : String) : Bytes := s.toList.map Char.toUInt8

theorem cStr_eq_self {s : Bytes} (h : (0 : UInt8) ∉ s) : cStr s = s := by
  rw [cStr, List.takeWhile_eq_self_iff]
  intro b hb
  simpa using fun h0 : b = 0 => h (h0 ▸ hb)

theorem nul_notMem_cStr {s : Bytes} : (0 : UInt8) ∉ cStr s := by
  intro h
  simpa using List.mem_takeWhile_imp h

/-! ## Type codes -/

/-- The thirteen basic types, one for each class of `any_dbus_basic_type`. -/
inductive BasicType where
  | byte | boolean | int16 | uint16 | int32 | uint32 | int64 | uint64 | double
  | string | objectPath | signature | unixFd
deriving DecidableEq, Repr

def BasicType.code : BasicType → UInt8
  | .byte => 'y'.toUInt8
  | .boolean => 'b'.toUInt8
  | .int16 => 'n'.toUInt8
  | .uint16 => 'q'.toUInt8
  | .int32 => 'i'.toUInt8
  | .uint32 => 'u'.toUInt8
  | .int64 => 'x'.toUInt8
  | .uint64 => 't'.toUInt8
  | .double => 'd'.toUInt8
  | .string => 's'.toUInt8
  | .objectPath => 'o'.toUInt8
  | .signature => 'g'.toUInt8
  | .unixFd => 'h'.toUInt8

/-- The basic type with a given code (`dbus_type_is_basic`). -/
def BasicType.ofCode? (c : UInt8) : Option BasicType :=
  [.byte, .boolean, .int16, .uint16, .int32, .uint32, .int64, .uint64, .double,
    .string, .objectPath, .signature, .unixFd].find? (·.code = c)

/-- An `int` that is a character. -/
def charOfInt? (code : Int) : Option UInt8 :=
  if 0 ≤ code ∧ code < 256 then some (UInt8.ofNat code.toNat) else none

/-- `dbus_type_is_basic` on an `int`. -/
def BasicType.ofInt? (code : Int) : Option BasicType :=
  (charOfInt? code).bind BasicType.ofCode?

def dbusTypeArray : UInt8 := 'a'.toUInt8
def dbusTypeVariant : UInt8 := 'v'.toUInt8
def dbusStructBeginChar : UInt8 := '('.toUInt8
def dbusStructEndChar : UInt8 := ')'.toUInt8
def dbusDictEntryBeginChar : UInt8 := '{'.toUInt8
def dbusDictEntryEndChar : UInt8 := '}'.toUInt8

@[simp] theorem BasicType.ofCode?_code (t : BasicType) : BasicType.ofCode? t.code = some t := by
  cases t <;> rfl

theorem BasicType.code_of_ofCode? {c : UInt8} {t : BasicType} (h : BasicType.ofCode? c = some t) :
    t.code = c := by
  simpa using List.find?_some h

theorem BasicType.code_injective {t t' : BasicType} (h : t.code = t'.code) : t = t' := by
  have hofCode := BasicType.ofCode?_code t
  rw [h, BasicType.ofCode?_code] at hofCode
  exact (Option.some.inj hofCode).symm

@[simp] theorem BasicType.code_ne_array (t : BasicType) : t.code ≠ dbusTypeArray := by
  cases t <;> decide
@[simp] theorem BasicType.code_ne_variant (t : BasicType) : t.code ≠ dbusTypeVariant := by
  cases t <;> decide
@[simp] theorem BasicType.code_ne_structBegin (t : BasicType) : t.code ≠ dbusStructBeginChar := by
  cases t <;> decide
@[simp] theorem BasicType.code_ne_structEnd (t : BasicType) : t.code ≠ dbusStructEndChar := by
  cases t <;> decide
@[simp] theorem BasicType.code_ne_dictBegin (t : BasicType) :
    t.code ≠ dbusDictEntryBeginChar := by
  cases t <;> decide

/-! ## Syntax trees of single complete types -/

/-- A single complete type.  A struct has at least one field; a dict is an array of
    dict entries, so that an entry stands nowhere else. -/
inductive SigType where
  | basic (type : BasicType)
  | variant
  | array (element : SigType)
  | struct (first : SigType) (rest : List SigType)
  | dict (key : BasicType) (value : SigType)

mutual
def SigType.render : SigType → Bytes
  | .basic type => [type.code]
  | .variant => [dbusTypeVariant]
  | .array element => dbusTypeArray :: element.render
  | .struct first rest =>
    dbusStructBeginChar :: (first.render ++ (SigType.renderAll rest ++ [dbusStructEndChar]))
  | .dict key value =>
    dbusTypeArray :: dbusDictEntryBeginChar :: key.code :: (value.render ++ [dbusDictEntryEndChar])

def SigType.renderAll : List SigType → Bytes
  | [] => []
  | type :: types => type.render ++ SigType.renderAll types
end

mutual
def SigType.arrayDepth : SigType → Nat
  | .basic _ => 0
  | .variant => 0
  | .array element => element.arrayDepth + 1
  | .struct first rest => max first.arrayDepth (SigType.arrayDepthAll rest)
  | .dict _ value => value.arrayDepth + 1

def SigType.arrayDepthAll : List SigType → Nat
  | [] => 0
  | type :: types => max type.arrayDepth (SigType.arrayDepthAll types)
end

mutual
def SigType.structDepth : SigType → Nat
  | .basic _ => 0
  | .variant => 0
  | .array element => element.structDepth
  | .struct first rest => max first.structDepth (SigType.structDepthAll rest) + 1
  | .dict _ value => value.structDepth

def SigType.structDepthAll : List SigType → Nat
  | [] => 0
  | type :: types => max type.structDepth (SigType.structDepthAll types)
end

def dbusMaximumSignatureLength : Nat := 255
def dbusMaximumTypeRecursionDepth : Nat := 32

/-- The limits of the protocol on one type. -/
def SigType.WithinLimits (t : SigType) : Prop :=
  t.render.length ≤ dbusMaximumSignatureLength ∧
  t.arrayDepth ≤ dbusMaximumTypeRecursionDepth ∧ t.structDepth ≤ dbusMaximumTypeRecursionDepth

instance (t : SigType) : Decidable t.WithinLimits := inferInstanceAs (Decidable (_ ∧ _ ∧ _))

/-! ## The parser -/

mutual
/-- Read one complete type; the rest of the text is returned with it. -/
def parseSingle : Nat → Bytes → Option (SigType × Bytes)
  | 0, _ => none
  | _ + 1, [] => none
  | fuel + 1, c :: rest =>
    if c = dbusTypeVariant then some (.variant, rest)
    else if c = dbusStructBeginChar then
      match parseFields fuel rest with
      | some (first :: fields, rest) => some (.struct first fields, rest)
      | _ => none
    else if c = dbusTypeArray then
      match rest with
      | [] => none
      | d :: rest' =>
        if d = dbusDictEntryBeginChar then
          match rest' with
          | [] => none
          | k :: rest'' =>
            match BasicType.ofCode? k, parseSingle fuel rest'' with
            | some key, some (value, e :: rest) =>
              if e = dbusDictEntryEndChar then some (.dict key value, rest) else none
            | _, _ => none
        else
          match parseSingle fuel (d :: rest') with
          | some (element, rest) => some (.array element, rest)
          | none => none
    else
      match BasicType.ofCode? c with
      | some type => some (.basic type, rest)
      | none => none

/-- Read complete types up to the end of a struct. -/
def parseFields : Nat → Bytes → Option (List SigType × Bytes)
  | 0, _ => none
  | _ + 1, [] => none
  | fuel + 1, c :: rest =>
    if c = dbusStructEndChar then some ([], rest)
    else
      match parseSingle fuel (c :: rest) with
      | some (type, rest) =>
        match parseFields fuel rest with
        | some (types, rest) => some (type :: types, rest)
        | none => none
      | none => none
end

/-- `dbus_signature_validate_single`: the text is one single complete type. -/
def dbusSignatureValidateSingle (s : Bytes) : Bool :=
  match parseSingle (2 * s.length) s with
  | some (t, []) => decide t.WithinLimits
  | _ => false

/-- Read complete types to the end of the text. -/
def parseTypes : Nat → Bytes → Option (List SigType)
  | _, [] => some []
  | 0, _ :: _ => none
  | fuel + 1, s@(_ :: _) =>
    match parseSingle (2 * s.length) s with
    | some (type, rest) => (parseTypes fuel rest).map (type :: ·)
    | none => none

/-- `dbus_signature_validate`: the text is a sequence of complete types. -/
def dbusSignatureValidate (s : Bytes) : Bool :=
  match parseTypes s.length s with
  | some types =>
    decide (s.length ≤ dbusMaximumSignatureLength) && types.all fun t => decide t.WithinLimits
  | none => false

/-! ## The parser reads exactly the grammar -/

theorem SigType.render_ne_nil (t : SigType) : t.render ≠ [] := by
  cases t <;> simp [SigType.render]

/-- No complete type starts with the opening or ends where it should start. -/
theorem SigType.render_head (t : SigType) : ∃ c rest, t.render = c :: rest ∧
    c ≠ dbusStructEndChar ∧ c ≠ dbusDictEntryBeginChar := by
  cases t with
  | basic type => exact ⟨_, _, rfl, by simp, by simp⟩
  | variant => exact ⟨_, _, rfl, by decide, by decide⟩
  | array element => exact ⟨_, _, rfl, by decide, by decide⟩
  | struct first rest => exact ⟨_, _, rfl, by decide, by decide⟩
  | dict key value => exact ⟨_, _, rfl, by decide, by decide⟩

/-- One character tells the type of variants. -/
theorem SigType.eq_variant_of_headD {t : SigType} (h : t.render.headD 0 = dbusTypeVariant) :
    t = .variant := by
  have harray : dbusTypeArray ≠ dbusTypeVariant := by decide
  have hstruct : dbusStructBeginChar ≠ dbusTypeVariant := by decide
  cases t with
  | basic type => exact absurd h type.code_ne_variant
  | variant => rfl
  | array element => exact absurd h harray
  | struct first rest => exact absurd h hstruct
  | dict key value => exact absurd h harray

theorem SigType.render_length_pos (t : SigType) : 0 < t.render.length :=
  List.length_pos_iff.mpr t.render_ne_nil

mutual
/-- The parser reads a type back from its text, whatever follows. -/
theorem parseSingle_render (t : SigType) (rest : Bytes) (fuel : Nat)
    (enough : 2 * t.render.length ≤ fuel) :
    parseSingle fuel (t.render ++ rest) = some (t, rest) := by
  cases fuel with
  | zero => have := t.render_length_pos; omega
  | succ fuel =>
    cases t with
    | basic type => simp [SigType.render, parseSingle]
    | variant => simp [SigType.render, parseSingle]
    | array element =>
      -- The element does not start as a dict entry, so that the parser takes the array branch.
      obtain ⟨c, tail, hhead, -, hnotDict⟩ := element.render_head
      have inner := parseSingle_render element rest fuel (by
        simp only [SigType.render, List.length_cons] at enough; omega)
      rw [hhead] at inner
      simp only [SigType.render, hhead, List.cons_append] at inner ⊢
      have hv : dbusTypeArray ≠ dbusTypeVariant := by decide
      have hs : dbusTypeArray ≠ dbusStructBeginChar := by decide
      simp [parseSingle, hv, hs, hnotDict, inner]
    | struct first fields =>
      -- Two units for each byte leave one to read each field and one to look for the end.
      have inner := parseFields_render (first :: fields) rest fuel (by
        simp only [SigType.render, SigType.renderAll, List.length_cons, List.length_append,
          List.length_nil] at enough ⊢
        omega)
      simp only [SigType.renderAll, List.append_assoc] at inner
      have hv : dbusStructBeginChar ≠ dbusTypeVariant := by decide
      simp [SigType.render, parseSingle, hv, inner]
    | dict key value =>
      have inner := parseSingle_render value (dbusDictEntryEndChar :: rest) fuel (by
        simp only [SigType.render, List.length_cons, List.length_append] at enough; omega)
      have hv : dbusTypeArray ≠ dbusTypeVariant := by decide
      have hs : dbusTypeArray ≠ dbusStructBeginChar := by decide
      simp [SigType.render, parseSingle, hv, hs, inner]
termination_by fuel

theorem parseFields_render (types : List SigType) (rest : Bytes) (fuel : Nat)
    (enough : 2 * (SigType.renderAll types).length + 1 ≤ fuel) :
    parseFields fuel (SigType.renderAll types ++ dbusStructEndChar :: rest) =
      some (types, rest) := by
  cases fuel with
  | zero => omega
  | succ fuel =>
    cases types with
    | nil => simp [SigType.renderAll, parseFields]
    | cons type types =>
      have hpos := type.render_length_pos
      simp only [SigType.renderAll, List.length_append] at enough
      have head := parseSingle_render type
        (SigType.renderAll types ++ dbusStructEndChar :: rest) fuel (by omega)
      have tail := parseFields_render types rest fuel (by omega)
      -- A field does not start with the end of the struct.
      obtain ⟨c, more, hhead, hnotEnd, -⟩ := type.render_head
      rw [hhead] at head
      simp only [SigType.renderAll, hhead, List.append_assoc, List.cons_append] at head ⊢
      simp [parseFields, hnotEnd, head, tail]
termination_by fuel
end

section Sound

variable {fuel : Nat}
  (ihSingle : ∀ s t rest, parseSingle fuel s = some (t, rest) → s = t.render ++ rest)
  (ihFields : ∀ s types rest, parseFields fuel s = some (types, rest) →
    s = SigType.renderAll types ++ dbusStructEndChar :: rest)

include ihSingle

/-- An array or a dict, by the character behind the `a`. -/
theorem parseSingle_array_sound {tail : Bytes} {t : SigType} {rest : Bytes}
    (h : parseSingle (fuel + 1) (dbusTypeArray :: tail) = some (t, rest)) :
    dbusTypeArray :: tail = t.render ++ rest := by
  have hv : dbusTypeArray ≠ dbusTypeVariant := by decide
  have hs : dbusTypeArray ≠ dbusStructBeginChar := by decide
  simp only [parseSingle, if_neg hv, if_neg hs, if_true] at h
  cases tail with
  | nil => cases h
  | cons d tail =>
    dsimp only at h
    by_cases hd : d = dbusDictEntryBeginChar
    · rw [if_pos hd] at h
      cases tail with
      | nil => cases h
      | cons k tail =>
        dsimp only at h
        split at h
        case h_1 key value e rest' hkey hvalue =>
          split at h
          case isTrue he =>
            obtain ⟨rfl, rfl⟩ := Prod.mk.inj (Option.some.inj h)
            simp [SigType.render, hd, he, ihSingle _ _ _ hvalue, BasicType.code_of_ofCode? hkey]
          case isFalse => cases h
        case h_2 => cases h
    · rw [if_neg hd] at h
      split at h
      case h_1 element rest' helement =>
        obtain ⟨rfl, rfl⟩ := Prod.mk.inj (Option.some.inj h)
        simp [SigType.render, ihSingle _ _ _ helement]
      case h_2 => cases h

include ihFields in
theorem parseSingle_sound {s : Bytes} {t : SigType} {rest : Bytes}
    (h : parseSingle (fuel + 1) s = some (t, rest)) : s = t.render ++ rest := by
  cases s with
  | nil => cases h
  | cons c tail =>
    by_cases harray : c = dbusTypeArray
    · subst harray
      exact parseSingle_array_sound ihSingle h
    simp only [parseSingle] at h
    split at h
    case isTrue hc =>
      obtain ⟨rfl, rfl⟩ := Prod.mk.inj (Option.some.inj h)
      simp [SigType.render, hc]
    case isFalse =>
      split at h
      case isTrue hc =>
        split at h
        case h_1 first fields rest' hfields =>
          obtain ⟨rfl, rfl⟩ := Prod.mk.inj (Option.some.inj h)
          simp [SigType.render, SigType.renderAll, hc, ihFields _ _ _ hfields]
        case h_2 => cases h
      case isFalse =>
        split at h
        case h_1 type htype =>
          obtain ⟨rfl, rfl⟩ := Prod.mk.inj (Option.some.inj h)
          simp [SigType.render, BasicType.code_of_ofCode? htype]
        case h_2 => cases h

include ihFields in
theorem parseFields_sound {s : Bytes} {types : List SigType} {rest : Bytes}
    (h : parseFields (fuel + 1) s = some (types, rest)) :
    s = SigType.renderAll types ++ dbusStructEndChar :: rest := by
  cases s with
  | nil => cases h
  | cons c tail =>
    simp only [parseFields] at h
    split at h
    case isTrue hc =>
      obtain ⟨rfl, rfl⟩ := Prod.mk.inj (Option.some.inj h)
      simp [SigType.renderAll, hc]
    case isFalse =>
      split at h
      case h_1 type rest' htype =>
        split at h
        case h_1 types' rest'' htypes =>
          obtain ⟨rfl, rfl⟩ := Prod.mk.inj (Option.some.inj h)
          simp [SigType.renderAll, ihSingle _ _ _ htype, ihFields _ _ _ htypes]
        case h_2 => cases h
      case h_2 => cases h

end Sound

/-- What the parser reads is the text of the type it returns, followed by the rest. -/
theorem parse_sound (fuel : Nat) :
    (∀ s t rest, parseSingle fuel s = some (t, rest) → s = t.render ++ rest) ∧
    (∀ s types rest, parseFields fuel s = some (types, rest) →
      s = SigType.renderAll types ++ dbusStructEndChar :: rest) := by
  induction fuel with
  | zero => simp [parseSingle, parseFields]
  | succ fuel ih =>
    obtain ⟨ihSingle, ihFields⟩ := ih
    exact ⟨fun _ _ _ => parseSingle_sound ihSingle ihFields,
      fun _ _ _ => parseFields_sound ihSingle ihFields⟩

/-- The validator accepts exactly the texts of the types within the limits. -/
theorem validateSingle_iff (s : Bytes) :
    dbusSignatureValidateSingle s = true ↔ ∃ t : SigType, s = t.render ∧ t.WithinLimits := by
  constructor
  · intro h
    simp only [dbusSignatureValidateSingle] at h
    split at h
    · rename_i t hparse
      refine ⟨t, ?_, of_decide_eq_true h⟩
      simpa using (parse_sound _).1 _ _ _ hparse
    · cases h
  · rintro ⟨t, rfl, hlimits⟩
    have hparse := parseSingle_render t [] _ (Nat.le_refl (2 * t.render.length))
    rw [List.append_nil] at hparse
    simp [dbusSignatureValidateSingle, hparse, hlimits]

theorem parseTypes_render (types : List SigType) (fuel : Nat)
    (enough : (SigType.renderAll types).length ≤ fuel) :
    parseTypes fuel (SigType.renderAll types) = some types := by
  induction types generalizing fuel with
  | nil => simp [SigType.renderAll, parseTypes]
  | cons type types ih =>
    have hpos := type.render_length_pos
    simp only [SigType.renderAll, List.length_append] at enough
    cases fuel with
    | zero => omega
    | succ fuel =>
      have hhead := parseSingle_render type (SigType.renderAll types)
        (2 * (type.render ++ SigType.renderAll types).length)
        (by rw [List.length_append]; omega)
      have htail := ih fuel (by omega)
      obtain ⟨c, rest, hrender, -⟩ := type.render_head
      simp only [SigType.renderAll, hrender, List.cons_append] at hhead ⊢
      simp only [parseTypes, hhead, htail, Option.map_some]

theorem parseTypes_sound {fuel : Nat} {s : Bytes} {types : List SigType}
    (h : parseTypes fuel s = some types) : s = SigType.renderAll types := by
  induction fuel generalizing s types with
  | zero =>
    cases s with
    | nil =>
      obtain rfl := Option.some.inj h
      rfl
    | cons c s => cases h
  | succ fuel ih =>
    cases s with
    | nil =>
      obtain rfl := Option.some.inj h
      rfl
    | cons c s =>
      simp only [parseTypes] at h
      split at h
      case h_1 type rest hsingle =>
        obtain ⟨types', hrest, rfl⟩ := Option.map_eq_some_iff.mp h
        rw [(parse_sound _).1 _ _ _ hsingle, SigType.renderAll, ih hrest]
      case h_2 => cases h

theorem SigType.renderAll_singleton (t : SigType) : SigType.renderAll [t] = t.render := by
  rw [SigType.renderAll, SigType.renderAll, List.append_nil]

/-- The validator of sequences accepts exactly the texts of the sequences of types within the
    limits that are not too long together. -/
theorem validate_iff (s : Bytes) :
    dbusSignatureValidate s = true ↔ ∃ types, s = SigType.renderAll types ∧
      s.length ≤ dbusMaximumSignatureLength ∧ ∀ t ∈ types, t.WithinLimits := by
  constructor
  · intro h
    simp only [dbusSignatureValidate] at h
    split at h
    case h_1 types htypes =>
      simp only [Bool.and_eq_true, decide_eq_true_eq, List.all_eq_true] at h
      exact ⟨types, parseTypes_sound htypes, h⟩
    case h_2 => cases h
  · rintro ⟨types, rfl, hlength, hlimits⟩
    have hparse := parseTypes_render types _ (Nat.le_refl (SigType.renderAll types).length)
    simpa [dbusSignatureValidate, hparse, hlength] using hlimits

theorem SigType.render_injective {s t : SigType} (h : s.render = t.render) : s = t := by
  have hs := parseSingle_render s [] _ (Nat.le_refl (2 * s.render.length))
  have ht := parseSingle_render t [] _ (Nat.le_refl (2 * t.render.length))
  rw [h] at hs
  exact (Prod.mk.inj (Option.some.inj (hs.symm.trans ht))).1

/-! ## Parts of a valid signature -/

mutual
theorem SigType.nul_not_mem_render (t : SigType) : (0 : UInt8) ∉ t.render := by
  cases t with
  | basic type => cases type <;> decide
  | variant => decide
  | array element =>
    have helement := element.nul_not_mem_render
    simp only [SigType.render, List.mem_cons, not_or]
    exact ⟨by decide, helement⟩
  | struct first rest =>
    have hfirst := first.nul_not_mem_render
    have hrest := SigType.nul_not_mem_renderAll rest
    simp only [SigType.render, List.mem_cons, List.mem_append, not_or]
    exact ⟨by decide, hfirst, hrest, by decide, by simp⟩
  | dict key value =>
    have hkey : (0 : UInt8) ≠ key.code := by cases key <;> decide
    have hvalue := value.nul_not_mem_render
    simp only [SigType.render, List.mem_cons, List.mem_append, not_or]
    exact ⟨by decide, by decide, hkey, hvalue, by decide, by simp⟩

theorem SigType.nul_not_mem_renderAll (types : List SigType) :
    (0 : UInt8) ∉ SigType.renderAll types := by
  cases types with
  | nil => simp [SigType.renderAll]
  | cons type types =>
    simp only [SigType.renderAll, List.mem_append, not_or]
    exact ⟨type.nul_not_mem_render, SigType.nul_not_mem_renderAll types⟩
end

theorem nul_not_mem_of_validateSingle {s : Bytes} (h : dbusSignatureValidateSingle s = true) :
    (0 : UInt8) ∉ s := by
  obtain ⟨t, rfl, -⟩ := (validateSingle_iff s).mp h
  exact t.nul_not_mem_render

theorem cStr_of_validateSingle {s : Bytes} (h : dbusSignatureValidateSingle s = true) :
    cStr s = s :=
  cStr_eq_self (nul_not_mem_of_validateSingle h)

theorem validateSingle_basic (t : BasicType) : dbusSignatureValidateSingle [t.code] = true :=
  (validateSingle_iff _).mpr ⟨.basic t, rfl, by cases t <;> decide⟩

theorem validateSingle_variant : dbusSignatureValidateSingle [dbusTypeVariant] = true := by
  decide

def dictEntrySignature (key : BasicType) (value : Bytes) : Bytes :=
  dbusDictEntryBeginChar :: key.code :: (value ++ [dbusDictEntryEndChar])

def dictSignature (key : BasicType) (value : Bytes) : Bytes :=
  dbusTypeArray :: dictEntrySignature key value

/-- An array signature that is not that of a dict has a complete type for its element. -/
theorem validateSingle_array_element {element : Bytes}
    (h : dbusSignatureValidateSingle (dbusTypeArray :: element) = true)
    (hhead : element.head? ≠ some dbusDictEntryBeginChar) :
    ∃ t : SigType, element = t.render := by
  obtain ⟨t, hrender, -⟩ := (validateSingle_iff _).mp h
  cases t with
  | basic type => exact absurd (List.cons.inj hrender).1.symm type.code_ne_array
  | variant => exact absurd (List.cons.inj hrender).1 (by decide)
  | struct first rest => exact absurd (List.cons.inj hrender).1 (by decide)
  | array element' => exact ⟨element', (List.cons.inj hrender).2⟩
  | dict key value => exact absurd (congrArg List.head? (List.cons.inj hrender).2) hhead

theorem validateSingle_dict_value {key : BasicType} {value : Bytes}
    (h : dbusSignatureValidateSingle (dictSignature key value) = true) :
    dbusSignatureValidateSingle value = true := by
  obtain ⟨t, hrender, hlength, harray, hstruct⟩ := (validateSingle_iff _).mp h
  cases t with
  | basic type => simp [dictSignature, dictEntrySignature, SigType.render] at hrender
  | variant => simp [dictSignature, dictEntrySignature, SigType.render] at hrender
  | struct first rest =>
    have : dbusTypeArray ≠ dbusStructBeginChar := by decide
    simp [dictSignature, dictEntrySignature, SigType.render, this] at hrender
  | array element =>
    -- The only other type that starts with `a`; its element cannot start with a brace.
    obtain ⟨c, rest, hhead, -, hnotDict⟩ := element.render_head
    simp only [dictSignature, dictEntrySignature, SigType.render, hhead, List.cons.injEq] at hrender
    exact absurd hrender.2.1.symm hnotDict
  | dict key' value' =>
    simp only [dictSignature, dictEntrySignature, SigType.render, List.cons.injEq,
      true_and] at hrender
    have hvalue : value = value'.render := List.append_cancel_right hrender.2
    refine (validateSingle_iff _).mpr ⟨value', hvalue, ?_, ?_, hstruct⟩
    · simp only [SigType.render, List.length_cons, List.length_append] at hlength
      omega
    · simp only [SigType.arrayDepth] at harray
      omega

end Ultrabus
