import Ultrabus.Lib.Json
import Ultrabus.Value.Equality
import Ultrabus.Value.Typing

/-! # The JSON form of a value

`to_json` of every class, which puts the text together from fragments.  It is the text of a
JSON value, `DbusType.json`, and `DbusType.ofJson?` makes the D-Bus value of that again. -/

namespace Ultrabus

/-! ## Fragments -/

/-- The text up to the value: each class has a type and a signature of its own. -/
def jsonHead (typeName signature : Bytes) : Bytes :=
  text "\x7b\"type\":\"" ++ typeName ++ text "\",\"signature\":\"" ++ signature ++
    text "\",\"value\":"

/-- The type in the text of a basic class. -/
def BasicType.jsonName : BasicType → Bytes
  | .boolean => text "boolean"
  | .byte => text "byte"
  | .int16 => text "int16"
  | .uint16 => text "uint16"
  | .int32 => text "int32"
  | .uint32 => text "uint32"
  | .int64 => text "int64"
  | .uint64 => text "uint64"
  | .double => text "double"
  | .string => text "string"
  | .objectPath => text "object_path"
  | .signature => text "signature"
  | .unixFd => text "unix_fd"

def hex : Bytes := text "0123456789abcdef"

/-- One turn of the loop in `dbus_basic<std::string>::to_json`. -/
def jsonChar (ch : UInt8) : Bytes :=
  if ch < 0x20 ∨ ch = '"'.toUInt8 ∨ ch = '\\'.toUInt8 then
    if ch = 0x08 then text "\\b"
    else if ch = 0x09 then text "\\t"
    else if ch = 0x0a then text "\\n"
    else if ch = 0x0c then text "\\f"
    else if ch = 0x0d then text "\\r"
    else if ch = 0x22 then text "\\\""
    else if ch = 0x5c then text "\\\\"
    else (if ch < 0x10 then text "\\u000" else text "\\u001") ++ [hex.getD (ch &&& 0x0f).toNat 0]
  else [ch]

/-- `std::to_string (double)`: six digits after the point, and the nearest of these numbers. -/
def doubleText (bits : UInt64) : Bytes :=
  let field := bits.toNat / 2 ^ 52 % 2 ^ 11
  let fraction := bits.toNat % 2 ^ 52
  let sign := if bits.toNat < 2 ^ 63 then [] else text "-"
  if field = 2 ^ 11 - 1 then sign ++ if fraction = 0 then text "inf" else text "nan"
  else
    -- Subnormal numbers have the exponent of the smallest normal ones and no leading bit.
    let exponent := max field 1
    let significand := fraction + if field = 0 then 0 else 2 ^ 52
    let millionths :=
      if 1075 ≤ exponent then significand * 2 ^ (exponent - 1075) * 10 ^ 6
      else
        let unit := 2 ^ (1075 - exponent)
        let down := significand * 10 ^ 6 / unit
        let rest := significand * 10 ^ 6 % unit
        if 2 * rest > unit ∨ (2 * rest = unit ∧ down % 2 = 1) then down + 1 else down
    let digits := Json.natText (millionths % 10 ^ 6)
    sign ++ Json.natText (millionths / 10 ^ 6) ++ text "." ++
      List.replicate (6 - digits.length) '0'.toUInt8 ++ digits

/-- `std::to_string`, or a text between quotes. -/
def Basic.jsonValue : Basic → Bytes
  | .boolean v => if v then text "true" else text "false"
  | .byte v => Json.intText v.toNat
  | .int16 v => Json.intText v.toInt
  | .uint16 v => Json.intText v.toNat
  | .int32 v => Json.intText v.toInt
  | .uint32 v => Json.intText v.toNat
  | .int64 v => Json.intText v.toInt
  | .uint64 v => Json.intText v.toNat
  | .double bits => doubleText bits
  | .string s | .objectPath s | .signature s => text "\"" ++ s.flatMap jsonChar ++ text "\""
  | .unixFd v => Json.intText v.toInt

/-- `to_json` of the basic classes. -/
def Basic.toJson (v : Basic) : Bytes :=
  jsonHead v.type.jsonName [v.type.code] ++ v.jsonValue ++ text "\x7d"

mutual
/-- `to_json`. -/
def DbusType.toJson : DbusType → Bytes
  | .basic value => value.toJson
  | .array sig items =>
    jsonHead (text "array") sig ++ text "[" ++ jsonItems true items ++ text "]\x7d"
  | .struct sig items =>
    jsonHead (text "struct") sig ++ text "[" ++ jsonItems true items ++ text "]\x7d"
  | .dict _ sig items =>
    jsonHead (text "dict") sig ++ text "[" ++ jsonEntries true items ++ text "]\x7d"
  | .variant value => jsonHead (text "variant") (text "v") ++ value.toJson ++ text "\x7d"

/-- The loop over the items; `first` holds in its first turn. -/
def jsonItems (first : Bool) : List DbusType → Bytes
  | [] => []
  | item :: items => (if first then [] else text ",") ++ item.toJson ++ jsonItems false items

/-- The loop over the entries of a dict. -/
def jsonEntries (first : Bool) : List (Basic × DbusType) → Bytes
  | [] => []
  | (key, value) :: items =>
    (if first then [] else text ",") ++ text "\x7b\"key\":" ++ key.toJson ++ text ",\"value\":" ++
      value.toJson ++ text "\x7d" ++ jsonEntries false items
end

/-! ## The JSON value -/

/-- The object of a class. -/
def jsonObject (typeName signature : Bytes) (value : Json) : Json :=
  .object [(text "type", .string typeName), (text "signature", .string signature),
    (text "value", value)]

def Basic.jsonContent : Basic → Json
  | .boolean v => .boolean v
  | .string s | .objectPath s | .signature s => .string s
  | v => .number v.jsonValue

def Basic.json (v : Basic) : Json := jsonObject v.type.jsonName [v.type.code] v.jsonContent

mutual
/-- What the text of a value stands for. -/
def DbusType.json : DbusType → Json
  | .basic value => value.json
  | .array sig items => jsonObject (text "array") sig (.array (itemsJson items))
  | .struct sig items => jsonObject (text "struct") sig (.array (itemsJson items))
  | .dict _ sig items => jsonObject (text "dict") sig (.array (entriesJson items))
  | .variant value => jsonObject (text "variant") (text "v") value.json

def itemsJson : List DbusType → List Json
  | [] => []
  | item :: items => item.json :: itemsJson items

def entriesJson : List (Basic × DbusType) → List Json
  | [] => []
  | (key, value) :: items =>
    .object [(text "key", key.json), (text "value", value.json)] :: entriesJson items
end

/-! ## The decoder -/

/-- The basic value of a type with the given content. -/
def Basic.ofJson? (type : BasicType) (value : Json) : Option Basic :=
  match type, value with
  | .boolean, .boolean v => some (.boolean v)
  | .byte, .number t => some (.byte (.ofInt (Json.ofIntText t)))
  | .int16, .number t => some (.int16 (.ofInt (Json.ofIntText t)))
  | .uint16, .number t => some (.uint16 (.ofInt (Json.ofIntText t)))
  | .int32, .number t => some (.int32 (.ofInt (Json.ofIntText t)))
  | .uint32, .number t => some (.uint32 (.ofInt (Json.ofIntText t)))
  | .int64, .number t => some (.int64 (.ofInt (Json.ofIntText t)))
  | .uint64, .number t => some (.uint64 (.ofInt (Json.ofIntText t)))
  | .unixFd, .number t => some (.unixFd (.ofInt (Json.ofIntText t)))
  | .string, .string s => some (.string s)
  | .objectPath, .string s => some (.objectPath s)
  | .signature, .string s => some (.signature s)
  | _, _ => none

mutual
/-- The value of an object that `DbusType.json` makes. -/
def DbusType.ofJson? : Json → Option DbusType
  | .object [(_, .string typeName), (_, .string sig), (_, .array items)] =>
    if typeName = text "array" then (ofItemsJson? items).map (.array sig)
    else if typeName = text "struct" then (ofItemsJson? items).map (.struct sig)
    else do
      let key ← BasicType.ofCode? (sig.getD 2 0)
      let entries ← ofEntriesJson? items
      return .dict key sig entries
  | .object [(_, .string typeName), (_, .string sig), (_, value)] =>
    if typeName = text "variant" then (DbusType.ofJson? value).map .variant
    else do
      let type ← BasicType.ofCode? (sig.headD 0)
      let value ← Basic.ofJson? type value
      return .basic value
  | _ => none

def ofItemsJson? : List Json → Option (List DbusType)
  | [] => some []
  | item :: items => do
    let item ← DbusType.ofJson? item
    let items ← ofItemsJson? items
    return item :: items

def ofEntriesJson? : List Json → Option (List (Basic × DbusType))
  | [] => some []
  | .object [(_, key), (_, value)] :: items => do
    let key ← DbusType.ofJson? key
    let value ← DbusType.ofJson? value
    let items ← ofEntriesJson? items
    match key with
    | .basic key => return (key, value) :: items
    | _ => none
  | _ => none
end

/-- Decode the text that `to_json` has made. -/
def DbusType.decode (json : Bytes) : Option DbusType := (Json.read json).bind DbusType.ofJson?

/-! ## The text is that of the JSON value -/

theorem jsonChar_eq (ch : UInt8) : jsonChar ch = Json.renderByte ch := by
  have hall : ∀ n < 256, jsonChar (.ofNat n) = Json.renderByte (.ofNat n) := by
    decide +kernel
  rw [← UInt8.ofNat_toNat (x := ch)]
  exact hall ch.toNat ch.toNat_lt

/-- An ASCII text in which nothing is escaped. -/
def Plain (s : Bytes) : Prop := ∀ b ∈ s, b < 0x80 ∧ Json.renderByte b = [b]

instance (s : Bytes) : Decidable (Plain s) := List.decidableBAll _ s

theorem Plain.append {s t : Bytes} (hs : Plain s) (ht : Plain t) : Plain (s ++ t) :=
  List.forall_mem_append.mpr ⟨hs, ht⟩

theorem Plain.cons {b : UInt8} {s : Bytes} (hb : Plain [b]) (hs : Plain s) : Plain (b :: s) :=
  Plain.append hb hs

theorem Plain.flatMap {s : Bytes} (h : Plain s) : s.flatMap Json.renderByte = s := by
  induction s with
  | nil => rfl
  | cons b s ih =>
    obtain ⟨hb, hs⟩ := List.forall_mem_cons.mp h
    rw [List.flatMap_cons, hb.2, ih hs, List.singleton_append]

theorem Plain.utf8 {s : Bytes} (h : Plain s) : Json.Utf8 s := by
  induction s with
  | nil => exact .nil
  | cons b s ih =>
    obtain ⟨hb, hs⟩ := List.forall_mem_cons.mp h
    exact .cons (.ascii hb.1) (ih hs)

theorem BasicType.plain_code (t : BasicType) : Plain [t.code] := by
  cases t <;> decide

theorem BasicType.plain_jsonName (t : BasicType) : Plain t.jsonName := by
  cases t <;> decide

mutual
theorem SigType.plain_render (t : SigType) : Plain t.render := by
  cases t with
  | basic type => exact type.plain_code
  | variant => decide
  | array element => exact Plain.cons (by decide) element.plain_render
  | struct first rest =>
    exact Plain.cons (by decide)
      (first.plain_render.append ((SigType.plain_renderAll rest).append (by decide)))
  | dict key value =>
    exact Plain.cons (by decide) (Plain.cons (by decide)
      (key.plain_code.append (value.plain_render.append (by decide))))

theorem SigType.plain_renderAll (types : List SigType) : Plain (SigType.renderAll types) := by
  cases types with
  | nil => decide
  | cons type types => exact type.plain_render.append (SigType.plain_renderAll types)
end

/-- The names in the object of a class, and in that of an entry of a dict. -/
theorem plain_objectNames :
    Plain (text "type") ∧ Plain (text "signature") ∧ Plain (text "value") := by
  decide

theorem plain_entryNames : Plain (text "key") ∧ Plain (text "value") := by
  decide

/-- The object of a class is written as the code writes it. -/
theorem render_jsonObject {typeName signature : Bytes} (htype : Plain typeName)
    (hsig : Plain signature) (value : Json) :
    (jsonObject typeName signature value).render =
      jsonHead typeName signature ++ value.render ++ text "\x7d" := by
  have hnames := plain_objectNames
  simp only [jsonObject, Json.render, Json.renderMembers, Json.renderMoreMembers,
    Json.renderString, htype.flatMap, hsig.flatMap, hnames.1.flatMap, hnames.2.1.flatMap,
    hnames.2.2.flatMap, jsonHead, List.append_assoc, List.cons_append, List.append_nil]
  rfl

theorem Basic.toJson_eq {v : Basic} (h : v.NotDouble) : v.toJson = v.json.render := by
  rw [Basic.json, render_jsonObject v.type.plain_jsonName v.type.plain_code, Basic.toJson]
  have hchars : jsonChar = Json.renderByte := funext jsonChar_eq
  cases v with
  | boolean value => cases value <;> rfl
  | string s | objectPath s | signature s =>
    simp only [jsonContent, jsonValue, Json.render, Json.renderString, hchars]
    rfl
  | double bits => exact absurd rfl h
  | _ => rfl

/-! ## Values that have a text -/

/-- The text of a string value is UTF-8. -/
def Basic.IsUtf8 : Basic → Prop
  | .string s | .objectPath s | .signature s => Json.Utf8 s
  | _ => True

/-- All strings in a value are UTF-8. -/
def DbusType.IsUtf8 (v : DbusType) : Prop := ∀ x ∈ v.leaves, x.IsUtf8

/-- What the JSON form needs of a value. -/
inductive DbusType.Encodable : DbusType → Prop where
  | basic {value : Basic} : value.NotDouble → value.IsUtf8 → Encodable (.basic value)
  | array {sig : Bytes} {items : List DbusType} : Plain sig → (∀ item ∈ items, Encodable item) →
      Encodable (.array sig items)
  | struct {sig : Bytes} {items : List DbusType} : Plain sig → (∀ item ∈ items, Encodable item) →
      Encodable (.struct sig items)
  | dict {key : BasicType} {value : Bytes} {items : List (Basic × DbusType)} : Plain value →
      (∀ item ∈ items, item.1.NotDouble ∧ item.1.IsUtf8) → (∀ item ∈ items, Encodable item.2) →
      Encodable (.dict key (dictSignature key value) items)
  | variant {value : DbusType} : Encodable value → Encodable (.variant value)

theorem plain_dictSignature (key : BasicType) {value : Bytes} (h : Plain value) :
    Plain (dictSignature key value) :=
  Plain.cons (by decide) (Plain.cons (by decide) (key.plain_code.append (h.append (by decide))))

theorem HasTypes.exists_hasType {types : List SigType} {items : List DbusType}
    (h : HasTypes types items) : ∀ item ∈ items, ∃ t, item.HasType t := by
  induction items generalizing types with
  | nil => exact fun _ hitem => absurd hitem List.not_mem_nil
  | cons item items ih =>
    cases h with
    | cons hitem hitems => exact List.forall_mem_cons.mpr ⟨⟨_, hitem⟩, ih hitems⟩

theorem DbusType.HasType.struct_items {sig : Bytes} {items : List DbusType} {t : SigType}
    (h : (DbusType.struct sig items).HasType t) :
    Plain sig ∧ ∀ item ∈ items, ∃ t, item.HasType t := by
  cases h with
  | struct hitem hitems =>
    exact ⟨SigType.plain_render _, (HasTypes.cons hitem hitems).exists_hasType⟩

mutual
theorem DbusType.HasType.encodable {v : DbusType} {t : SigType} (h : v.HasType t)
    (hdouble : v.DoubleFree) (hutf8 : v.IsUtf8) : v.Encodable := by
  cases v with
  | basic value => exact .basic (hdouble value List.mem_cons_self) (hutf8 value List.mem_cons_self)
  | array sig items =>
    cases h with
    | @array element _ hitems =>
      exact .array (SigType.plain_render _)
        (encodable_items items (fun item hitem => ⟨element, hitems item hitem⟩) hdouble hutf8)
  | struct sig items =>
    obtain ⟨hsig, hitems⟩ := h.struct_items
    exact .struct hsig (encodable_items items hitems hdouble hutf8)
  | dict key sig items =>
    cases h with
    | @dict _ value _ _ _ hvalues =>
      have hitems := encodable_entries items (fun item hitem => ⟨value, hvalues item hitem⟩)
        hdouble hutf8
      exact .dict value.plain_render (fun item hitem => (hitems item hitem).1)
        fun item hitem => (hitems item hitem).2
  | variant value =>
    cases h with
    | variant _ hvalue => exact .variant (hvalue.encodable hdouble hutf8)

theorem encodable_items (items : List DbusType) (h : ∀ item ∈ items, ∃ t, item.HasType t)
    (hdouble : ∀ x ∈ itemLeaves items, x.NotDouble) (hutf8 : ∀ x ∈ itemLeaves items, x.IsUtf8) :
    ∀ item ∈ items, item.Encodable := by
  cases items with
  | nil => exact fun _ hitem => absurd hitem List.not_mem_nil
  | cons item items =>
    obtain ⟨⟨t, ht⟩, hitems⟩ := List.forall_mem_cons.mp h
    obtain ⟨hdouble₁, hdouble₂⟩ := List.forall_mem_append.mp hdouble
    obtain ⟨hutf8₁, hutf8₂⟩ := List.forall_mem_append.mp hutf8
    exact List.forall_mem_cons.mpr
      ⟨ht.encodable hdouble₁ hutf8₁, encodable_items items hitems hdouble₂ hutf8₂⟩

theorem encodable_entries (items : List (Basic × DbusType))
    (h : ∀ item ∈ items, ∃ t, item.2.HasType t) (hdouble : ∀ x ∈ entryLeaves items, x.NotDouble)
    (hutf8 : ∀ x ∈ entryLeaves items, x.IsUtf8) :
    ∀ item ∈ items, (item.1.NotDouble ∧ item.1.IsUtf8) ∧ item.2.Encodable := by
  cases items with
  | nil => exact fun _ hitem => absurd hitem List.not_mem_nil
  | cons item items =>
    obtain ⟨key, value⟩ := item
    obtain ⟨⟨t, ht⟩, hitems⟩ := List.forall_mem_cons.mp h
    obtain ⟨hkey, hdouble⟩ := List.forall_mem_cons.mp hdouble
    obtain ⟨hkey', hutf8⟩ := List.forall_mem_cons.mp hutf8
    obtain ⟨hdouble₁, hdouble₂⟩ := List.forall_mem_append.mp hdouble
    obtain ⟨hutf8₁, hutf8₂⟩ := List.forall_mem_append.mp hutf8
    have hvalue : value.HasType t := ht
    exact List.forall_mem_cons.mpr
      ⟨⟨⟨hkey, hkey'⟩, hvalue.encodable hdouble₁ hutf8₁⟩,
        encodable_entries items hitems hdouble₂ hutf8₂⟩
end

/-! ## Writing and decoding -/

theorem jsonItems_eq {items : List DbusType}
    (h : ∀ item ∈ items, item.toJson = item.json.render) :
    jsonItems true items = Json.renderItems (itemsJson items) ∧
      jsonItems false items = Json.renderMoreItems (itemsJson items) := by
  induction items with
  | nil => exact ⟨rfl, rfl⟩
  | cons item items ih =>
    obtain ⟨hitem, hitems⟩ := List.forall_mem_cons.mp h
    obtain ⟨-, hmore⟩ := ih hitems
    constructor
    · simp only [jsonItems, itemsJson, Json.renderItems, hitem, hmore]
      rfl
    · simp only [jsonItems, itemsJson, Json.renderMoreItems, hitem, hmore]
      rfl

/-- An entry of a dict is written as the code writes it. -/
theorem render_entry (key value : Json) :
    (Json.object [(text "key", key), (text "value", value)]).render =
      text "\x7b\"key\":" ++ key.render ++ text ",\"value\":" ++ value.render ++ text "\x7d" := by
  have hnames := plain_entryNames
  simp only [Json.render, Json.renderMembers, Json.renderMoreMembers, Json.renderString,
    hnames.1.flatMap, hnames.2.flatMap, List.append_assoc, List.cons_append, List.append_nil]
  rfl

theorem jsonEntries_eq {items : List (Basic × DbusType)} (hkeys : ∀ item ∈ items, item.1.NotDouble)
    (h : ∀ item ∈ items, item.2.toJson = item.2.json.render) :
    jsonEntries true items = Json.renderItems (entriesJson items) ∧
      jsonEntries false items = Json.renderMoreItems (entriesJson items) := by
  induction items with
  | nil => exact ⟨rfl, rfl⟩
  | cons item items ih =>
    obtain ⟨key, value⟩ := item
    obtain ⟨hkey, hkeys⟩ := List.forall_mem_cons.mp hkeys
    obtain ⟨hvalue, hvalues⟩ := List.forall_mem_cons.mp h
    obtain ⟨-, hmore⟩ := ih hkeys hvalues
    have hkey := Basic.toJson_eq hkey
    dsimp only at hkey hvalue
    constructor
    · simp only [jsonEntries, entriesJson, Json.renderItems, render_entry, hkey, hvalue, hmore]
      rfl
    · simp only [jsonEntries, entriesJson, Json.renderMoreItems, render_entry, hkey, hvalue, hmore]
      rfl

/-- `to_json` writes the JSON value. -/
theorem DbusType.Encodable.toJson_eq {v : DbusType} (h : v.Encodable) :
    v.toJson = v.json.render := by
  induction h with
  | basic hdouble _ => exact Basic.toJson_eq hdouble
  | array hsig _ ih =>
    rw [toJson, json, render_jsonObject (by decide) hsig, Json.render, (jsonItems_eq ih).1]
    simp only [List.append_assoc, List.cons_append, List.nil_append]
    rfl
  | struct hsig _ ih =>
    rw [toJson, json, render_jsonObject (by decide) hsig, Json.render, (jsonItems_eq ih).1]
    simp only [List.append_assoc, List.cons_append, List.nil_append]
    rfl
  | dict hsig hkeys _ ih =>
    rw [toJson, json, render_jsonObject (by decide) (plain_dictSignature _ hsig), Json.render,
      (jsonEntries_eq (fun item hitem => (hkeys item hitem).1) ih).1]
    simp only [List.append_assoc, List.cons_append, List.nil_append]
    rfl
  | variant _ ih =>
    rw [toJson, json, render_jsonObject (by decide) (by decide), ih]

theorem wellFormed_jsonObject {typeName signature : Bytes} (htype : Plain typeName)
    (hsig : Plain signature) {value : Json} (h : value.WellFormed) :
    (jsonObject typeName signature value).WellFormed := by
  have hnames := plain_objectNames
  refine .object ?_ ?_
  · simp only [List.forall_mem_cons]
    exact ⟨hnames.1.utf8, hnames.2.1.utf8, hnames.2.2.utf8, by simp⟩
  · simp only [List.forall_mem_cons]
    exact ⟨.string htype.utf8, .string hsig.utf8, h, by simp⟩

theorem Basic.wellFormed_json {v : Basic} (hdouble : v.NotDouble) (hutf8 : v.IsUtf8) :
    v.json.WellFormed := by
  refine wellFormed_jsonObject v.type.plain_jsonName v.type.plain_code ?_
  cases v with
  | boolean value => exact .boolean
  | string s | objectPath s | signature s => exact .string hutf8
  | double bits => exact absurd rfl hdouble
  | byte n | uint16 n | uint32 n | uint64 n => exact .number (Json.intText_isNumber n.toNat)
  | _ => exact .number (Json.intText_isNumber _)

theorem wellFormed_itemsJson {items : List DbusType} (h : ∀ item ∈ items, item.json.WellFormed) :
    ∀ j ∈ itemsJson items, j.WellFormed := by
  induction items with
  | nil => exact fun _ hj => absurd hj List.not_mem_nil
  | cons item items ih =>
    obtain ⟨hitem, hitems⟩ := List.forall_mem_cons.mp h
    exact List.forall_mem_cons.mpr ⟨hitem, ih hitems⟩

theorem wellFormed_entriesJson {items : List (Basic × DbusType)}
    (hkeys : ∀ item ∈ items, item.1.json.WellFormed)
    (h : ∀ item ∈ items, item.2.json.WellFormed) : ∀ j ∈ entriesJson items, j.WellFormed := by
  have hnames := plain_entryNames
  induction items with
  | nil => exact fun _ hj => absurd hj List.not_mem_nil
  | cons item items ih =>
    obtain ⟨hkey, hkeys⟩ := List.forall_mem_cons.mp hkeys
    obtain ⟨hvalue, hvalues⟩ := List.forall_mem_cons.mp h
    refine List.forall_mem_cons.mpr ⟨.object ?_ ?_, ih hkeys hvalues⟩
    · simp only [List.forall_mem_cons]
      exact ⟨hnames.1.utf8, hnames.2.utf8, by simp⟩
    · simp only [List.forall_mem_cons]
      exact ⟨hkey, hvalue, by simp⟩

theorem DbusType.Encodable.wellFormed {v : DbusType} (h : v.Encodable) : v.json.WellFormed := by
  induction h with
  | basic hdouble hutf8 => exact Basic.wellFormed_json hdouble hutf8
  | array hsig _ ih =>
    exact wellFormed_jsonObject (by decide) hsig (.array (wellFormed_itemsJson ih))
  | struct hsig _ ih =>
    exact wellFormed_jsonObject (by decide) hsig (.array (wellFormed_itemsJson ih))
  | dict hsig hkeys _ ih =>
    refine wellFormed_jsonObject (by decide) (plain_dictSignature _ hsig)
      (.array (wellFormed_entriesJson (fun item hitem => ?_) ih))
    exact Basic.wellFormed_json (hkeys item hitem).1 (hkeys item hitem).2
  | variant _ ih => exact wellFormed_jsonObject (by decide) (by decide) ih

theorem Basic.ofJson?_jsonContent {v : Basic} (h : v.NotDouble) :
    Basic.ofJson? v.type v.jsonContent = some v := by
  cases v with
  | byte n =>
    have hlt := n.toNat_lt
    simp only [type, jsonContent, jsonValue, Basic.ofJson?, Json.ofIntText_intText, UInt8.ofInt]
    rw [Int.emod_eq_of_lt (by omega) (by omega), Int.toNat_natCast, UInt8.ofNat_toNat]
  | uint16 n =>
    have hlt := n.toNat_lt
    simp only [type, jsonContent, jsonValue, Basic.ofJson?, Json.ofIntText_intText, UInt16.ofInt]
    rw [Int.emod_eq_of_lt (by omega) (by omega), Int.toNat_natCast, UInt16.ofNat_toNat]
  | uint32 n =>
    have hlt := n.toNat_lt
    simp only [type, jsonContent, jsonValue, Basic.ofJson?, Json.ofIntText_intText, UInt32.ofInt]
    rw [Int.emod_eq_of_lt (by omega) (by omega), Int.toNat_natCast, UInt32.ofNat_toNat]
  | uint64 n =>
    have hlt := n.toNat_lt
    simp only [type, jsonContent, jsonValue, Basic.ofJson?, Json.ofIntText_intText, UInt64.ofInt]
    rw [Int.emod_eq_of_lt (by omega) (by omega), Int.toNat_natCast, UInt64.ofNat_toNat]
  | int16 n | int32 n | int64 n | unixFd n =>
    simp only [type, jsonContent, jsonValue, Basic.ofJson?, Json.ofIntText_intText,
      Int16.ofInt_toInt, Int32.ofInt_toInt, Int64.ofInt_toInt]
  | double bits => exact absurd rfl h
  | _ => rfl

theorem DbusType.ofJson?_of_not_array {typeName sig : Bytes} {value : Json}
    (h : ∀ items, value ≠ .array items) :
    DbusType.ofJson? (jsonObject typeName sig value) =
      if typeName = text "variant" then (DbusType.ofJson? value).map .variant
      else do
        let type ← BasicType.ofCode? (sig.headD 0)
        let value ← Basic.ofJson? type value
        return .basic value := by
  cases value with
  | array items => exact absurd rfl (h items)
  | _ => simp only [jsonObject, DbusType.ofJson?]

theorem DbusType.ofJson?_basic {v : Basic} (h : v.NotDouble) :
    DbusType.ofJson? v.json = some (.basic v) := by
  have hname : ∀ t : BasicType, t.jsonName ≠ text "variant" := by
    intro t
    cases t <;> decide
  have hcontent : ∀ items, v.jsonContent ≠ .array items := by
    intro items
    cases v <;> simp [Basic.jsonContent]
  rw [Basic.json, DbusType.ofJson?_of_not_array hcontent, if_neg (hname v.type), List.headD_cons,
    BasicType.ofCode?_code]
  simp [Basic.ofJson?_jsonContent h]

theorem ofItemsJson?_itemsJson {items : List DbusType}
    (h : ∀ item ∈ items, DbusType.ofJson? item.json = some item) :
    ofItemsJson? (itemsJson items) = some items := by
  induction items with
  | nil => rfl
  | cons item items ih =>
    obtain ⟨hitem, hitems⟩ := List.forall_mem_cons.mp h
    simp [itemsJson, ofItemsJson?, hitem, ih hitems]

theorem ofEntriesJson?_entriesJson {items : List (Basic × DbusType)}
    (hkeys : ∀ item ∈ items, item.1.NotDouble)
    (h : ∀ item ∈ items, DbusType.ofJson? item.2.json = some item.2) :
    ofEntriesJson? (entriesJson items) = some items := by
  induction items with
  | nil => rfl
  | cons item items ih =>
    obtain ⟨key, value⟩ := item
    obtain ⟨hkey, hkeys⟩ := List.forall_mem_cons.mp hkeys
    obtain ⟨hvalue, hvalues⟩ := List.forall_mem_cons.mp h
    dsimp only at hkey hvalue
    simp [entriesJson, ofEntriesJson?, DbusType.ofJson?_basic hkey, hvalue, ih hkeys hvalues]

/-- The decoder gets the value back. -/
theorem DbusType.Encodable.ofJson?_json {v : DbusType} (h : v.Encodable) :
    DbusType.ofJson? v.json = some v := by
  have hnames : text "struct" ≠ text "array" ∧ text "dict" ≠ text "array" ∧
      text "dict" ≠ text "struct" := by decide
  induction h with
  | basic hdouble _ => exact DbusType.ofJson?_basic hdouble
  | array _ _ ih =>
    simp only [json, jsonObject, DbusType.ofJson?, if_true, ofItemsJson?_itemsJson ih,
      Option.map_some]
  | struct _ _ ih =>
    simp only [json, jsonObject, DbusType.ofJson?, if_neg hnames.1, if_true,
      ofItemsJson?_itemsJson ih, Option.map_some]
  | @dict key value items _ hkeys _ ih =>
    have hkey : BasicType.ofCode? ((dictSignature key value).getD 2 0) = some key :=
      BasicType.ofCode?_code key
    have hentries := ofEntriesJson?_entriesJson (fun item hitem => (hkeys item hitem).1) ih
    simp only [json, jsonObject, DbusType.ofJson?, if_neg hnames.2.1, if_neg hnames.2.2, hkey,
      hentries]
    rfl
  | @variant value _ ih =>
    have hcontent : ∀ items, value.json ≠ .array items := by
      intro items
      cases value <;> simp [json, Basic.json, jsonObject]
    rw [json, DbusType.ofJson?_of_not_array hcontent, if_pos rfl, ih, Option.map_some]

theorem DbusType.Encodable.decode_toJson {v : DbusType} (h : v.Encodable) :
    DbusType.decode v.toJson = some v := by
  rw [decode, h.toJson_eq, Json.read_render h.wellFormed]
  exact h.ofJson?_json

/-- The JSON form of a value of any type without doubles, whose strings are UTF-8, is a JSON
    text, from which the decoder gets the value back. -/
theorem DbusType.toJson_lossless (v : DbusType) (t : SigType) (htype : v.HasType t)
    (hdouble : v.DoubleFree) (hutf8 : v.IsUtf8) :
    (∃ json, Json.IsText v.toJson json) ∧ DbusType.decode v.toJson = some v := by
  have hencodable := htype.encodable hdouble hutf8
  refine ⟨⟨v.json, ?_⟩, hencodable.decode_toJson⟩
  rw [hencodable.toJson_eq]
  exact Json.isText_render hencodable.wellFormed

/-- A struct of a text with a quote and a line feed, and of an empty array. -/
def quotedStruct : DbusType :=
  .struct (text "(sas)") [.basic (.string (text "\"\n")), .array (text "as") []]

theorem quotedStruct_toJson_lossless :
    (∃ json, Json.IsText quotedStruct.toJson json) ∧
      DbusType.decode quotedStruct.toJson = some quotedStruct := by
  refine quotedStruct.toJson_lossless (.struct (.basic .string) [.array (.basic .string)]) ?_ ?_ ?_
  · exact .struct (.basic rfl) (.cons (.array (by simp)) .nil)
  · simp [DbusType.DoubleFree, quotedStruct, DbusType.leaves, itemLeaves, Basic.NotDouble,
      Basic.type]
  · simp only [DbusType.IsUtf8, quotedStruct, DbusType.leaves, itemLeaves, List.append_nil,
      List.mem_singleton, forall_eq]
    exact .cons (.ascii (by decide)) (.cons (.ascii (by decide)) .nil)

/-! ## Coherent values -/

theorem utf8_of_ascii {s : Bytes} (h : ∀ b ∈ s, b < 0x80) : Json.Utf8 s := by
  induction s with
  | nil => exact .nil
  | cons b s ih =>
    obtain ⟨hb, hs⟩ := List.forall_mem_cons.mp h
    exact .cons (.ascii hb) (ih hs)

theorem between_of_inRange {low high b : UInt8} (h : inRange low high b = true) :
    Json.Between low high b := by
  simpa [inRange, Json.Between] using h

/-- The check of libdbus is that of UTF-8. -/
theorem utf8_of_validUtf8 {s : Bytes} (h : validUtf8 s = true) : Json.Utf8 s := by
  fun_induction validUtf8 s with
  | case1 => exact .nil
  | case3 b rest _ hb ih => exact .cons (.ascii hb) (ih h)
  | case4 b _ _ c rest hb ih =>
    obtain ⟨hc, hrest⟩ := Bool.and_eq_true_iff.mp h
    exact .cons (.two (between_of_inRange hb) (between_of_inRange hc)) (ih hrest)
  | case5 b _ _ c _ d rest hb ih =>
    simp only [Bool.and_eq_true] at h
    obtain ⟨⟨hc, hd⟩, hrest⟩ := h
    exact .cons (.three (between_of_inRange hb) (between_of_inRange hc) (between_of_inRange hd))
      (ih hrest)
  | case6 b _ _ c _ d _ e rest ih =>
    simp only [Bool.and_eq_true] at h
    obtain ⟨⟨⟨⟨hb, hc⟩, hd⟩, he⟩, hrest⟩ := h
    exact .cons (.four (between_of_inRange hb) (between_of_inRange hc) (between_of_inRange hd)
      (between_of_inRange he)) (ih hrest)
  | _ => cases h

theorem isPathChar_ascii {b : UInt8} (h : isPathChar b = true) : b < 0x80 := by
  have hletters : 'Z'.toUInt8 < 0x80 ∧ 'z'.toUInt8 < 0x80 ∧ '9'.toUInt8 < 0x80 := by decide
  simp only [isPathChar, Bool.or_eq_true, decide_eq_true_eq] at h
  obtain ((h | h) | h) | rfl := h
  · exact UInt8.lt_of_le_of_lt (between_of_inRange h).2 hletters.1
  · exact UInt8.lt_of_le_of_lt (between_of_inRange h).2 hletters.2.1
  · exact UInt8.lt_of_le_of_lt (between_of_inRange h).2 hletters.2.2
  · decide

theorem ascii_of_validPathElements {s : Bytes} {start : Bool}
    (h : validPathElements start s = true) : ∀ b ∈ s, b < 0x80 := by
  induction s generalizing start with
  | nil => exact fun _ hb => absurd hb List.not_mem_nil
  | cons b s ih =>
    rw [validPathElements] at h
    split at h
    case isTrue hslash =>
      obtain ⟨-, hs⟩ := Bool.and_eq_true_iff.mp h
      exact List.forall_mem_cons.mpr ⟨hslash ▸ (by decide), ih hs⟩
    case isFalse =>
      obtain ⟨hb, hs⟩ := Bool.and_eq_true_iff.mp h
      exact List.forall_mem_cons.mpr ⟨isPathChar_ascii hb, ih hs⟩

theorem ascii_of_validatePath {s : Bytes} (h : dbusValidatePath s = true) : ∀ b ∈ s, b < 0x80 := by
  cases s with
  | nil => cases h
  | cons b s =>
    simp only [dbusValidatePath, Bool.and_eq_true, Bool.or_eq_true, decide_eq_true_eq] at h
    obtain ⟨rfl, hempty | hs⟩ := h
    · obtain rfl := List.isEmpty_iff.mp hempty
      exact List.forall_mem_singleton.mpr (by decide)
    · exact List.forall_mem_cons.mpr ⟨by decide, ascii_of_validPathElements hs⟩

theorem plain_of_validate {s : Bytes} (h : dbusSignatureValidate s = true) : Plain s := by
  obtain ⟨types, rfl, -⟩ := (validate_iff s).mp h
  exact SigType.plain_renderAll types

/-- What libdbus accepts is UTF-8. -/
theorem Basic.isUtf8_of_valid {v : Basic} (h : v.Valid) : v.IsUtf8 := by
  cases v with
  | string s => exact utf8_of_validUtf8 h
  | objectPath s => exact utf8_of_ascii (ascii_of_validatePath h)
  | signature s => exact (plain_of_validate h).utf8
  | _ => trivial

/-- The strings of a coherent value are UTF-8. -/
theorem DbusType.Coherent.isUtf8 {v : DbusType} (h : v.Coherent) : v.IsUtf8 := by
  have hvalid : ∀ x ∈ v.leaves, x.Valid := by
    induction h with
    | basic hvalue _ _ => exact List.forall_mem_singleton.mpr hvalue
    | array _ _ _ _ ih => exact forall_mem_itemLeaves.mpr ih
    | struct _ _ _ ih => exact forall_mem_itemLeaves.mpr ih
    | dict _ _ _ hkeys _ _ _ ih =>
      exact forall_mem_entryLeaves.mpr fun i hi => ⟨(hkeys i hi).2.1, ih i hi⟩
    | variant _ _ ih => exact ih
  exact fun x hx => Basic.isUtf8_of_valid (hvalid x hx)

end Ultrabus
