import Ultrabus.Message.GetArgs
import Ultrabus.Value.Json

/-! # The JSON form of a message

`message::to_json` on messages with all fields of their headers.  The texts of the header
are names and paths, which libdbus checks wherever it takes one. -/

namespace Ultrabus

open Exec (Settles)
open List (Forall₂)

/-! ## Messages with a header -/

def dbusMessageTypeMethodCall : Nat := 1
def dbusMessageTypeMethodReturn : Nat := 2
def dbusMessageTypeError : Nat := 3
def dbusMessageTypeSignal : Nat := 4

/-- The header of a `DBusMessage`; a field that is not set is a null pointer. -/
structure Header where
  destination : Option Bytes
  path : Option Bytes
  interface : Option Bytes
  member : Option Bytes
  errorName : Option Bytes
  sender : Option Bytes
  serial : UInt32
  replySerial : UInt32

/-- `ultrabus::message` with the header of what it holds. -/
structure FullMessage where
  ctx : Option (DBusMessage × Header)

namespace FullMessage

/-- The type and the body. -/
def message (m : FullMessage) : Message := ⟨m.ctx.map Prod.fst⟩

def type (m : FullMessage) : Nat := m.message.type

def isMethodReturn (m : FullMessage) : Bool := m.type = dbusMessageTypeMethodReturn

def isError (m : FullMessage) : Bool := m.type = dbusMessageTypeError

/-- `{str?str:""}`. -/
def field (get : Header → Option Bytes) (m : FullMessage) : Bytes :=
  (m.ctx.bind fun ctx => get ctx.2).getD []

def destination : FullMessage → Bytes := field Header.destination
def path : FullMessage → Bytes := field Header.path
def interface : FullMessage → Bytes := field Header.interface
def name : FullMessage → Bytes := field Header.member
def sender : FullMessage → Bytes := field Header.sender

def errorName (m : FullMessage) : Bytes := if m.isError then m.field Header.errorName else []

def serial (m : FullMessage) : UInt32 := (m.ctx.map fun ctx => ctx.2.serial).getD 0

def replySerial (m : FullMessage) : UInt32 := (m.ctx.map fun ctx => ctx.2.replySerial).getD 0

/-- `to_json` from the destination on. -/
def jsonRest (fuel : Nat) (m : FullMessage) (json : Bytes) : Exec Exception Bytes := do
  let json := json ++ text ",\"destination\":\"" ++ m.destination
  let json := json ++ text "\",\"object_path\":\"" ++ m.path
  let json := json ++ text "\",\"interface\":\"" ++ m.interface
  let json := json ++ text "\",\"name\":\"" ++ m.name
  let json := json ++ text "\",\"sender\":\"" ++ m.sender
  let json := json ++ text "\",\"serial\":" ++ Json.intText m.serial.toNat
  let json :=
    if m.isMethodReturn || m.isError then
      json ++ text ",\"reply_serial\":" ++ Json.intText m.replySerial.toNat
    else json
  let json := json ++ text ",\"signature\":\"" ++ m.message.signature
  let json := json ++ text "\",\"arguments\":["
  let args ← m.message.arguments fuel 0
  return json ++ jsonItems true args ++ text "]\x7d"

/-- `message::to_json`. -/
def toJson (fuel : Nat) (m : FullMessage) : Exec Exception Bytes :=
  let json := text "\x7b\"type\":"
  if m.type = dbusMessageTypeMethodCall then m.jsonRest fuel (json ++ text "\"method_call\"")
  else if m.type = dbusMessageTypeMethodReturn then
    m.jsonRest fuel (json ++ text "\"method_return\"")
  else if m.type = dbusMessageTypeSignal then m.jsonRest fuel (json ++ text "\"signal\"")
  else if m.type = dbusMessageTypeError then
    m.jsonRest fuel (json ++ text "\"error\"" ++ text ",\"error_name\":\"" ++ m.errorName)
  else return json ++ text "\"invalid\"\x7d"

/-! ## What the text is to say -/

/-- The kinds of messages that there are, and the invalid one without a handle. -/
inductive Kind where
  | methodCall | methodReturn | error | signal | invalid
deriving DecidableEq

def Kind.name : Kind → Bytes
  | .methodCall => text "method_call"
  | .methodReturn => text "method_return"
  | .error => text "error"
  | .signal => text "signal"
  | .invalid => text "invalid"

/-- A message is of a kind by its type; libdbus makes none of type 0. -/
def IsOfKind (m : FullMessage) : Kind → Prop
  | .methodCall => m.type = dbusMessageTypeMethodCall
  | .methodReturn => m.type = dbusMessageTypeMethodReturn
  | .error => m.type = dbusMessageTypeError
  | .signal => m.type = dbusMessageTypeSignal
  | .invalid => m.ctx = none

/-- The fields of the header, with their values, which are empty texts for those not set. -/
def headerMembers (m : FullMessage) : Kind → List (Bytes × Json)
  | .invalid => [(text "type", .string (text "invalid"))]
  | kind =>
    [(text "type", .string kind.name)] ++
    (if kind = .error then [(text "error_name", .string m.errorName)] else []) ++
    [(text "destination", .string m.destination), (text "object_path", .string m.path),
      (text "interface", .string m.interface), (text "name", .string m.name),
      (text "sender", .string m.sender), (text "serial", .number (Json.intText m.serial.toNat))] ++
    (if kind = .methodReturn ∨ kind = .error then
      [(text "reply_serial", .number (Json.intText m.replySerial.toNat))] else []) ++
    [(text "signature", .string m.message.signature)]

/-- The list of the JSON forms of the arguments is the member for them.  Without a handle there
    are no arguments and no such member. -/
def ArgumentsMember (kind : Kind) (args : List DbusType) (members : List (Bytes × Json)) : Prop :=
  if kind = .invalid then args = []
  else ∃ items, (text "arguments", .array items) ∈ members ∧
    Forall₂ (fun arg item => Json.IsText arg.toJson item) args items

/-- `to_json` returns the text of one object with the fields of the header and the arguments,
    each once. -/
def JsonIsValid (m : FullMessage) (kind : Kind) : Prop :=
  ∃ args json members, Settles (fun fuel => m.message.arguments fuel 0) (.ok args) ∧
    Settles (fun fuel => m.toJson fuel) (.ok json) ∧ Json.IsText json (.object members) ∧
    (members.map Prod.fst).Nodup ∧ (∀ f ∈ m.headerMembers kind, f ∈ members) ∧
    ArgumentsMember kind args members

/-! ## What libdbus guarantees -/

/-- A character of bus names, interfaces, members, error names and paths. -/
def isHeaderChar (b : UInt8) : Bool :=
  isPathChar b || b = '/'.toUInt8 || b = '.'.toUInt8 || b = '-'.toUInt8 || b = ':'.toUInt8

/-- The texts of the header have been checked. -/
def HeaderChecked (m : FullMessage) : Prop :=
  ∀ get ∈ [Header.destination, Header.path, Header.interface, Header.member, Header.errorName,
    Header.sender], ∀ b ∈ m.field get, isHeaderChar b = true

end FullMessage

/-! ## Decoded values have a text -/

theorem DbusType.Encodable.plain_signature {v : DbusType} (h : v.Encodable) :
    Plain v.signature := by
  cases h with
  | basic _ _ => exact BasicType.plain_code _
  | array hsig _ => exact hsig
  | struct hsig _ => exact hsig
  | dict hsig _ _ => exact plain_dictSignature _ hsig
  | variant _ => exact show Plain [dbusTypeVariant] by decide

theorem plain_signatures {vs : List DbusType} (h : ∀ v ∈ vs, v.Encodable) :
    Plain (DbusType.signatures vs) := by
  induction vs with
  | nil => exact fun _ hb => absurd hb List.not_mem_nil
  | cons v vs ih =>
    obtain ⟨hv, hvs⟩ := List.forall_mem_cons.mp h
    exact hv.plain_signature.append (ih hvs)

theorem plain_of_validateSingle {s : Bytes} (h : dbusSignatureValidateSingle s = true) :
    Plain s := by
  obtain ⟨t, rfl, -⟩ := (validateSingle_iff s).mp h
  exact t.plain_render

/-- The values decoded from the parts of a container. -/
theorem encodable_of_parts {ws : List Wire} {vs : List DbusType} (h : Forall₂ Decodes ws vs)
    (hparts : ∀ w ∈ ws, ∀ v, Decodes w v → v.DoubleFree → v.Encodable)
    (hdouble : ∀ x ∈ itemLeaves vs, x.NotDouble) : ∀ v ∈ vs, v.Encodable := by
  induction h with
  | nil => exact fun _ hv => absurd hv List.not_mem_nil
  | cons hv _ ih =>
    obtain ⟨hpart, hparts⟩ := List.forall_mem_cons.mp hparts
    obtain ⟨hdouble, hdoubles⟩ := List.forall_mem_append.mp hdouble
    exact List.forall_mem_cons.mpr ⟨hpart _ hv hdouble, ih hparts hdoubles⟩

/-- What is decoded from a well-formed tree without doubles has a JSON form. -/
theorem Wire.Valid.encodable {w : Wire} (h : w.Valid) :
    ∀ v, Decodes w v → v.DoubleFree → v.Encodable := by
  induction h with
  | @basic value hvalid =>
    intro v hv hdouble
    obtain rfl := hv.unique (.basic hvalid)
    exact .basic (hdouble value List.mem_cons_self) (Basic.isUtf8_of_valid hvalid)
  | @struct fields _ hfields ih =>
    intro v hv hdouble
    obtain ⟨vs, hvs⟩ := exists_forall₂ fun w hw => (hfields w hw).exists_decodesAs
    have hdecodes := hvs.imp fun _ _ h => h.decodes
    obtain rfl := hv.unique (.struct hdecodes)
    have hitems := encodable_of_parts hdecodes ih hdouble
    exact .struct (Plain.cons (by decide) ((plain_signatures hitems).append (by decide))) hitems
  | @array element elements hsig hnot hsame helements ih =>
    intro v hv hdouble
    obtain ⟨vs, hvs⟩ := exists_forall₂ fun w hw => (helements w hw).exists_decodesAs
    have hdecodes := hvs.imp fun _ _ h => h.decodes
    obtain rfl := hv.unique (.array hsig hnot hdecodes (signature_of_mem hvs hsame))
    exact .array (plain_of_validateSingle hsig) (encodable_of_parts hdecodes ih hdouble)
  | @dict key value entries hsig hkeys hvalues hvalid ih =>
    intro v hv hdouble
    have hentries : ∀ e ∈ entries, ∃ d, DecodesEntry key value e d ∧
        (d.2.DoubleFree → d.2.Encodable) := by
      intro e he
      obtain ⟨v, hv⟩ := (hvalid e he).exists_decodesAs
      exact ⟨(e.1, v), ⟨rfl, (hkeys e he).1, (hkeys e he).2,
        hv.signature.trans (hvalues e he), hv.decodes⟩, ih e he v hv.decodes⟩
    obtain ⟨ds, hds⟩ := exists_forall₂ hentries
    obtain rfl := hv.unique (.dict hsig (hds.imp fun _ _ h => h.1))
    have hparts : ∀ d ∈ ds, d.1.IsUtf8 ∧ (d.2.DoubleFree → d.2.Encodable) := by
      intro d hd
      obtain ⟨n, hn, rfl⟩ := List.mem_iff_getElem.mp hd
      obtain ⟨⟨hkey, -, hkeyValid, -, -⟩, hencodable⟩ := hds.get (hds.length_eq ▸ hn) hn
      rw [List.get_eq_getElem] at hkey
      constructor
      · rw [hkey]
        exact Basic.isUtf8_of_valid hkeyValid
      · exact hencodable
    have hitems := forall_mem_entryLeaves.mp hdouble
    refine .dict (plain_of_validateSingle (validateSingle_dict_value hsig)) (fun i hi => ?_)
      fun i hi => ?_
    · obtain ⟨d, hd, hkey⟩ := List.mem_map.mp (mem_keys_of_mem_ofEntries hi)
      exact ⟨(hitems i hi).1, hkey ▸ (hparts d hd).1⟩
    · obtain ⟨d, hd, hvalue⟩ := OrderedMap.value_of_mem_ofEntries hi
      rw [← hvalue]
      exact (hparts d hd).2 (hvalue ▸ (hitems i hi).2)
  | @variant w _ hvalid ih =>
    intro v hv hdouble
    obtain ⟨u, hu⟩ := hvalid.exists_decodesAs
    obtain rfl := hv.unique hu.decodes.variant
    cases u with
    | variant value => exact ih _ hu.decodes hdouble
    | _ => exact .variant (ih _ hu.decodes hdouble)

namespace FullMessage

/-! ## The text of the members -/

theorem plain_of_isHeaderChar {s : Bytes} (h : ∀ b ∈ s, isHeaderChar b = true) : Plain s := by
  have hall : ∀ n < 256, isHeaderChar (.ofNat n) = true →
      UInt8.ofNat n < 0x80 ∧ Json.renderByte (.ofNat n) = [.ofNat n] := by
    decide +kernel
  intro b hb
  have hb := hall b.toNat b.toNat_lt
  rw [UInt8.ofNat_toNat] at hb
  exact hb (h b ‹_›)

/-- The texts of the header are written as they are. -/
structure PlainHeader (m : FullMessage) : Prop where
  destination : Plain m.destination
  path : Plain m.path
  interface : Plain m.interface
  name : Plain m.name
  sender : Plain m.sender
  errorName : Plain m.errorName

theorem HeaderChecked.plain {m : FullMessage} (h : m.HeaderChecked) : m.PlainHeader := by
  have hfield : ∀ get ∈ [Header.destination, Header.path, Header.interface, Header.member,
      Header.errorName, Header.sender], Plain (m.field get) :=
    fun get hget => plain_of_isHeaderChar (h get hget)
  simp only [List.forall_mem_cons] at hfield
  obtain ⟨hdestination, hpath, hinterface, hname, herror, hsender, -⟩ := hfield
  refine ⟨hdestination, hpath, hinterface, hname, hsender, ?_⟩
  rw [errorName]
  split
  · exact herror
  · decide

/-- The members from the destination on. -/
def restMembers (m : FullMessage) (replies : Bool) (args : List DbusType) : List (Bytes × Json) :=
  [(text "destination", .string m.destination), (text "object_path", .string m.path),
    (text "interface", .string m.interface), (text "name", .string m.name),
    (text "sender", .string m.sender), (text "serial", .number (Json.intText m.serial.toNat))] ++
  (if replies then [(text "reply_serial", .number (Json.intText m.replySerial.toNat))] else []) ++
  [(text "signature", .string m.message.signature),
    (text "arguments", .array (itemsJson args))]

/-- The names of these members. -/
theorem plain_memberNames :
    Plain (text "destination") ∧ Plain (text "object_path") ∧ Plain (text "interface") ∧
      Plain (text "name") ∧ Plain (text "sender") ∧ Plain (text "serial") ∧
      Plain (text "reply_serial") ∧ Plain (text "signature") ∧ Plain (text "arguments") := by
  decide

theorem jsonRest_eq {m : FullMessage} (hplain : m.PlainHeader) {args : List DbusType}
    (hargs : ∀ arg ∈ args, arg.Encodable) (hsig : Plain m.message.signature) {fuel : Nat}
    (hrun : m.message.arguments fuel 0 = .ok args) (json : Bytes) :
    m.jsonRest fuel json = .ok (json ++
      (Json.renderMoreMembers (m.restMembers (m.isMethodReturn || m.isError) args) ++
        [Json.endObject])) := by
  have hitems := (jsonItems_eq fun arg harg => (hargs arg harg).toJson_eq).1
  obtain ⟨h₁, h₂, h₃, h₄, h₅, h₆, h₇, h₈, h₉⟩ := plain_memberNames
  simp only [jsonRest, hrun, Exec.ok_bind]
  refine congrArg Exec.ok ?_
  cases m.isMethodReturn || m.isError <;>
    simp only [restMembers, Json.renderMoreMembers, Json.renderString, Json.render, h₁.flatMap,
      h₂.flatMap, h₃.flatMap, h₄.flatMap, h₅.flatMap, h₆.flatMap, h₇.flatMap, h₈.flatMap,
      h₉.flatMap, hplain.destination.flatMap, hplain.path.flatMap, hplain.interface.flatMap,
      hplain.name.flatMap, hplain.sender.flatMap, hsig.flatMap, hitems, List.cons_append,
      List.nil_append, List.append_assoc, if_true, Bool.false_eq_true, if_false,
      List.append_nil] <;>
    rfl

/-! ## Every message but an error has a JSON text -/

theorem type_of_isOfKind {m : FullMessage} {kind : Kind} (h : m.IsOfKind kind) :
    (m.isMethodReturn || m.isError) = (kind = .methodReturn ∨ kind = .error : Bool) := by
  rw [isMethodReturn, isError]
  cases kind with
  | invalid =>
    have hctx : m.ctx = none := h
    simp [type, message, Message.type, hctx, dbusMessageTypeInvalid, dbusMessageTypeMethodReturn,
      dbusMessageTypeError]
  | methodCall =>
    have htype : m.type = dbusMessageTypeMethodCall := h
    simp [htype, dbusMessageTypeMethodCall, dbusMessageTypeMethodReturn, dbusMessageTypeError]
  | methodReturn =>
    have htype : m.type = dbusMessageTypeMethodReturn := h
    simp [htype]
  | error =>
    have htype : m.type = dbusMessageTypeError := h
    simp [htype]
  | signal =>
    have htype : m.type = dbusMessageTypeSignal := h
    simp [htype, dbusMessageTypeSignal, dbusMessageTypeMethodReturn, dbusMessageTypeError]

/-- The text that comes before the rest of the members. -/
def jsonStart (m : FullMessage) : Kind → Bytes
  | .error => text "\x7b\"type\":\"error\",\"error_name\":\"" ++ m.errorName
  | kind => text "\x7b\"type\":\"" ++ kind.name ++ text "\""

theorem toJson_eq_jsonRest {m : FullMessage} {kind : Kind} (h : m.IsOfKind kind)
    (hkind : kind ≠ .invalid) (fuel : Nat) :
    m.toJson fuel = m.jsonRest fuel (m.jsonStart kind) := by
  unfold toJson
  cases kind with
  | methodCall =>
    have htype : m.type = dbusMessageTypeMethodCall := h
    rw [if_pos htype]
    rfl
  | methodReturn =>
    have htype : m.type = dbusMessageTypeMethodReturn := h
    rw [htype, if_neg (by decide), if_pos rfl]
    rfl
  | signal =>
    have htype : m.type = dbusMessageTypeSignal := h
    rw [htype, if_neg (by decide), if_neg (by decide), if_pos rfl]
    rfl
  | error =>
    have htype : m.type = dbusMessageTypeError := h
    rw [htype, if_neg (by decide), if_neg (by decide), if_neg (by decide), if_pos rfl]
    rfl
  | invalid => exact absurd rfl hkind

theorem toJson_invalid {m : FullMessage} (h : m.ctx = none) (fuel : Nat) :
    m.toJson fuel = .ok (Json.object (m.headerMembers .invalid)).render := by
  have htype : m.type = 0 := by
    simp [type, message, Message.type, h, dbusMessageTypeInvalid]
  rw [toJson, htype, if_neg (by decide), if_neg (by decide), if_neg (by decide),
    if_neg (by decide)]
  rfl

/-- Messages other than errors are written as one object. -/
theorem jsonStart_append {m : FullMessage} {kind : Kind} (hkind : kind ≠ .error)
    (members : List (Bytes × Json)) :
    m.jsonStart kind ++ (Json.renderMoreMembers members ++ [Json.endObject]) =
      (Json.object ((text "type", .string kind.name) :: members)).render := by
  cases kind with
  | error => exact absurd rfl hkind
  | _ => rfl

theorem wellFormed_restMembers {m : FullMessage} (hplain : m.PlainHeader)
    (hsig : Plain m.message.signature) {args : List DbusType}
    (hargs : ∀ arg ∈ args, arg.Encodable) (replies : Bool) :
    ∀ member ∈ m.restMembers replies args, Json.Utf8 member.1 ∧ member.2.WellFormed := by
  obtain ⟨h₁, h₂, h₃, h₄, h₅, h₆, h₇, h₈, h₉⟩ := plain_memberNames
  have hitems := wellFormed_itemsJson fun arg harg => (hargs arg harg).wellFormed
  have hreply : ∀ member ∈ (if replies then
      [(text "reply_serial", Json.number (Json.intText m.replySerial.toNat))] else []),
      Json.Utf8 member.1 ∧ member.2.WellFormed := by
    cases replies with
    | true => simpa using ⟨h₇.utf8, .number (Json.intText_isNumber _)⟩
    | false => exact fun _ h => absurd h List.not_mem_nil
  refine List.forall_mem_append.mpr ⟨List.forall_mem_append.mpr ⟨?_, hreply⟩, ?_⟩
  · simp only [List.forall_mem_cons]
    exact ⟨⟨h₁.utf8, .string hplain.destination.utf8⟩, ⟨h₂.utf8, .string hplain.path.utf8⟩,
      ⟨h₃.utf8, .string hplain.interface.utf8⟩, ⟨h₄.utf8, .string hplain.name.utf8⟩,
      ⟨h₅.utf8, .string hplain.sender.utf8⟩, ⟨h₆.utf8, .number (Json.intText_isNumber _)⟩,
      fun _ h => absurd h List.not_mem_nil⟩
  · simp only [List.forall_mem_cons]
    exact ⟨⟨h₈.utf8, .string hsig.utf8⟩, ⟨h₉.utf8, .array hitems⟩,
      fun _ h => absurd h List.not_mem_nil⟩

/-- The texts of the arguments are the items of the list. -/
theorem arguments_isText {args : List DbusType} (hargs : ∀ arg ∈ args, arg.Encodable) :
    Forall₂ (fun arg item => Json.IsText arg.toJson item) args (itemsJson args) := by
  induction args with
  | nil => exact .nil
  | cons arg args ih =>
    obtain ⟨harg, hargs⟩ := List.forall_mem_cons.mp hargs
    refine .cons ?_ (ih hargs)
    rw [harg.toJson_eq]
    exact Json.isText_render harg.wellFormed

/-- What the text of a message is made of. -/
structure Writable (m : FullMessage) (args : List DbusType) : Prop where
  arguments : Settles (fun fuel => m.message.arguments fuel 0) (.ok args)
  encodable : ∀ arg ∈ args, arg.Encodable
  header : m.PlainHeader
  signature : Plain m.message.signature

theorem Writable.settles {m : FullMessage} {args : List DbusType} (h : m.Writable args)
    {kind : Kind} (hkind : m.IsOfKind kind) (hvalid : kind ≠ .invalid) :
    Settles (fun fuel => m.toJson fuel) (.ok (m.jsonStart kind ++
      (Json.renderMoreMembers
        (m.restMembers (kind = .methodReturn ∨ kind = .error : Bool) args) ++
        [Json.endObject]))) := by
  filter_upwards [h.arguments] with fuel hrun
  rw [toJson_eq_jsonRest hkind hvalid, jsonRest_eq h.header h.encodable h.signature hrun,
    type_of_isOfKind hkind]

/-- The members of a message are those of its header and the arguments. -/
theorem members_eq (m : FullMessage) {kind : Kind} (hvalid : kind ≠ .invalid)
    (herror : kind ≠ .error) (args : List DbusType) :
    (text "type", Json.string kind.name) ::
        m.restMembers (kind = .methodReturn ∨ kind = .error : Bool) args =
      m.headerMembers kind ++ [(text "arguments", .array (itemsJson args))] := by
  cases kind with
  | error => exact absurd rfl herror
  | invalid => exact absurd rfl hvalid
  | _ => rfl

theorem nodup_members (m : FullMessage) (kind : Kind) (replies : Bool) (args : List DbusType) :
    (((text "type", Json.string kind.name) :: m.restMembers replies args).map Prod.fst).Nodup := by
  cases replies with
  | true =>
    have hnames : [text "type", text "destination", text "object_path", text "interface",
        text "name", text "sender", text "serial", text "reply_serial", text "signature",
        text "arguments"].Nodup := by decide
    exact hnames
  | false =>
    have hnames : [text "type", text "destination", text "object_path", text "interface",
        text "name", text "sender", text "serial", text "signature", text "arguments"].Nodup := by
      decide
    exact hnames

theorem Writable.jsonIsValid {m : FullMessage} {args : List DbusType} (h : m.Writable args)
    {kind : Kind} (hkind : m.IsOfKind kind) (hvalid : kind ≠ .invalid) (herror : kind ≠ .error) :
    m.JsonIsValid kind := by
  have hsettles := h.settles hkind hvalid
  rw [jsonStart_append herror] at hsettles
  have hrest := wellFormed_restMembers h.header h.signature h.encodable
    (kind = .methodReturn ∨ kind = .error : Bool)
  have hstart : Plain (text "type") ∧ Plain kind.name := by
    cases kind <;> decide
  have hwell : (Json.object ((text "type", .string kind.name) ::
      m.restMembers (kind = .methodReturn ∨ kind = .error : Bool) args)).WellFormed := by
    refine .object (List.forall_mem_cons.mpr ⟨hstart.1.utf8, fun member hmember => ?_⟩)
      (List.forall_mem_cons.mpr ⟨.string hstart.2.utf8, fun member hmember => ?_⟩)
    · exact (hrest member hmember).1
    · exact (hrest member hmember).2
  refine ⟨args, _, _, h.arguments, hsettles, Json.isText_render hwell, nodup_members .., ?_, ?_⟩
  · intro f hf
    rw [members_eq m hvalid herror]
    exact List.mem_append_left _ hf
  · rw [ArgumentsMember, if_neg hvalid, members_eq m hvalid herror]
    exact ⟨itemsJson args, List.mem_append_right _ List.mem_cons_self,
      arguments_isText h.encodable⟩

/-- The closing quote of the error name is missing: the string goes on to the name of the next
    member, and a letter follows it. -/
theorem Writable.not_jsonIsValid {m : FullMessage} {args : List DbusType} (h : m.Writable args)
    (hkind : m.IsOfKind .error) : ¬ m.JsonIsValid .error := by
  rintro ⟨-, json, members, -, hsettles, htext, -, -, -⟩
  have hjson := hsettles.unique (h.settles hkind (by decide))
  obtain rfl := Exec.ok.inj hjson
  have hunquoted : ∀ {p : Bytes}, Plain p → Json.Unquoted p := by
    intro p hp b hb
    refine ⟨(hp b hb).1, ?_, ?_⟩
    · rintro rfl
      exact absurd (hp _ hb).2 (by decide)
    · rintro rfl
      exact absurd (hp _ hb).2 (by decide)
  obtain ⟨rest, hrest⟩ : ∃ rest, m.restMembers
      (Kind.error = .methodReturn ∨ Kind.error = .error : Bool) args =
      (text "destination", .string m.destination) :: rest := ⟨_, rfl⟩
  have hstart : m.jsonStart .error ++ (Json.renderMoreMembers
        ((text "destination", .string m.destination) :: rest) ++ [Json.endObject]) =
      Json.beginObject :: Json.quote :: (text "type" ++ Json.quote :: Json.colon :: Json.quote ::
        (text "error" ++ Json.quote :: Json.comma :: (Json.quote :: (text "error_name" ++
          Json.quote :: Json.colon :: Json.quote :: ((m.errorName ++ text ",") ++
            Json.quote :: 'd'.toUInt8 :: (text "estination" ++ Json.quote :: Json.colon ::
              ((Json.string m.destination).render ++ Json.renderMoreMembers rest ++
                [Json.endObject]))))))) := by
    have hname : Plain (text "destination") := by decide
    simp only [jsonStart, List.append_assoc, List.cons_append, Json.renderMoreMembers,
      Json.renderString, hname.flatMap]
    rfl
  rw [hrest, hstart] at htext
  obtain ⟨ts, r, hmembers, heq⟩ := htext.members
  obtain hend | ⟨-, ts', vs', hmembers', heq'⟩ :=
    hmembers.next (hunquoted (by decide)) (hunquoted (by decide)) (by decide) heq
  · exact absurd (List.cons.inj hend).1 (by decide)
  · have hname : Plain (m.errorName ++ text ",") := h.header.errorName.append (by decide)
    obtain hend | ⟨hletter, -⟩ :=
      hmembers'.next (hunquoted (by decide)) (hunquoted hname) (by decide) heq'.symm
    · exact absurd (List.cons.inj hend).1 (by decide)
    · exact absurd hletter (by decide)

/-- Without a handle there is the type alone. -/
theorem jsonIsValid_invalid {m : FullMessage} (hkind : m.IsOfKind .invalid) :
    m.JsonIsValid .invalid := by
  have hctx : m.ctx = none := hkind
  have harguments : Settles (fun fuel => m.message.arguments fuel 0) (.ok []) := by
    refine Filter.Eventually.of_forall fun fuel => ?_
    simp [Message.arguments, Message.body, message, hctx]
  have hjson : Settles (fun fuel => m.toJson fuel)
      (.ok (Json.object (m.headerMembers .invalid)).render) :=
    Filter.Eventually.of_forall (toJson_invalid hctx)
  have hnames : Plain (text "type") ∧ Plain (text "invalid") := by decide
  have hwell : (Json.object (m.headerMembers .invalid)).WellFormed := by
    refine .object ?_ ?_
    · simpa [headerMembers] using hnames.1.utf8
    · simpa [headerMembers] using .string hnames.2.utf8
  refine ⟨[], _, _, harguments, hjson, Json.isText_render hwell, ?_, fun _ hf => hf, ?_⟩
  · simp [headerMembers]
  · rw [ArgumentsMember, if_pos rfl]

/-- Messages as libdbus makes and receives them can be written, when their values are free of
    doubles. -/
theorem exists_writable {m : FullMessage} (hheader : m.HeaderChecked)
    (hvalid : ∀ w ∈ m.message.body, w.Valid)
    (hdouble : ∀ args, Settles (fun fuel => m.message.arguments fuel 0) (.ok args) →
      ∀ arg ∈ args, arg.DoubleFree) : ∃ args, m.Writable args := by
  obtain ⟨args, hargs⟩ := exists_forall₂ fun w hw => (hvalid w hw).exists_decodesAs
  have hdecodes := hargs.imp fun _ _ h => h.decodes
  have hsettles : Settles (fun fuel => m.message.arguments fuel 0) (.ok args) :=
    arguments_settles hdecodes 0
  have hencodable := encodable_of_parts hdecodes (fun w hw => (hvalid w hw).encodable)
    (forall_mem_itemLeaves.mpr (hdouble args hsettles))
  refine ⟨args, hsettles, hencodable, hheader.plain, ?_⟩
  rw [Message.signature, ← signatures_of_decodesAs hargs]
  exact plain_signatures hencodable

/-- The JSON form of a message is valid unless the message is an error. -/
theorem jsonIsValid_iff {m : FullMessage} {kind : Kind} (hheader : m.HeaderChecked)
    (hkind : m.IsOfKind kind) (hvalid : ∀ w ∈ m.message.body, w.Valid)
    (hdouble : ∀ args, Settles (fun fuel => m.message.arguments fuel 0) (.ok args) →
      ∀ arg ∈ args, arg.DoubleFree) : m.JsonIsValid kind ↔ kind ≠ .error := by
  obtain ⟨args, hwritable⟩ := exists_writable hheader hvalid hdouble
  constructor
  · rintro hjson rfl
    exact hwritable.not_jsonIsValid hkind hjson
  · intro herror
    by_cases hinvalid : kind = .invalid
    · subst hinvalid
      exact jsonIsValid_invalid hkind
    · exact hwritable.jsonIsValid hkind hinvalid herror

/-! ## A signal and an error -/

/-- A message of the given type that says what is wrong. -/
def notice (type : Nat) : FullMessage where
  ctx := some (
    { type, body := [.basic (.string (text "desc"))] },
    { destination := some (text ":1.7")
      path := some (text "/org/example")
      interface := some (text "org.example")
      member := some (text "Notice")
      errorName := some (text "org.example.Error")
      sender := none
      serial := 12
      replySerial := 7 })

theorem notice_headerChecked (type : Nat) : (notice type).HeaderChecked := by
  have htexts : ∀ s ∈ [text ":1.7", text "/org/example", text "org.example", text "Notice",
      text "org.example.Error", []], s.all isHeaderChar = true := by decide
  simp only [List.all_eq_true, List.forall_mem_cons] at htexts
  obtain ⟨hdestination, hpath, hinterface, hmember, herror, hsender, -⟩ := htexts
  simp only [HeaderChecked, List.forall_mem_cons]
  exact ⟨hdestination, hpath, hinterface, hmember, herror, hsender,
    fun _ h => absurd h List.not_mem_nil⟩

theorem valid_desc : (Basic.string (text "desc")).Valid := by
  decide

theorem notice_valid (type : Nat) : ∀ w ∈ (notice type).message.body, w.Valid := by
  intro w hw
  obtain rfl := List.mem_singleton.mp hw
  exact .basic valid_desc

theorem notice_doubleFree (type : Nat) (args : List DbusType)
    (h : Settles (fun fuel => (notice type).message.arguments fuel 0) (.ok args)) :
    ∀ arg ∈ args, arg.DoubleFree := by
  have hdecodes : Forall₂ Decodes (notice type).message.body
      [.basic (.string (text "desc"))] := .cons (.basic valid_desc) .nil
  obtain rfl := Exec.ok.inj (h.unique (arguments_settles hdecodes 0))
  intro arg harg
  obtain rfl := List.mem_singleton.mp harg
  intro x hx
  obtain rfl := List.mem_singleton.mp hx
  exact show BasicType.string ≠ .double by decide

theorem signal_jsonIsValid : (notice dbusMessageTypeSignal).JsonIsValid .signal := by
  have hkind : (notice dbusMessageTypeSignal).IsOfKind .signal := rfl
  exact (jsonIsValid_iff (notice_headerChecked _) hkind (notice_valid _) (notice_doubleFree _)).mpr
    (by decide)

/-- An error with an ordinary header and one text for an argument has no valid form. -/
theorem error_not_jsonIsValid :
    (notice dbusMessageTypeError).HeaderChecked ∧ (notice dbusMessageTypeError).IsOfKind .error ∧
    (∀ w ∈ (notice dbusMessageTypeError).message.body, w.Valid) ∧
    (∀ args, Settles (fun fuel => (notice dbusMessageTypeError).message.arguments fuel 0)
      (.ok args) → ∀ arg ∈ args, arg.DoubleFree) ∧
    ¬ (notice dbusMessageTypeError).JsonIsValid .error := by
  refine ⟨notice_headerChecked _, rfl, notice_valid _, notice_doubleFree _, ?_⟩
  obtain ⟨args, hwritable⟩ :=
    exists_writable (notice_headerChecked _) (notice_valid _) (notice_doubleFree _)
  exact hwritable.not_jsonIsValid rfl

end FullMessage

end Ultrabus
