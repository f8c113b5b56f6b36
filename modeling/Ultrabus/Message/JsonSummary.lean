import Ultrabus.Message.Json

/-! # What the JSON form of a message keeps

A decoder for the JSON form of a message.  It gets back everything that the member functions of
the message tell: the fields of its header, in which an empty text stands also for a field that
is not set, and the arguments with their types. -/

namespace Ultrabus

open Exec (Settles)

/-- What the member functions of a message tell. -/
structure Summary where
  kind : FullMessage.Kind
  destination : Bytes
  path : Bytes
  interface : Bytes
  name : Bytes
  sender : Bytes
  serial : UInt32
  -- of replies only
  replySerial : Option UInt32
  signature : Bytes
  arguments : List DbusType

namespace FullMessage

def summary (m : FullMessage) (kind : Kind) (args : List DbusType) : Summary where
  kind := kind
  destination := m.destination
  path := m.path
  interface := m.interface
  name := m.name
  sender := m.sender
  serial := m.serial
  replySerial := if kind = .methodReturn ∨ kind = .error then some m.replySerial else none
  signature := m.message.signature
  arguments := args

def Kind.ofName? (name : Bytes) : Option Kind :=
  [Kind.methodCall, .methodReturn, .error, .signal, .invalid].find? fun kind => kind.name = name

theorem Kind.ofName?_name (kind : Kind) : Kind.ofName? kind.name = some kind := by
  cases kind <;> decide

end FullMessage

/-! ## The decoder -/

/-- A member that is a text. -/
def textMember (members : List (Bytes × Json)) (name : Bytes) : Option Bytes :=
  match members.lookup name with
  | some (.string value) => some value
  | _ => none

/-- A member that is a number. -/
def numberMember (members : List (Bytes × Json)) (name : Bytes) : Option UInt32 :=
  match members.lookup name with
  | some (.number t) => some (.ofInt (Json.ofIntText t))
  | _ => none

/-- A member that is a list of values. -/
def valuesMember (members : List (Bytes × Json)) (name : Bytes) : Option (List DbusType) :=
  match members.lookup name with
  | some (.array items) => ofItemsJson? items
  | _ => none

namespace Summary

/-- The members may come in any order. -/
def ofMembers? (members : List (Bytes × Json)) : Option Summary := do
  let typeName ← textMember members (text "type")
  let kind ← FullMessage.Kind.ofName? typeName
  if kind = .invalid then return ⟨kind, [], [], [], [], [], 0, none, [], []⟩
  else
    let destination ← textMember members (text "destination")
    let path ← textMember members (text "object_path")
    let interface ← textMember members (text "interface")
    let name ← textMember members (text "name")
    let sender ← textMember members (text "sender")
    let serial ← numberMember members (text "serial")
    let replySerial := numberMember members (text "reply_serial")
    let signature ← textMember members (text "signature")
    let arguments ← valuesMember members (text "arguments")
    return ⟨kind, destination, path, interface, name, sender, serial, replySerial, signature,
      arguments⟩

def decode (json : Bytes) : Option Summary :=
  match Json.read json with
  | some (.object members) => ofMembers? members
  | _ => none

end Summary

/-! ## The round trip -/

theorem ofInt_ofIntText (n : UInt32) :
    UInt32.ofInt (Json.ofIntText (Json.intText n.toNat)) = n := by
  have hlt := n.toNat_lt
  rw [Json.ofIntText_intText, UInt32.ofInt, Int.emod_eq_of_lt (by omega) (by omega),
    Int.toNat_natCast, UInt32.ofNat_toNat]

namespace FullMessage

/-- The members that `to_json` writes. -/
def members (m : FullMessage) (kind : Kind) (args : List DbusType) : List (Bytes × Json) :=
  (text "type", .string kind.name) ::
    m.restMembers (kind = .methodReturn ∨ kind = .error : Bool) args

section Members

variable (m : FullMessage) (kind : Kind) (args : List DbusType)

theorem lookup_type : (m.members kind args).lookup (text "type") = some (.string kind.name) := rfl

theorem lookup_destination :
    (m.members kind args).lookup (text "destination") = some (.string m.destination) := rfl

theorem lookup_path :
    (m.members kind args).lookup (text "object_path") = some (.string m.path) := rfl

theorem lookup_interface :
    (m.members kind args).lookup (text "interface") = some (.string m.interface) := rfl

theorem lookup_name : (m.members kind args).lookup (text "name") = some (.string m.name) := rfl

theorem lookup_sender :
    (m.members kind args).lookup (text "sender") = some (.string m.sender) := rfl

theorem lookup_serial :
    (m.members kind args).lookup (text "serial") = some (.number (Json.intText m.serial.toNat)) :=
  rfl

theorem lookup_replySerial : (m.members kind args).lookup (text "reply_serial") =
    if kind = .methodReturn ∨ kind = .error then
      some (.number (Json.intText m.replySerial.toNat)) else none := by
  cases kind <;> rfl

theorem lookup_signature :
    (m.members kind args).lookup (text "signature") = some (.string m.message.signature) := by
  cases kind <;> rfl

theorem lookup_arguments :
    (m.members kind args).lookup (text "arguments") = some (.array (itemsJson args)) := by
  cases kind <;> rfl

end Members

theorem ofMembers?_members (m : FullMessage) {kind : Kind} (hkind : kind ≠ .invalid)
    {args : List DbusType} (hargs : ∀ arg ∈ args, arg.Encodable) :
    Summary.ofMembers? (m.members kind args) = some (m.summary kind args) := by
  have hitems : ofItemsJson? (itemsJson args) = some args :=
    ofItemsJson?_itemsJson fun arg harg => (hargs arg harg).ofJson?_json
  simp only [Summary.ofMembers?, textMember, numberMember, valuesMember, lookup_type,
    lookup_destination, lookup_path, lookup_interface, lookup_name, lookup_sender, lookup_serial,
    lookup_replySerial, lookup_signature, lookup_arguments, Option.bind_eq_bind,
    Option.bind_some, Kind.ofName?_name, if_neg hkind, ofInt_ofIntText, hitems]
  by_cases hreply : kind = .methodReturn ∨ kind = .error
  · simp [summary, hreply, ofInt_ofIntText]
  · simp [summary, hreply]

theorem wellFormed_members {m : FullMessage} {args : List DbusType} (h : m.Writable args)
    (kind : Kind) : (Json.object (m.members kind args)).WellFormed := by
  have hrest := wellFormed_restMembers h.header h.signature h.encodable
    (kind = .methodReturn ∨ kind = .error : Bool)
  have hstart : Plain (text "type") ∧ Plain kind.name := by
    cases kind <;> decide
  refine .object (List.forall_mem_cons.mpr ⟨hstart.1.utf8, fun member hmember => ?_⟩)
    (List.forall_mem_cons.mpr ⟨.string hstart.2.utf8, fun member hmember => ?_⟩)
  · exact (hrest member hmember).1
  · exact (hrest member hmember).2

theorem decode_invalid {m : FullMessage} (h : m.ctx = none) :
    Summary.decode (Json.object (m.headerMembers .invalid)).render =
      some (m.summary .invalid []) := by
  have hnames : Plain (text "type") ∧ Plain (text "invalid") := by decide
  have hwell : (Json.object (m.headerMembers .invalid)).WellFormed := by
    refine .object ?_ ?_
    · simpa [headerMembers] using hnames.1.utf8
    · simpa [headerMembers] using .string hnames.2.utf8
  rw [Summary.decode, Json.read_render hwell]
  obtain ⟨ctx⟩ := m
  obtain rfl : ctx = none := h
  rfl

/-- The JSON form of a message other than an error, of any header that libdbus lets pass and any
    arguments without doubles, gives back all that the member functions of the message tell: the
    kind, the fields of the header, the serials, and the arguments with their types. -/
theorem decode_toJson_message {m : FullMessage} {kind : Kind} (hheader : m.HeaderChecked)
    (hkind : m.IsOfKind kind) (hvalid : ∀ w ∈ m.message.body, w.Valid)
    (hdouble : ∀ args, Settles (fun fuel => m.message.arguments fuel 0) (.ok args) →
      ∀ arg ∈ args, arg.DoubleFree) (herror : kind ≠ .error) :
    ∃ args json, Settles (fun fuel => m.message.arguments fuel 0) (.ok args) ∧
      Settles (fun fuel => m.toJson fuel) (.ok json) ∧
      Summary.decode json = some (m.summary kind args) := by
  by_cases hinvalid : kind = .invalid
  · subst hinvalid
    have hctx : m.ctx = none := hkind
    refine ⟨[], _, .of_forall fun fuel => ?_, .of_forall (toJson_invalid hctx),
      decode_invalid hctx⟩
    simp [Message.arguments, Message.body, message, hctx]
  · obtain ⟨args, hwritable⟩ := exists_writable hheader hvalid hdouble
    have hjson := hwritable.settles hkind hinvalid
    rw [jsonStart_append herror] at hjson
    refine ⟨args, _, hwritable.arguments, hjson, ?_⟩
    have hwell := wellFormed_members hwritable kind
    rw [members] at hwell
    rw [Summary.decode, Json.read_render hwell]
    exact ofMembers?_members m hinvalid hwritable.encodable

theorem signal_decode_toJson : ∃ args json,
    Settles (fun fuel => (notice dbusMessageTypeSignal).message.arguments fuel 0) (.ok args) ∧
      Settles (fun fuel => (notice dbusMessageTypeSignal).toJson fuel) (.ok json) ∧
      Summary.decode json = some ((notice dbusMessageTypeSignal).summary .signal args) := by
  have hkind : (notice dbusMessageTypeSignal).IsOfKind .signal := rfl
  exact decode_toJson_message (notice_headerChecked _) hkind (notice_valid _)
    (notice_doubleFree _) (by decide)

end FullMessage

end Ultrabus
