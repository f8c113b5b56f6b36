import Ultrabus.Connection.BusReplies
import Ultrabus.Interfaces.TextDicts

/-! # Managed objects

`org_freedesktop_DBus_ObjectManager::get_managed_objects`: three levels of dicts in the reply are
made into a map of objects, their interfaces and the properties of these.  Whatever the reply is,
the function returns, and the result has for every object, interface and property what the last
entries of the reply say. -/

namespace Ultrabus.Interfaces

open Exec (Settles)
open Bus (Retvalue Request Sync Async ReplyHandler replyError invalidReply sendTo)
open Proxy (textOf castStringDict emplaceIfaces dbusIfaceObjectManager)

/-! ## The functions -/

/-- `managed_objects_t`: object path, interface, properties. -/
abbrev ManagedObjects := List (Bytes × List (Bytes × DbusType))

/-- The loop over the objects of a reply. -/
def emplaceObjects : ManagedObjects → List (Basic × DbusType) → Except Exception ManagedObjects
  | mo, [] => .ok mo
  | mo, (opath, value) :: rest => do
    match ← castStringDict value with
    | .dict _ _ ifaces =>
      let ifacesProperties ← emplaceIfaces [] ifaces
      emplaceObjects (OrderedMap.emplace textLess (textOf (.basic opath)) ifacesProperties mo) rest
    | _ => .error .badCast

/-- `handle_get_managed_objects_reply`; the variable starts as a `dbus_opath_dict`. -/
def handleGetManagedObjectsReply : ReplyHandler ManagedObjects := fun fuel reply => do
  let ret := Retvalue.of []
  if reply.isError then return ret.err (-1) (replyError reply)
  else
    let args ← reply.message.getArgs fuel true
      (.dbus (.dict .objectPath (text "a{oa{sa{sv}}}") [])) []
    match args with
    | (true, [.dbus (.dict _ _ all)]) =>
      let mo ← .ofExcept (emplaceObjects [] all)
      return { ret with value := mo }
    | _ => return ret.err (-1) (invalidReply (text "a{oa{sa{sv}}}") reply)

section Functions

variable (dbusValidateBusName : Bytes → Bool)

def getManagedObjects (busName opath : Bytes) : Sync ManagedObjects :=
  let ret := Retvalue.of []
  if !dbusValidateBusName (cStr busName) then
    .returns (.ok (ret.err (-1) (text "Invalid bus name")))
  else if !dbusValidatePath (cStr opath) then
    .returns (.ok (ret.err (-1) (text "Invalid object path")))
  else
    .sendAndWait (Request.new busName opath dbusIfaceObjectManager (text "GetManagedObjects"))
      handleGetManagedObjectsReply

def getManagedObjectsAsync (busName opath : Bytes) (callback : Bool) : Async ManagedObjects :=
  if !dbusValidateBusName (cStr busName) then .returns (.ok false)
  else if !dbusValidatePath (cStr opath) then .returns (.ok false)
  else
    sendTo handleGetManagedObjectsReply
      (Request.new busName opath dbusIfaceObjectManager (text "GetManagedObjects")) callback

end Functions

/-! ## What a reply says -/

/-- The dict has the properties that the entries of the message say. -/
def ShowsProperties (w : Wire) (properties : DbusType) : Prop :=
  ∀ name, Option.Rel Decodes (wireAt (.string name) w) (valueAt (.string name) properties)

/-- The map has the interfaces with their properties, each interface once. -/
structure ShowsInterfaces (w : Wire) (ifaces : List (Bytes × DbusType)) : Prop where
  interfaces : ∀ iface, Option.Rel ShowsProperties (wireAt (.string iface) w)
    (OrderedMap.lookup textLess iface ifaces)
  sorted : OrderedMap.Sorted textLess ifaces

/-- The map has the objects with their interfaces, each object once. -/
structure ShowsObjects (w : Wire) (mo : ManagedObjects) : Prop where
  objects : ∀ opath, Option.Rel ShowsInterfaces (wireAt (.objectPath opath) w)
    (OrderedMap.lookup textLess opath mo)
  sorted : OrderedMap.Sorted textLess mo

/-- What the caller is told about a reply: an error, or all that the reply says. -/
inductive Told (reply : FullMessage) (ret : Retvalue ManagedObjects) : Prop where
  | error : reply.isError = true → ret = ⟨[], -1, replyError reply⟩ → Told reply ret
  | invalid : reply.isError = false →
      (∀ w ∈ reply.message.body.head?, w.signature ≠ text "a{oa{sa{sv}}}") →
      ret = ⟨[], -1, invalidReply (text "a{oa{sa{sv}}}") reply⟩ → Told reply ret
  | objects {w : Wire} {mo : ManagedObjects} : reply.isError = false →
      reply.message.body.head? = some w → w.signature = text "a{oa{sa{sv}}}" →
      ShowsObjects w mo → ret = ⟨mo, 0, []⟩ → Told reply ret

/-! ## One level after the other -/

theorem optionRel_mono {α β : Type} {R S : α → β → Prop} (h : ∀ a b, R a b → S a b)
    {a : Option α} {b : Option β} (hrel : Option.Rel R a b) : Option.Rel S a b := by
  cases hrel with
  | some hab => exact .some (h _ _ hab)
  | none => exact .none

theorem showsProperties {w : Wire} {items : List (Basic × DbusType)}
    (h : TextDict .string (text "v") w items) {sig : Bytes} :
    ShowsProperties w (.dict .string sig items) := fun name =>
  optionRel_mono (fun _ _ h => h.2.2) (h.lookup (.string name) rfl)

/-- The interfaces of one object. -/
theorem exists_interfaces {w : Wire} {v : DbusType} (hvalid : w.Valid)
    (hsig : w.signature = text "a{sa{sv}}") (hdecodes : Decodes w v) :
    ∃ sig items, v = .dict .string sig items ∧
      emplaceIfaces [] items = .ok (textEntries items) ∧ ShowsInterfaces w (textEntries items) := by
  obtain ⟨items, hitems⟩ := exists_textDict (text "a{sv}") (.inl rfl) hvalid hsig
  have hdict : ∀ {w' : Wire} {v' : DbusType}, w'.Valid → w'.signature = text "a{sv}" →
      Decodes w' v' → ∃ entries, v' = .dict .string (text "a{sv}") entries ∧
        ShowsProperties w' v' := by
    intro w' v' hvalid' hsig' hdecodes'
    obtain ⟨entries, hentries⟩ := exists_textDict (text "v") (.inl rfl) hvalid' hsig'
    obtain rfl := hdecodes'.unique hentries.reads.decodes
    exact ⟨entries, rfl, showsProperties hentries⟩
  refine ⟨_, items, hdecodes.unique hitems.reads.decodes, emplaceIfaces_eq hitems.keys hitems.sorted
    fun i hi => ?_, fun iface => ?_, sorted_textEntries (.inl rfl) hitems.keys hitems.sorted⟩
  · obtain ⟨w', hvalid', hsig', hdecodes'⟩ := hitems.values i hi
    obtain ⟨entries, hentries, -⟩ := hdict hvalid' hsig' hdecodes'
    exact ⟨_, entries, hentries⟩
  · have hlookup := lookup_textEntries (.inl rfl) hitems.keys (.string iface) rfl
    rw [show iface = textOf (.basic (.string iface)) from rfl, hlookup]
    refine optionRel_mono ?_ (hitems.lookup (.string iface) rfl)
    rintro w' v' ⟨hvalid', hsig', hdecodes'⟩
    obtain ⟨-, -, hshows⟩ := hdict hvalid' hsig' hdecodes'
    exact hshows

/-- What the map of interfaces of a decoded object is. -/
def interfacesOf : DbusType → List (Bytes × DbusType)
  | .dict _ _ items => textEntries items
  | _ => []

/-- Every object of the dict gets into the map. -/
theorem emplaceObjects_eq {items : List (Basic × DbusType)}
    (hkeys : ∀ i ∈ items, i.1.type = .objectPath) (hsorted : OrderedMap.Sorted Basic.less items)
    (hvalues : ∀ i ∈ items, ∃ sig entries, i.2 = .dict .string sig entries ∧
      emplaceIfaces [] entries = .ok (textEntries entries)) :
    emplaceObjects [] items = .ok (textEntries (items.map fun i => (i.1, interfacesOf i.2))) := by
  -- As in the loop over interfaces.
  suffices h : ∀ before after, before ++ after = items →
      emplaceObjects (textEntries (before.map fun i => (i.1, interfacesOf i.2))) after =
        .ok (textEntries (items.map fun i => (i.1, interfacesOf i.2))) from h [] items rfl
  intro before after
  induction after generalizing before with
  | nil =>
    rintro rfl
    rw [List.append_nil]
    rfl
  | cons item after ih =>
    obtain ⟨opath, value⟩ := item
    rintro rfl
    obtain ⟨sig, entries, hvalue, hifaces⟩ := hvalues (opath, value) (by simp)
    obtain rfl : value = .dict .string sig entries := hvalue
    let object : Basic × DbusType := (opath, .dict .string sig entries)
    have hless := textLess_of_sorted (.inr rfl) hkeys hsorted
    have hmem : ∀ entry ∈ textEntries (before.map fun i => (i.1, interfacesOf i.2)),
        textLess entry.1 (textOf (.basic opath)) = true := by
      intro entry hentry
      simp only [textEntries, List.map_map, List.mem_map, Function.comp] at hentry
      obtain ⟨i, hi, rfl⟩ := hentry
      exact hless (textOf (.basic i.1), i.2) (List.mem_map_of_mem hi)
    have hemplace := OrderedMap.emplace_of_forall_less (textEntries entries) hmem
    have hbefore : textEntries ((before ++ [object]).map fun i => (i.1, interfacesOf i.2)) =
        textEntries (before.map fun i => (i.1, interfacesOf i.2)) ++
          [(textOf (.basic opath), textEntries entries)] := by
      simp [textEntries, interfacesOf, object]
    rw [← ih (before ++ [object]) (by simp [object]), hbefore, ← hemplace]
    simp only [emplaceObjects, castStringDict, hifaces, bind, Except.bind]

/-- The loop over the objects of a valid reply. -/
theorem exists_objects {w : Wire} (hvalid : w.Valid) (hsig : w.signature = text "a{oa{sa{sv}}}") :
    ∃ items mo, Reads w (.dict .objectPath (text "a{oa{sa{sv}}}") items) ∧
      emplaceObjects [] items = .ok mo ∧ ShowsObjects w mo := by
  obtain ⟨items, hitems⟩ := exists_textDict (text "a{sa{sv}}") (.inr rfl) hvalid hsig
  let objects := items.map fun i => (i.1, interfacesOf i.2)
  have hkeys : ∀ i ∈ objects, i.1.type = .objectPath := by
    intro i hi
    obtain ⟨i', hi', rfl⟩ := List.mem_map.mp hi
    exact hitems.keys i' hi'
  have hsorted : OrderedMap.Sorted Basic.less objects := List.pairwise_map.mpr hitems.sorted
  refine ⟨items, textEntries objects, hitems.reads, emplaceObjects_eq hitems.keys hitems.sorted
    fun i hi => ?_, fun opath => ?_, sorted_textEntries (.inr rfl) hkeys hsorted⟩
  · obtain ⟨w', hvalid', hsig', hdecodes'⟩ := hitems.values i hi
    obtain ⟨sig, entries, hvalue, hifaces, -⟩ := exists_interfaces hvalid' hsig' hdecodes'
    exact ⟨sig, entries, hvalue, hifaces⟩
  · let key : Basic := .objectPath opath
    have hmap : OrderedMap.lookup Basic.less key objects =
        (OrderedMap.lookup Basic.less key items).map interfacesOf :=
      OrderedMap.lookup_map Basic.less id interfacesOf fun i _ => ⟨rfl, rfl⟩
    rw [show opath = textOf (.basic key) from rfl, lookup_textEntries (.inr rfl) hkeys key rfl,
      hmap]
    have hrel := hitems.lookup key rfl
    show Option.Rel ShowsInterfaces (wireAt key w) _
    generalize wireAt key w = found at hrel ⊢
    generalize OrderedMap.lookup Basic.less key items = stored at hrel ⊢
    cases hrel with
    | some h =>
      obtain ⟨hvalid', hsig', hdecodes'⟩ := h
      obtain ⟨sig, entries, rfl, -, hshows⟩ := exists_interfaces hvalid' hsig' hdecodes'
      exact .some hshows
    | none => exact .none

/-! ## The whole function -/

/-- The handler returns for every reply, and tells what the reply says. -/
theorem handleGetManagedObjectsReply_settles {reply : FullMessage}
    (hvalid : ∀ w ∈ reply.message.body, w.Valid) :
    ∃ ret, Settles (fun fuel => handleGetManagedObjectsReply fuel reply) (.ok ret) ∧
      Told reply ret := by
  cases herror : reply.isError with
  | true =>
    exact ⟨_, .of_forall fun fuel => by simp [handleGetManagedObjectsReply, herror, Retvalue.of,
      Retvalue.err], .error herror rfl⟩
  | false =>
    let all : DbusType := .dict .objectPath (text "a{oa{sa{sv}}}") []
    let failure : Retvalue ManagedObjects :=
      (Retvalue.of []).err (-1) (invalidReply (text "a{oa{sa{sv}}}") reply)
    cases hbody : reply.message.body with
    | nil =>
      refine ⟨failure, .of_forall fun fuel => ?_, .invalid herror (by simp [hbody]) rfl⟩
      simp [handleGetManagedObjectsReply, herror, Message.getArgs, hbody, failure]
    | cons w rest =>
      have hw : w.Valid := hvalid w (by simp [hbody])
      by_cases hsig : w.signature = text "a{oa{sa{sv}}}"
      · obtain ⟨items, mo, hreads, hobjects, hshows⟩ := exists_objects hw hsig
        have hfirst := hreads.getArg_settles all ⟨text "a{sa{sv}}", rfl⟩ rfl rfl rest
        have hargs := getArgsImpl_cons hfirst (getArgsImpl_nil true rest)
        refine ⟨⟨mo, 0, []⟩, hargs.mono fun fuel hfuel => ?_,
          .objects herror (by simp [hbody]) hsig hshows rfl⟩
        simp [handleGetManagedObjectsReply, herror, Message.getArgs, hbody, all, hfuel, hobjects,
          Retvalue.of]
      · obtain ⟨v, hreads⟩ := hw.exists_reads
        have hne : all.signature ≠ w.signature := fun heq => hsig heq.symm
        have hfirst := hreads.getArg_of_signature_ne hne rest
        refine ⟨failure, hfirst.mono fun fuel hfuel => ?_,
          .invalid herror (by simpa [hbody] using hsig) rfl⟩
        simp [handleGetManagedObjectsReply, herror, Message.getArgs, hbody, all, getArgsImpl, hfuel,
          failure]

/-- If the names pass, both forms send the same message and make of every reply what it says;
    otherwise nothing is sent. -/
theorem getManagedObjects_told (dbusValidateBusName : Bytes → Bool) (busName opath : Bytes) :
    let msg := Request.new busName opath dbusIfaceObjectManager (text "GetManagedObjects")
    let sync := getManagedObjects dbusValidateBusName busName opath
    let async := getManagedObjectsAsync dbusValidateBusName busName opath
    if dbusValidateBusName (cStr busName) = true ∧ dbusValidatePath (cStr opath) = true then
      ∃ handler, sync = .sendAndWait msg handler ∧ async true = .send msg (some handler) ∧
        async false = .send { msg with wantReply := false } none ∧
        ∀ reply : FullMessage, (∀ w ∈ reply.message.body, w.Valid) →
          ∃ ret, Settles (fun fuel => handler fuel reply) (.ok ret) ∧ Told reply ret
    else
      (∃ what, what ≠ [] ∧ sync = .returns (.ok ⟨[], -1, what⟩)) ∧
        ∀ callback, async callback = .returns (.ok false) := by
  intro msg sync async
  by_cases hname : dbusValidateBusName (cStr busName) = true
  · by_cases hpath : dbusValidatePath (cStr opath) = true
    · rw [if_pos ⟨hname, hpath⟩]
      refine ⟨handleGetManagedObjectsReply, ?_, ?_, ?_, fun reply hvalid =>
        handleGetManagedObjectsReply_settles hvalid⟩
      · simp [sync, getManagedObjects, hname, hpath, msg]
      · simp [async, getManagedObjectsAsync, hname, hpath, msg, sendTo]
      · simp [async, getManagedObjectsAsync, hname, hpath, msg, sendTo]
    · rw [if_neg fun hpass => hpath hpass.2]
      refine ⟨⟨text "Invalid object path", by decide, ?_⟩, fun callback => ?_⟩
      · simp [sync, getManagedObjects, hname, hpath, Retvalue.of, Retvalue.err]
      · simp [async, getManagedObjectsAsync, hname, hpath]
  · rw [if_neg fun hpass => hname hpass.1]
    refine ⟨⟨text "Invalid bus name", by decide, ?_⟩, fun callback => ?_⟩
    · simp [sync, getManagedObjects, hname, Retvalue.of, Retvalue.err]
    · simp [async, getManagedObjectsAsync, hname]

/-- The object `/a` with one interface, which the reply has twice, the second time with a
    property. -/
def managedDict : Wire :=
  let properties : Wire := .array (dictEntrySignature .string (text "v"))
    [.entry (.string (text "p"), .variant [.basic (.byte 1)])]
  .array (dictEntrySignature .objectPath (text "a{sa{sv}}"))
    [.entry (.objectPath (text "/a"), .array (dictEntrySignature .string (text "a{sv}"))
      [.entry (.string (text "i.j"), .array (dictEntrySignature .string (text "v")) []),
        .entry (.string (text "i.j"), properties)])]

/-- A dict with one entry. -/
theorem valid_singleton (key : Basic) {w : Wire}
    (hsig : dbusSignatureValidateSingle (dictSignature key.type w.signature) = true)
    (hkey : key.Valid) (hw : w.Valid) :
    (Wire.array (dictEntrySignature key.type w.signature) [.entry (key, w)]).Valid := by
  have hdict : (Wire.array (dictEntrySignature key.type w.signature)
      ([(key, w)].map Wire.entry)).Valid :=
    .dict hsig (by simpa using hkey) (by simp) (by simpa using hw)
  exact hdict

theorem managedDict_valid : managedDict.Valid := by
  have hbyte : (Basic.byte 1).Valid := trivial
  have hproperties : (Wire.array (dictEntrySignature .string (text "v"))
      [.entry (.string (text "p"), .variant [.basic (.byte 1)])]).Valid :=
    valid_singleton (.string (text "p")) (by decide) (by decide)
      (.variant (by decide) (.basic hbyte))
  have hnone : (Wire.array (dictEntrySignature .string (text "v"))
      (([] : List (Basic × Wire)).map Wire.entry)).Valid :=
    .dict (by decide) (by simp) (by simp) (by simp)
  have hifaces : (Wire.array (dictEntrySignature .string (text "a{sv}"))
      ([(.string (text "i.j"), .array (dictEntrySignature .string (text "v")) []),
        (.string (text "i.j"), .array (dictEntrySignature .string (text "v"))
          [.entry (.string (text "p"), .variant [.basic (.byte 1)])])].map Wire.entry)).Valid := by
    have hname : (Basic.string (text "i.j")).Valid := by decide
    refine .dict (by decide) ?_ ?_ ?_
    · simpa [Basic.type] using hname
    · simp only [List.forall_mem_cons]
      exact ⟨rfl, rfl, by simp⟩
    · simp only [List.forall_mem_cons]
      exact ⟨hnone, hproperties, by simp⟩
  exact valid_singleton (.objectPath (text "/a")) (by decide) (by decide) hifaces

/-- The object is told with its property. -/
theorem managedDict_told :
    ∃ handler, getManagedObjects (fun _ => true) (text "a.b") (text "/") =
        .sendAndWait (Request.new (text "a.b") (text "/") dbusIfaceObjectManager
          (text "GetManagedObjects")) handler ∧
      ∃ ret, Settles (fun fuel => handler fuel (Bus.answer managedDict)) (.ok ret) ∧
        Told (Bus.answer managedDict) ret := by
  have htold := getManagedObjects_told (fun _ => true) (text "a.b") (text "/")
  simp only at htold
  rw [if_pos ⟨trivial, by decide⟩] at htold
  obtain ⟨handler, hsync, -, -, hreply⟩ := htold
  exact ⟨handler, hsync, hreply _ (Bus.answer_valid managedDict_valid)⟩

end Ultrabus.Interfaces
