import Ultrabus.Message.Append
import Ultrabus.Message.Decoding

/-! # Round trip of message bodies

A coherent value is appended as one typed tree, and that tree decodes to the value.  Both
facts are proved by one induction on the value: `Carried v w` is what it yields. -/

namespace Ultrabus

open Exec (Settles)
open List (Forall₂)

/-- Appending `v` puts the tree `w` and nothing else. -/
def Appends (v : DbusType) (w : Wire) : Prop :=
  ∀ iter : AppendIter, appendDbusTypeArg v iter = iter.put w

/-- The tree `w` carries the value `v` through a message. -/
structure Carried (v : DbusType) (w : Wire) : Prop where
  signature : w.signature = v.signature
  isDictEntry : w.isDictEntry = false
  appends : Appends v w
  decodes : Decodes w v

/-! ## What the appending iterator accepts -/

theorem AppendIter.put_of_any {written : List Wire} {w : Wire} (h : w.isDictEntry = false) :
    AppendIter.put ⟨.any, written⟩ w = some ⟨.any, written ++ [w]⟩ := by
  simp [AppendIter.put, AppendIter.accepts, h]

theorem AppendIter.put_of_elements {signature : Bytes} {written : List Wire} {w : Wire}
    (h : w.signature = signature) :
    AppendIter.put ⟨.elements signature, written⟩ w =
      some ⟨.elements signature, written ++ [w]⟩ := by
  simp [AppendIter.put, AppendIter.accepts, h]

theorem AppendIter.put_of_single {signature : Bytes} {w : Wire} (h : w.signature = signature) :
    AppendIter.put ⟨.single signature, []⟩ w = some ⟨.single signature, [w]⟩ := by
  simp [AppendIter.put, AppendIter.accepts, h]

/-! ## Lists of values -/

theorem appendItems_any {vs : List DbusType} {ws : List Wire} (h : Forall₂ Carried vs ws)
    (written : List Wire) :
    appendItems vs ⟨.any, written⟩ = some ⟨.any, written ++ ws⟩ := by
  induction h generalizing written with
  | nil => simp [appendItems]
  | @cons v w vs ws hv _ ih =>
    simp [appendItems, hv.appends _, AppendIter.put_of_any hv.isDictEntry, ih]

theorem appendItems_elements {signature : Bytes} {vs : List DbusType} {ws : List Wire}
    (h : Forall₂ Carried vs ws) (hsig : ∀ v ∈ vs, v.signature = signature)
    (written : List Wire) :
    appendItems vs ⟨.elements signature, written⟩ =
      some ⟨.elements signature, written ++ ws⟩ := by
  induction h generalizing written with
  | nil => simp [appendItems]
  | @cons v w vs ws hv _ ih =>
    have hw : w.signature = signature := hv.signature.trans (hsig v List.mem_cons_self)
    have hrest := ih fun v' hv' => hsig v' (List.mem_cons_of_mem _ hv')
    simp [appendItems, hv.appends _, AppendIter.put_of_elements hw, hrest]

theorem signatures_of_carried {vs : List DbusType} {ws : List Wire} (h : Forall₂ Carried vs ws) :
    Wire.signatures ws = DbusType.signatures vs := by
  induction h with
  | nil => rfl
  | cons hv _ ih => simp [Wire.signatures, hv.signature, ih]

theorem decodes_of_carried {vs : List DbusType} {ws : List Wire} (h : Forall₂ Carried vs ws) :
    Forall₂ Decodes ws vs :=
  (h.imp fun _ _ hv => hv.decodes).flip

/-- An entry of a dict keyed by `key` with values of signature `value` is carried. -/
def CarriedEntry (key : BasicType) (value : Bytes) (d : Basic × DbusType) (e : Basic × Wire) :
    Prop :=
  e.1 = d.1 ∧ d.1.type = key ∧ d.1.Valid ∧ d.1.NulFree ∧ d.2.signature = value ∧ Carried d.2 e.2

theorem Basic.toDBusBasicValue_of_nulFree {value : Basic} (h : value.NulFree) :
    value.toDBusBasicValue = value := by
  cases value <;> simp_all [Basic.toDBusBasicValue, Basic.NulFree, cStr_eq_self]

theorem AppendIter.appendBasic_of_valid {iter : AppendIter} {value : Basic} (h : value.Valid) :
    iter.appendBasic value = iter.put (.basic value) := by
  simp [AppendIter.appendBasic, h]

theorem appendEntries_elements {key : BasicType} {value : Bytes} {ds : List (Basic × DbusType)}
    {es : List (Basic × Wire)} (h : Forall₂ (CarriedEntry key value) ds es) (written : List Wire) :
    appendEntries ds ⟨.elements (dictEntrySignature key value), written⟩ =
      some ⟨.elements (dictEntrySignature key value), written ++ es.map Wire.entry⟩ := by
  induction h generalizing written with
  | nil => simp [appendEntries]
  | @cons d e ds es hentry _ ih =>
    obtain ⟨k, v⟩ := d
    obtain ⟨k', w⟩ := e
    obtain ⟨rfl, htype, hvalid, hnul, hsig, hv⟩ := hentry
    -- The key, the value, and then the entry as a whole.
    have hkey : AppendIter.put ⟨.any, []⟩ (.basic k') = some ⟨.any, [.basic k']⟩ :=
      AppendIter.put_of_any rfl
    have hvalue : AppendIter.put ⟨.any, [.basic k']⟩ w = some ⟨.any, [.basic k', w]⟩ :=
      AppendIter.put_of_any hv.isDictEntry
    have hclose : AppendIter.put ⟨.elements (dictEntrySignature key value), written⟩
        (Wire.entry (k', w)) =
          some ⟨.elements (dictEntrySignature key value), written ++ [Wire.entry (k', w)]⟩ := by
      refine AppendIter.put_of_elements ?_
      rw [Wire.signature_entry, hv.signature]
      exact congrArg₂ dictEntrySignature htype hsig
    simp only [appendEntries, AppendIter.openContainer, Option.bind_eq_bind, Option.bind_some,
      Basic.toDBusBasicValue_of_nulFree hnul, AppendIter.appendBasic_of_valid hvalid, hkey,
      hv.appends _, hvalue, AppendIter.closeContainer]
    rw [Wire.entry] at hclose
    simp [hclose, ih, Wire.entry]

/-! ## One value -/

theorem Carried.basic {value : Basic} (hvalid : value.Valid) (hnul : value.NulFree) :
    Carried (.basic value) (.basic value) where
  signature := rfl
  isDictEntry := rfl
  appends iter := by
    simp [appendDbusTypeArg, Basic.toDBusBasicValue_of_nulFree hnul,
      AppendIter.appendBasic_of_valid hvalid]
  decodes := .basic hvalid

theorem Carried.struct {vs : List DbusType} {ws : List Wire} (hne : vs ≠ [])
    (h : Forall₂ Carried vs ws) : Carried (.struct (structSignature vs) vs) (.struct ws) where
  signature := by
    simp [Wire.signature, signatures_of_carried h, DbusType.signature, structSignature]
  isDictEntry := rfl
  appends iter := by
    cases h with
    | nil => exact absurd rfl hne
    | cons hv hvs =>
      simp [appendDbusTypeArg, AppendIter.openContainer, appendItems_any (.cons hv hvs),
        AppendIter.closeContainer]
  decodes := .struct (decodes_of_carried h)

theorem Carried.array {element : Bytes} {vs : List DbusType} {ws : List Wire}
    (hsig : dbusSignatureValidateSingle (dbusTypeArray :: element) = true)
    (hnot : element.head? ≠ some dbusDictEntryBeginChar)
    (hvs : ∀ v ∈ vs, v.signature = element) (h : Forall₂ Carried vs ws) :
    Carried (.array (dbusTypeArray :: element) vs) (.array element ws) where
  signature := rfl
  isDictEntry := rfl
  appends iter := by
    have helement : cStr element = element :=
      cStr_eq_self fun h0 => nul_not_mem_of_validateSingle hsig (List.mem_cons_of_mem _ h0)
    simp [appendDbusTypeArg, DbusArray.elementSignature, helement, AppendIter.openContainer, hsig,
      appendItems_elements h hvs, AppendIter.closeContainer]
  decodes := .array hsig hnot (decodes_of_carried h) hvs

theorem Carried.dict {key : BasicType} {value : Bytes} {ds : List (Basic × DbusType)}
    {es : List (Basic × Wire)}
    (hsig : dbusSignatureValidateSingle (dictSignature key value) = true)
    (hsorted : OrderedMap.Sorted Basic.less ds) (h : Forall₂ (CarriedEntry key value) ds es) :
    Carried (.dict key (dictSignature key value) ds)
      (.array (dictEntrySignature key value) (es.map Wire.entry)) where
  signature := rfl
  isDictEntry := rfl
  appends iter := by
    have hentry : cStr (dictEntrySignature key value) = dictEntrySignature key value :=
      cStr_eq_self fun h0 => nul_not_mem_of_validateSingle hsig (List.mem_cons_of_mem _ h0)
    have hopen : dbusSignatureValidateSingle
        (dbusTypeArray :: dictEntrySignature key value) = true := hsig
    simp [appendDbusTypeArg, hentry, AppendIter.openContainer, hopen, appendEntries_elements h,
      AppendIter.closeContainer]
  decodes := by
    have hdecodes : Forall₂ (DecodesEntry key value) es ds :=
      (h.imp fun d e ⟨heq, htype, hvalid, _, hsig, hv⟩ =>
        show flip (DecodesEntry key value) d e from
          ⟨heq.symm, heq ▸ htype, heq ▸ hvalid, hsig, hv.decodes⟩).flip
    -- The entries come in the order of the map, which they are assigned to one by one.
    have hdict := Decodes.dict hsig hdecodes
    rwa [OrderedMap.ofEntries_of_sorted hsorted] at hdict

theorem Carried.variant {v : DbusType} {w : Wire} (hvariant : v.isVariant = false)
    (hsig : dbusSignatureValidateSingle v.signature = true) (h : Carried v w) :
    Carried (.variant v) (.variant [w]) where
  signature := rfl
  isDictEntry := rfl
  appends iter := by
    simp [appendDbusTypeArg, cStr_of_validateSingle hsig, AppendIter.openContainer, hsig,
      h.appends _, AppendIter.put_of_single h.signature, AppendIter.closeContainer]
  decodes := by
    -- A value that is a variant would be taken over instead of wrapped.
    have hpointer : DbusVariant.ofPointer (some v) = .variant v := by
      cases v <;> simp_all [DbusVariant.ofPointer, DbusType.isVariant]
    exact hpointer ▸ h.decodes.variant

/-- Every coherent value is carried by some tree. -/
theorem DbusType.Coherent.exists_carried {v : DbusType} (h : v.Coherent) : ∃ w, Carried v w := by
  induction h with
  | basic hvalid hnul _ => exact ⟨_, .basic hvalid hnul⟩
  | array hsig hnot hvs _ ih =>
    obtain ⟨ws, hws⟩ := exists_forall₂ ih
    exact ⟨_, .array hsig hnot hvs hws⟩
  | struct _ hne _ ih =>
    obtain ⟨ws, hws⟩ := exists_forall₂ ih
    exact ⟨_, .struct hne hws⟩
  | @dict key value items hsig _ _ hkeys hsorted hvalues _ ih =>
    have hentries : ∀ d ∈ items, ∃ e, CarriedEntry key value d e := by
      intro d hd
      obtain ⟨w, hw⟩ := ih d hd
      obtain ⟨htype, hvalid, hnul⟩ := hkeys d hd
      exact ⟨(d.1, w), rfl, htype, hvalid, hnul, hvalues d hd, hw⟩
    obtain ⟨es, hes⟩ := exists_forall₂ hentries
    exact ⟨_, .dict hsig hsorted hes⟩
  | variant hvariant hv ih =>
    obtain ⟨w, hw⟩ := ih
    exact ⟨_, .variant hvariant hv.validateSingle_signature hw⟩

/-! ## Whole messages -/

/-- An argument is appended as the value it stands for. -/
theorem appendArgsImpl_cons {arg : Arg} {args : List Arg} (h : arg.value.Coherent)
    (iter : AppendIter) :
    appendArgsImpl (arg :: args) iter =
      (appendDbusTypeArg arg.value iter).bind fun iter => appendArgsImpl args iter := by
  cases arg with
  | dbusType value => rfl
  | cString value =>
    cases h with
    | basic _ hnul _ => simp [appendArgsImpl, Arg.value, appendDbusTypeArg, Basic.toDBusBasicValue,
        cStr_eq_self hnul]
  | cpp value => cases value <;> rfl

theorem appendArgsImpl_any {args : List Arg} {ws : List Wire}
    (hcoherent : ∀ arg ∈ args, arg.value.Coherent)
    (h : Forall₂ (fun arg w => Carried arg.value w) args ws) (written : List Wire) :
    appendArgsImpl args ⟨.any, written⟩ = some ⟨.any, written ++ ws⟩ := by
  induction h generalizing written with
  | nil => simp [appendArgsImpl]
  | @cons arg w args ws hw _ ih =>
    have hrest := ih fun arg' h' => hcoherent arg' (List.mem_cons_of_mem _ h')
    rw [appendArgsImpl_cons (hcoherent arg List.mem_cons_self), hw.appends,
      AppendIter.put_of_any hw.isDictEntry]
    simp [hrest]

theorem appendCalls_eq {m : Message} {calls : List (List Arg)} {wss : List (List Wire)}
    (hvalid : m.isValid = true) (hcoherent : ∀ args ∈ calls, ∀ arg ∈ args, arg.value.Coherent)
    (h : Forall₂ (Forall₂ fun arg w => Carried arg.value w) calls wss) :
    ∃ m', m.appendCalls calls = some m' ∧ m'.body = m.body ++ wss.flatten := by
  induction h generalizing m with
  | nil => exact ⟨m, rfl, by simp⟩
  | @cons args ws calls wss hargs _ ih =>
    obtain ⟨ctx⟩ := m
    cases ctx with
    | none => simp [Message.isValid, Message.type] at hvalid
    | some ctx =>
      have hfirst := appendArgsImpl_any (hcoherent args List.mem_cons_self) hargs ctx.body
      have hcall : Message.appendArgs ⟨some ctx⟩ args =
          some ⟨some { ctx with body := ctx.body ++ ws }⟩ := by
        simp [Message.appendArgs, hvalid, AppendIter.init, hfirst]
      obtain ⟨m', hm', hbody⟩ := ih (m := ⟨some { ctx with body := ctx.body ++ ws }⟩)
        hvalid
        fun args' h' => hcoherent args' (List.mem_cons_of_mem _ h')
      exact ⟨m', by simp [Message.appendCalls, hcall, hm'], by simpa [Message.body] using hbody⟩

/-- Coherent values appended to an empty message, in any split into calls and given as C++
    values or as wrappers, are what `arguments` returns. -/
theorem arguments_appendCalls (m : Message) (calls : List (List Arg)) (hvalid : m.isValid = true)
    (hempty : m.body = []) (hcoherent : ∀ args ∈ calls, ∀ arg ∈ args, arg.value.Coherent) :
    ∃ m', m.appendCalls calls = some m' ∧
      Settles (fun fuel => m'.arguments fuel 0) (.ok (calls.flatten.map Arg.value)) := by
  -- One tree for each argument, in the same calls.
  have hcarried : ∀ args ∈ calls, ∃ ws, Forall₂ (fun arg w => Carried arg.value w) args ws :=
    fun args hargs => exists_forall₂ fun arg harg => (hcoherent args hargs arg harg).exists_carried
  obtain ⟨wss, hwss⟩ := exists_forall₂ hcarried
  obtain ⟨m', hm', hbody⟩ := appendCalls_eq hvalid hcoherent hwss
  rw [hempty, List.nil_append] at hbody
  have hdecodes : Forall₂ Decodes wss.flatten (calls.flatten.map Arg.value) := by
    have hflat := List.rel_flatten hwss
    rw [List.forall₂_map_right_iff]
    exact (hflat.imp fun arg w hw => show flip (fun w arg => Decodes w arg.value) arg w from
      hw.decodes).flip
  have hsettles := arguments_settles (hbody ▸ hdecodes) 0
  exact ⟨m', hm', by simpa using hsettles⟩

/-- The dict `{"key1": <11>, "key2": <true>}` of type `a{sv}`. -/
def sampleDict : DbusType :=
  .dict .string (dictSignature .string [dbusTypeVariant])
    [(.string (text "key1"), .variant (.basic (.int32 11))),
      (.string (text "key2"), .variant (.basic (.boolean true)))]

theorem sampleDict_coherent : sampleDict.Coherent := by
  refine .dict (by decide) (by decide) (by decide) (by decide) (by unfold OrderedMap.Sorted; decide)
    (by decide) fun item hitem => ?_
  simp only [List.mem_cons, List.not_mem_nil, or_false] at hitem
  rcases hitem with rfl | rfl <;> exact .variant rfl (.basic trivial trivial (by decide))

theorem arguments_appendCalls_sample :
    ∃ m', Message.appendCalls ⟨some ⟨1, []⟩⟩
        [[.cpp (.int32 1), .cString (text "two")], [.dbusType sampleDict]] = some m' ∧
      Settles (fun fuel => m'.arguments fuel 0)
        (.ok [.basic (.int32 1), .basic (.string (text "two")), sampleDict]) := by
  apply arguments_appendCalls ⟨some ⟨1, []⟩⟩
    [[.cpp (.int32 1), .cString (text "two")], [.dbusType sampleDict]] (by decide) rfl
  simp only [List.mem_cons, List.not_mem_nil, or_false, forall_eq_or_imp, forall_eq]
  refine ⟨⟨?_, ?_⟩, sampleDict_coherent⟩
  · exact .basic trivial trivial (by decide)
  · exact .basic (by decide) (by decide) (by decide)

end Ultrabus
