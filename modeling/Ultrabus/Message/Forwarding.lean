import Ultrabus.Message.Descriptors
import Ultrabus.Message.RoundTrip
import Ultrabus.Value.TextInvariant

/-! # Passing arguments on

A program that appends the arguments of a message to another one.  The tree that is written is
not the tree that was read: dicts come in the order of their keys and with each key once, and a
variant in a variant is the inner one.  But it is well formed again, it has the signature of the
old one, and it is read as the same value, whoever sent the first message.  Descriptors are left
out: they have other numbers at every reading. -/

namespace Ultrabus

open Exec (Settles)
open List (Forall₂)

/-! ## Texts -/

theorem nul_ne_of_inRange {low high b : UInt8} (hlow : 0 < low) (h : inRange low high b = true) :
    (0 : UInt8) ≠ b := by
  rintro rfl
  simp only [inRange, Bool.and_eq_true, decide_eq_true_eq] at h
  exact absurd h.1 (UInt8.not_le.mpr hlow)

theorem nul_ne_of_isContinuation {b : UInt8} (h : isContinuation b = true) : (0 : UInt8) ≠ b :=
  nul_ne_of_inRange (by decide) h

theorem nul_notMem_of_validUtf8 {s : Bytes} (h : validUtf8 s = true) : (0 : UInt8) ∉ s := by
  fun_induction validUtf8 s with
  | case1 => exact List.not_mem_nil
  | case3 b rest hb _ ih => simpa [Ne.symm hb] using ih h
  | case4 b hb _ c rest _ ih =>
    simp only [Bool.and_eq_true] at h
    simpa [Ne.symm hb, nul_ne_of_isContinuation h.1] using ih h.2
  | case5 b hb _ c _ d rest _ ih =>
    simp only [Bool.and_eq_true] at h
    have hc := nul_ne_of_inRange (by split <;> decide) h.1.1
    simpa [Ne.symm hb, hc, nul_ne_of_isContinuation h.1.2] using ih h.2
  | case6 b hb _ c _ d _ e rest ih =>
    simp only [Bool.and_eq_true] at h
    have hc := nul_ne_of_inRange (by split <;> decide) h.1.1.1.2
    simpa [Ne.symm hb, hc, nul_ne_of_isContinuation h.1.1.2, nul_ne_of_isContinuation h.1.2]
      using ih h.2
  | case2 | case7 | case8 | case9 => cases h

theorem Basic.Valid.nulFree {value : Basic} (h : value.Valid) : value.NulFree := by
  cases value with
  | string s => exact nul_notMem_of_validUtf8 h
  | objectPath s => exact @TextClass.nul_notMem .opath s h
  | signature s => exact @TextClass.nul_notMem .signature s h
  | _ => trivial

/-! ## One value -/

/-- The value `v` is read from the tree `w` and written as the tree `w'`. -/
structure PassedOn (w : Wire) (v : DbusType) (w' : Wire) : Prop where
  decodes : Decodes w v
  signature : v.signature = w.signature
  valid : w'.Valid
  hasFd : w.hasFd = false → w'.hasFd = false
  carried : Carried v w'

theorem exists_passedOn_list {ws : List Wire} (h : ∀ w ∈ ws, ∃ v w', PassedOn w v w') :
    ∃ vs ws', Forall₂ (fun w v => Decodes w v ∧ v.signature = w.signature) ws vs ∧
      Forall₂ Carried vs ws' ∧ (∀ w' ∈ ws', w'.Valid) ∧
      (Wire.haveFd ws = false → Wire.haveFd ws' = false) := by
  obtain ⟨vs, hvs⟩ := exists_forall₂ h
  have hsource : ∀ v ∈ vs, ∃ w', ∃ w ∈ ws, PassedOn w v w' := by
    intro v hv
    obtain ⟨w, hw, w', hpassed⟩ := exists_of_mem_right hvs hv
    exact ⟨w', w, hw, hpassed⟩
  obtain ⟨ws', hws'⟩ := exists_forall₂ hsource
  refine ⟨vs, ws', hvs.imp fun w v ⟨_, hpassed⟩ => ⟨hpassed.decodes, hpassed.signature⟩,
    hws'.imp fun v w' ⟨_, _, hpassed⟩ => hpassed.carried, fun w' hw' => ?_, fun hfds => ?_⟩
  · obtain ⟨v, -, w, -, hpassed⟩ := exists_of_mem_right hws' hw'
    exact hpassed.valid
  · rw [Wire.haveFd_eq_false_iff] at hfds ⊢
    intro w' hw'
    obtain ⟨v, -, w, hw, hpassed⟩ := exists_of_mem_right hws' hw'
    exact hpassed.hasFd (hfds w hw)

theorem signatures_eq {ws : List Wire} {vs : List DbusType}
    (h : Forall₂ (fun w v => Decodes w v ∧ v.signature = w.signature) ws vs) :
    DbusType.signatures vs = Wire.signatures ws := by
  induction h with
  | nil => rfl
  | cons hw _ ih => simp [Wire.signatures, hw.2, ih]

theorem signature_of_source {ws : List Wire} {vs : List DbusType} {element : Bytes}
    (h : Forall₂ (fun w v => Decodes w v ∧ v.signature = w.signature) ws vs)
    (hsame : ∀ w ∈ ws, w.signature = element) : ∀ v ∈ vs, v.signature = element := by
  intro v hv
  obtain ⟨w, hw, -, hsig⟩ := exists_of_mem_right h hv
  exact hsig.trans (hsame w hw)

theorem hasFd_entry_eq_false_iff (e : Basic × Wire) :
    (Wire.entry e).hasFd = false ↔ e.1.type ≠ .unixFd ∧ e.2.hasFd = false := by
  simp [Wire.entry, Wire.hasFd, Wire.haveFd]

/-- The entries of a dict: the map has keys of them and values of them, in its order. -/
theorem exists_passedOn_dict {key : BasicType} {value : Bytes} {entries : List (Basic × Wire)}
    (hsig : dbusSignatureValidateSingle (dictSignature key value) = true)
    (hkeys : ∀ e ∈ entries, e.1.type = key ∧ e.1.Valid)
    (hvalues : ∀ e ∈ entries, e.2.signature = value)
    (h : ∀ e ∈ entries, ∃ v w', PassedOn e.2 v w') :
    ∃ v w', PassedOn (.array (dictEntrySignature key value) (entries.map Wire.entry)) v w' := by
  have hread : ∀ e ∈ entries, ∃ d : Basic × DbusType, DecodesEntry key value e d ∧
      d.1.Valid ∧ d.2.signature = value ∧
      ∃ w', w'.Valid ∧ (e.2.hasFd = false → w'.hasFd = false) ∧ Carried d.2 w' := by
    intro e he
    obtain ⟨v, w', hpassed⟩ := h e he
    have hvalue := hpassed.signature.trans (hvalues e he)
    exact ⟨(e.1, v), ⟨rfl, (hkeys e he).1, (hkeys e he).2, hvalue, hpassed.decodes⟩,
      (hkeys e he).2, hvalue, w', hpassed.valid, hpassed.hasFd, hpassed.carried⟩
  obtain ⟨ds, hds⟩ := exists_forall₂ hread
  have htype : ∀ d ∈ ds, d.1.type = key := by
    intro d hd
    obtain ⟨e, -, ⟨heq, htype, -⟩, -⟩ := exists_of_mem_right hds hd
    exact heq ▸ htype
  have hsorted : OrderedMap.Sorted Basic.less (OrderedMap.ofEntries Basic.less ds) :=
    OrderedMap.sorted_ofEntries_of_unordered (Basic.less_strictWeakOn key) fun d hd =>
      Basic.orderedKey_or_unordered (htype d hd)
  have hwritten : ∀ d ∈ OrderedMap.ofEntries Basic.less ds, ∃ e : Basic × Wire,
      CarriedEntry key value d e ∧ e.2.Valid ∧
        (Wire.haveFd (entries.map Wire.entry) = false → (Wire.entry e).hasFd = false) := by
    intro d hd
    obtain ⟨d₁, hd₁, hkey⟩ :=
      List.mem_map.mp (OrderedMap.mem_keys_of_mem_ofEntries (List.mem_map_of_mem hd))
    obtain ⟨d₂, hd₂, hvalue⟩ := OrderedMap.value_of_mem_ofEntries hd
    obtain ⟨e₁, he₁, ⟨-, htype₁, -⟩, hvalid, -⟩ := exists_of_mem_right hds hd₁
    obtain ⟨e₂, he₂, -, -, hsame, w', hw', hw'Fd, hcarried⟩ := exists_of_mem_right hds hd₂
    rw [hkey] at hvalid
    rw [hvalue] at hsame hcarried
    have hdtype : d.1.type = key := hkey ▸ htype d₁ hd₁
    refine ⟨(d.1, w'), ⟨rfl, hdtype, hvalid, hvalid.nulFree, hsame, hcarried⟩, hw', fun hfds => ?_⟩
    have hfd : ∀ e ∈ entries, (Wire.entry e).hasFd = false := fun e he =>
      (Wire.haveFd_eq_false_iff _).mp hfds _ (List.mem_map_of_mem he)
    have hfd₁ := (hasFd_entry_eq_false_iff e₁).mp (hfd e₁ he₁)
    have hfd₂ := (hasFd_entry_eq_false_iff e₂).mp (hfd e₂ he₂)
    rw [htype₁] at hfd₁
    exact (hasFd_entry_eq_false_iff _).mpr ⟨hdtype ▸ hfd₁.1, hw'Fd hfd₂.2⟩
  obtain ⟨es, hes⟩ := exists_forall₂ hwritten
  refine ⟨_, .array (dictEntrySignature key value) (es.map Wire.entry),
    .dict hsig (hds.imp fun _ _ hd => hd.1), rfl, ?_, fun hfds => ?_,
    .dict hsig hsorted (hes.imp fun _ _ he => he.1)⟩
  · refine .dict hsig (fun e he => ?_) (fun e he => ?_) fun e he => ?_
    all_goals obtain ⟨d, -, ⟨heq, htype, hvalid, -, hsame, hcarried⟩, hw', -⟩ :=
      exists_of_mem_right hes he
    · exact ⟨heq ▸ htype, heq ▸ hvalid⟩
    · exact hcarried.signature.trans hsame
    · exact hw'
  · refine (Wire.haveFd_eq_false_iff _).mpr fun w hw => ?_
    obtain ⟨e, he, rfl⟩ := List.mem_map.mp hw
    obtain ⟨d, -, -, -, hfd⟩ := exists_of_mem_right hes he
    exact hfd hfds

/-- Whatever is read from a well-formed tree is written as a well-formed tree that carries it. -/
theorem Wire.Valid.exists_passedOn {w : Wire} (h : w.Valid) : ∃ v w', PassedOn w v w' := by
  induction h with
  | @basic value hvalid =>
    exact ⟨_, _, .basic hvalid, rfl, .basic hvalid, id, .basic hvalid hvalid.nulFree⟩
  | @struct fields hne _ ih =>
    obtain ⟨vs, ws', hread, hwritten, hvalid, hfds⟩ := exists_passedOn_list ih
    have hvs : vs ≠ [] := by
      rintro rfl
      cases hread
      exact hne rfl
    have hws' : ws' ≠ [] := by
      rintro rfl
      cases hwritten
      exact hvs rfl
    refine ⟨_, _, .struct (hread.imp fun _ _ hv => hv.1), ?_, .struct hws' hvalid, hfds,
      .struct hvs hwritten⟩
    simp [DbusType.signature, structSignature, signatures_eq hread, Wire.signature]
  | @array element elements hsig hnot hsame _ ih =>
    obtain ⟨vs, ws', hread, hwritten, hvalid, hfds⟩ := exists_passedOn_list ih
    have hvs := signature_of_source hread hsame
    refine ⟨_, _, .array hsig hnot (hread.imp fun _ _ hv => hv.1) hvs, rfl,
      .array hsig hnot (fun w' hw' => ?_) hvalid, hfds, .array hsig hnot hvs hwritten⟩
    obtain ⟨v, hv, hcarried⟩ := exists_of_mem_right hwritten hw'
    exact hcarried.signature.trans (hvs v hv)
  | dict hsig hkeys hvalues _ ih => exact exists_passedOn_dict hsig hkeys hvalues ih
  | @variant w hsig _ ih =>
    obtain ⟨v, w', hpassed⟩ := ih
    have hdecodes := hpassed.decodes.variant
    have hfd : (Wire.variant [w]).hasFd = false → w'.hasFd = false := fun hfd =>
      hpassed.hasFd (by simpa [Wire.hasFd, Wire.haveFd] using hfd)
    cases hvariant : v.isVariant with
    | true =>
      -- The value is a variant already and is handed on as it is.
      obtain ⟨u, rfl⟩ : ∃ u, v = .variant u := by cases v <;> simp_all [DbusType.isVariant]
      exact ⟨_, w', hdecodes, rfl, hpassed.valid, hfd, hpassed.carried⟩
    | false =>
      have hpointer : DbusVariant.ofPointer (some v) = .variant v := by
        cases v <;> simp_all [DbusVariant.ofPointer, DbusType.isVariant]
      rw [hpointer] at hdecodes
      refine ⟨_, _, hdecodes, rfl, .variant ?_ hpassed.valid, fun hvariantFd => ?_,
        .variant hvariant (hpassed.signature ▸ hsig) hpassed.carried⟩
      · rw [hpassed.carried.signature, hpassed.signature]
        exact hsig
      · simpa [Wire.hasFd, Wire.haveFd] using hfd hvariantFd

/-! ## Whole messages -/

theorem appendArgsImpl_dbusType (vs : List DbusType) (iter : AppendIter) :
    appendArgsImpl (vs.map Arg.dbusType) iter = appendItems vs iter := by
  induction vs generalizing iter with
  | nil => rfl
  | cons v vs ih => simp [appendArgsImpl, appendItems, ih]

/-- The arguments of any well-formed message without descriptors, appended to a new message, make
    a well-formed message of the same signature, and whoever reads it gets the same arguments. -/
theorem forwarded (m : Message) (hvalid : ∀ w ∈ m.body, w.Valid)
    (hfds : Wire.haveFd m.body = false) (new : Message) (hnew : new.isValid = true)
    (hempty : new.body = []) :
    ∃ args m', Settles (fun fuel => m.arguments fuel 0) (.ok args) ∧
      new.appendArgs (args.map Arg.dbusType) = some m' ∧ m'.type = new.type ∧
      (∀ w ∈ m'.body, w.Valid) ∧ m'.signature = m.signature ∧
      ∀ read, m'.ReadAs read → Settles (fun fuel => read.arguments fuel 0) (.ok args) := by
  obtain ⟨args, ws', hread, hwritten, hws', hfds'⟩ :=
    exists_passedOn_list fun w hw => (hvalid w hw).exists_passedOn
  have hsettles := arguments_settles (hread.imp fun _ _ hv => hv.1) 0
  obtain ⟨ctx⟩ := new
  cases ctx with
  | none => simp [Message.isValid, Message.type] at hnew
  | some ctx =>
    simp only [Message.body] at hempty
    have happend : Message.appendArgs ⟨some ctx⟩ (args.map Arg.dbusType) =
        some ⟨some { ctx with body := ws' }⟩ := by
      simp [Message.appendArgs, hnew, AppendIter.init, hempty, appendArgsImpl_dbusType,
        appendItems_any hwritten]
    refine ⟨args, _, by simpa using hsettles, happend, rfl, hws', ?_, fun read hreadAs => ?_⟩
    · exact (signatures_of_carried hwritten).trans (signatures_eq hread)
    · have hbody : read.body = ws' := hreadAs.body_eq (hfds' hfds)
      have hsettles' := arguments_settles (m := read) (hbody ▸ decodes_of_carried hwritten) 0
      simpa using hsettles'

/-- A message of which nothing can be passed on as it is. -/
theorem repeatedKeyMessage_forwarded :
    ∃ args m', Settles (fun fuel => repeatedKeyMessage.arguments fuel 0) (.ok args) ∧
      Message.appendArgs ⟨some ⟨4, []⟩⟩ (args.map Arg.dbusType) = some m' ∧ m'.type = 4 ∧
      (∀ w ∈ m'.body, w.Valid) ∧ m'.signature = repeatedKeyMessage.signature ∧
      ∀ read, m'.ReadAs read → Settles (fun fuel => read.arguments fuel 0) (.ok args) := by
  refine forwarded repeatedKeyMessage (fun w hw => ?_) rfl ⟨some ⟨4, []⟩⟩ (by decide) rfl
  simp only [repeatedKeyMessage, Message.body, List.mem_cons, List.not_mem_nil, or_false] at hw
  rcases hw with rfl | rfl
  · refine .dict (by decide) (by decide) (by decide) fun e he => ?_
    simp only [List.mem_cons, List.not_mem_nil, or_false] at he
    rcases he with rfl | rfl <;> exact .basic trivial
  · exact .variant (by decide) (.variant (by decide) (.basic trivial))

end Ultrabus
