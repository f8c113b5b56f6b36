import Ultrabus.Message.GetArgs

/-! # Descriptors in messages

libdbus duplicates a file descriptor whenever it is read: every call that reads a message is
shown a tree with numbers of its own at the descriptors.  What two calls read from one argument
is the same value up to these numbers. -/

namespace Ultrabus

open List (Forall₂)

/-! ## Trees -/

mutual
/-- There is a descriptor in the tree. -/
def Wire.hasFd : Wire → Bool
  | .basic value => value.type = .unixFd
  | .struct fields => Wire.haveFd fields
  | .array _ elements => Wire.haveFd elements
  | .dictEntry items => Wire.haveFd items
  | .variant items => Wire.haveFd items

def Wire.haveFd : List Wire → Bool
  | [] => false
  | w :: ws => w.hasFd || Wire.haveFd ws
end

/-- The second tree is what a reading shows of the first. -/
inductive Handed : Wire → Wire → Prop where
  | basic (value : Basic) : Handed (.basic value) (.basic value)
  | unixFd (fd fd' : Int32) : Handed (.basic (.unixFd fd)) (.basic (.unixFd fd'))
  | struct {fields fields' : List Wire} : Forall₂ Handed fields fields' →
      Handed (.struct fields) (.struct fields')
  | array {element : Bytes} {elements elements' : List Wire} : Forall₂ Handed elements elements' →
      Handed (.array element elements) (.array element elements')
  | dictEntry {items items' : List Wire} : Forall₂ Handed items items' →
      Handed (.dictEntry items) (.dictEntry items')
  | variant {items items' : List Wire} : Forall₂ Handed items items' →
      Handed (.variant items) (.variant items')

/-- The message as a call reads it. -/
structure Message.ReadAs (m read : Message) : Prop where
  type : read.type = m.type
  body : Forall₂ Handed m.body read.body

mutual
/-- A tree without descriptors is the same at every reading. -/
theorem Handed.eq_of_hasFd : ∀ {w w' : Wire}, Handed w w' → w.hasFd = false → w' = w
  | _, _, .basic _, _ => rfl
  | _, _, .unixFd _ _, h => nomatch h
  | .struct _, _, .struct hread, h => congrArg Wire.struct (Handed.eq_of_haveFd hread h)
  | .array element _, _, .array hread, h =>
    congrArg (Wire.array element) (Handed.eq_of_haveFd hread h)
  | .dictEntry _, _, .dictEntry hread, h => congrArg Wire.dictEntry (Handed.eq_of_haveFd hread h)
  | .variant _, _, .variant hread, h => congrArg Wire.variant (Handed.eq_of_haveFd hread h)

theorem Handed.eq_of_haveFd :
    ∀ {ws ws' : List Wire}, Forall₂ Handed ws ws' → Wire.haveFd ws = false → ws' = ws
  | [], _, .nil, _ => rfl
  | _ :: _, _, .cons hw hrest, h => by
    simp only [Wire.haveFd, Bool.or_eq_false_iff] at h
    rw [Handed.eq_of_hasFd hw h.1, Handed.eq_of_haveFd hrest h.2]
end

theorem Wire.haveFd_eq_false_iff (ws : List Wire) :
    Wire.haveFd ws = false ↔ ∀ w ∈ ws, w.hasFd = false := by
  induction ws with
  | nil => simp [Wire.haveFd]
  | cons w ws ih => simp [Wire.haveFd, ih]

theorem Handed.exists_basic {value : Basic} {w : Wire} (h : Handed (.basic value) w) :
    ∃ value', w = .basic value' := by
  cases h <;> exact ⟨_, rfl⟩

/-- The entry `e` of a dict is shown as `e'`. -/
def EntryHanded (e e' : Basic × Wire) : Prop :=
  Handed (.basic e.1) (.basic e'.1) ∧ Handed e.2 e'.2

theorem Handed.of_dictEntries {entries : List (Basic × Wire)} {read : List Wire}
    (h : Forall₂ Handed (entries.map Wire.entry) read) :
    ∃ entries', read = entries'.map Wire.entry ∧ Forall₂ EntryHanded entries entries' := by
  induction entries generalizing read with
  | nil =>
    cases h
    exact ⟨[], rfl, .nil⟩
  | cons e entries ih =>
    rw [List.map_cons] at h
    cases h with
    | cons hentry hrest =>
      obtain ⟨entries', rfl, hentries⟩ := ih hrest
      cases hentry with
      | dictEntry hitems =>
        cases hitems with
        | cons hkey hitems =>
          cases hitems with
          | cons hvalue hnil =>
            cases hnil
            obtain ⟨key', rfl⟩ := hkey.exists_basic
            exact ⟨(key', _) :: entries', rfl, .cons ⟨hkey, hvalue⟩ hentries⟩

/-- A reading keeps the types and the form of a tree. -/
structure Shown (w w' : Wire) : Prop where
  valid : w'.Valid
  signature : w'.signature = w.signature

theorem Handed.shown_basic {value value' : Basic} (hvalid : value.Valid)
    (h : Handed (.basic value) (.basic value')) : value'.type = value.type ∧ value'.Valid := by
  cases h with
  | basic => exact ⟨rfl, hvalid⟩
  | unixFd fd fd' => exact ⟨rfl, trivial⟩

theorem forall₂_of_handed {ws ws' : List Wire} (hread : Forall₂ Handed ws ws')
    (h : ∀ w ∈ ws, ∀ w', Handed w w' → Shown w w') : Forall₂ Shown ws ws' :=
  ((List.forall₂_and_left ws ws').mpr ⟨h, hread⟩).imp fun _ w' ⟨hshown, hw⟩ => hshown w' hw

theorem signatures_of_shown {ws ws' : List Wire} (h : Forall₂ Shown ws ws') :
    ws'.map Wire.signature = ws.map Wire.signature ∧ Wire.signatures ws' = Wire.signatures ws := by
  induction h with
  | nil => exact ⟨rfl, rfl⟩
  | cons hw _ ih =>
    rw [List.map_cons, List.map_cons, Wire.signatures, Wire.signatures, hw.signature, ih.1, ih.2]
    exact ⟨rfl, rfl⟩

theorem Handed.shown {w w' : Wire} (hvalid : w.Valid) (h : Handed w w') : Shown w w' := by
  induction hvalid generalizing w' with
  | basic hvalid =>
    obtain ⟨value', rfl⟩ := h.exists_basic
    obtain ⟨htype, hvalid'⟩ := h.shown_basic hvalid
    exact ⟨.basic hvalid', by rw [Wire.signature, Wire.signature, htype]⟩
  | @struct fields hne _ ih =>
    cases h with
    | @struct _ fields' hread =>
      have hshown := forall₂_of_handed hread fun w hw w' => ih w hw
      have hne' : fields' ≠ [] := by
        rintro rfl
        cases hread
        exact hne rfl
      refine ⟨.struct hne' fun w' hw' => ?_, ?_⟩
      · obtain ⟨w, -, hw⟩ := exists_of_mem_right hshown hw'
        exact hw.valid
      · rw [Wire.signature, Wire.signature, (signatures_of_shown hshown).2]
  | @array element elements hsig hnot hsame _ ih =>
    cases h with
    | @array _ _ elements' hread =>
      have hshown := forall₂_of_handed hread fun w hw w' => ih w hw
      refine ⟨.array hsig hnot (fun w' hw' => ?_) (fun w' hw' => ?_), rfl⟩
      all_goals obtain ⟨w, hmem, hw⟩ := exists_of_mem_right hshown hw'
      · exact hw.signature.trans (hsame w hmem)
      · exact hw.valid
  | @dict key value entries hsig hkeys hvalues _ ih =>
    cases h with
    | array hread =>
      obtain ⟨entries', rfl, hentries⟩ := Handed.of_dictEntries hread
      refine ⟨.dict hsig (fun e' he' => ?_) (fun e' he' => ?_) (fun e' he' => ?_), rfl⟩
      all_goals obtain ⟨e, he, hkey, hvalue⟩ := exists_of_mem_right hentries he'
      · obtain ⟨htype, hvalid⟩ := hkey.shown_basic (hkeys e he).2
        exact ⟨htype.trans (hkeys e he).1, hvalid⟩
      · exact (ih e he hvalue).signature.trans (hvalues e he)
      · exact (ih e he hvalue).valid
  | @variant w hsig _ ih =>
    cases h with
    | variant hread =>
      cases hread with
      | cons hhead hnil =>
        cases hnil
        have hshown := ih hhead
        exact ⟨.variant (hshown.signature ▸ hsig) hshown.valid, rfl⟩

/-! ## Values -/

/-- The values are the same but for the numbers of descriptors.  A dict is the map that is made of
    its entries, which the numbers may put into another order. -/
inductive SameButFds : DbusType → DbusType → Prop where
  | basic (value : Basic) : SameButFds (.basic value) (.basic value)
  | unixFd (fd fd' : Int32) : SameButFds (.basic (.unixFd fd)) (.basic (.unixFd fd'))
  | struct {sig : Bytes} {items items' : List DbusType} : Forall₂ SameButFds items items' →
      SameButFds (.struct sig items) (.struct sig items')
  | array {sig : Bytes} {items items' : List DbusType} : Forall₂ SameButFds items items' →
      SameButFds (.array sig items) (.array sig items')
  | dict {key : BasicType} {sig : Bytes} {entries entries' : List (Basic × DbusType)} :
      Forall₂ (fun e e' => SameButFds (.basic e.1) (.basic e'.1)) entries entries' →
      Forall₂ (fun e e' => SameButFds e.2 e'.2) entries entries' →
      SameButFds (.dict key sig (OrderedMap.ofEntries Basic.less entries))
        (.dict key sig (OrderedMap.ofEntries Basic.less entries'))
  | variant {value value' : DbusType} : SameButFds value value' →
      SameButFds (.variant value) (.variant value')

theorem SameButFds.ofPointer {v v' : DbusType} (h : SameButFds v v') :
    SameButFds (DbusVariant.ofPointer (some v)) (DbusVariant.ofPointer (some v')) := by
  cases h with
  | basic value => exact .variant (.basic value)
  | unixFd fd fd' => exact .variant (.unixFd fd fd')
  | struct hitems => exact .variant (.struct hitems)
  | array hitems => exact .variant (.array hitems)
  | dict hkeys hvalues => exact .variant (.dict hkeys hvalues)
  | variant hvalue => exact .variant hvalue

/-- One argument is read twice: the first time as `w` and the second time as `w'`. -/
structure ReadTwice (sig : Bytes) (w w' : Wire) (v v' : DbusType) : Prop where
  first : Decodes w v
  second : Decodes w' v'
  signature : v.signature = sig
  signature' : v'.signature = sig
  same : SameButFds v v'

theorem exists_readTwice_list {ws read read' : List Wire} (hread : Forall₂ Handed ws read)
    (hread' : Forall₂ Handed ws read')
    (h : ∀ w ∈ ws, ∀ {r r'}, Handed w r → Handed w r' →
      ∃ v v', ReadTwice w.signature r r' v v') :
    ∃ vs vs', Forall₂ Decodes read vs ∧ Forall₂ Decodes read' vs' ∧
      vs.map DbusType.signature = ws.map Wire.signature ∧
      vs'.map DbusType.signature = ws.map Wire.signature ∧ Forall₂ SameButFds vs vs' := by
  induction hread generalizing read' with
  | nil =>
    cases hread'
    exact ⟨[], [], .nil, .nil, rfl, rfl, .nil⟩
  | cons hw _ ih =>
    rw [List.forall_mem_cons] at h
    cases hread' with
    | cons hw' hread' =>
      obtain ⟨v, v', hhead⟩ := h.1 hw hw'
      obtain ⟨vs, vs', hvs, hvs', hsig, hsig', hsame⟩ := ih hread' h.2
      refine ⟨v :: vs, v' :: vs', .cons hhead.first hvs, .cons hhead.second hvs', ?_, ?_,
        .cons hhead.same hsame⟩
      · rw [List.map_cons, List.map_cons, hhead.signature, hsig]
      · rw [List.map_cons, List.map_cons, hhead.signature', hsig']

theorem signatures_of_map_eq {ws : List Wire} {vs : List DbusType}
    (h : vs.map DbusType.signature = ws.map Wire.signature) :
    DbusType.signatures vs = Wire.signatures ws := by
  induction ws generalizing vs with
  | nil =>
    rw [List.map_eq_nil_iff.mp h]
    rfl
  | cons w ws ih =>
    cases vs with
    | nil => cases h
    | cons v vs =>
      obtain ⟨hhead, htail⟩ := List.cons.inj h
      simp [Wire.signatures, hhead, ih htail]

theorem signature_of_map_eq {ws : List Wire} {vs : List DbusType} {element : Bytes}
    (h : vs.map DbusType.signature = ws.map Wire.signature)
    (hsame : ∀ w ∈ ws, w.signature = element) : ∀ v ∈ vs, v.signature = element := by
  intro v hv
  have hmem := List.mem_map_of_mem (f := DbusType.signature) hv
  rw [h] at hmem
  obtain ⟨w, hw, hsig⟩ := List.mem_map.mp hmem
  exact hsig.symm.trans (hsame w hw)

theorem Handed.sameButFds {value value' value'' : Basic}
    (h : Handed (.basic value) (.basic value')) (h' : Handed (.basic value) (.basic value'')) :
    SameButFds (.basic value') (.basic value'') := by
  cases h with
  | basic => cases h' with
    | basic => exact .basic value
    | unixFd fd fd' => exact .unixFd fd fd'
  | unixFd fd fd' => cases h' with
    | basic => exact .unixFd fd' fd
    | unixFd _ fd'' => exact .unixFd fd' fd''

theorem exists_readTwice_entries {key : BasicType} {value : Bytes}
    {entries read read' : List (Basic × Wire)} (hread : Forall₂ EntryHanded entries read)
    (hread' : Forall₂ EntryHanded entries read')
    (hkeys : ∀ e ∈ entries, e.1.type = key ∧ e.1.Valid)
    (hvalues : ∀ e ∈ entries, e.2.signature = value)
    (h : ∀ e ∈ entries, ∀ {r r'}, Handed e.2 r → Handed e.2 r' →
      ∃ v v', ReadTwice e.2.signature r r' v v') :
    ∃ ds ds', Forall₂ (DecodesEntry key value) read ds ∧
      Forall₂ (DecodesEntry key value) read' ds' ∧
      Forall₂ (fun d d' => SameButFds (.basic d.1) (.basic d'.1)) ds ds' ∧
      Forall₂ (fun d d' => SameButFds d.2 d'.2) ds ds' := by
  induction hread generalizing read' with
  | nil =>
    cases hread'
    exact ⟨[], [], .nil, .nil, .nil, .nil⟩
  | @cons e e' entries read hentry _ ih =>
    rw [List.forall_mem_cons] at hkeys hvalues h
    cases hread' with
    | @cons _ e'' _ _ hentry' hread' =>
      obtain ⟨ds, ds', hds, hds', hsameKeys, hsame⟩ := ih hread' hkeys.2 hvalues.2 h.2
      obtain ⟨v, v', hvalue⟩ := h.1 hentry.2 hentry'.2
      obtain ⟨htype, hvalid⟩ := hentry.1.shown_basic hkeys.1.2
      obtain ⟨htype', hvalid'⟩ := hentry'.1.shown_basic hkeys.1.2
      refine ⟨(e'.1, v) :: ds, (e''.1, v') :: ds', .cons ?_ hds, .cons ?_ hds',
        .cons (hentry.1.sameButFds hentry'.1) hsameKeys, .cons hvalue.same hsame⟩
      · exact ⟨rfl, htype.trans hkeys.1.1, hvalid, hvalue.signature.trans hvalues.1, hvalue.first⟩
      · exact ⟨rfl, htype'.trans hkeys.1.1, hvalid', hvalue.signature'.trans hvalues.1,
          hvalue.second⟩

/-- What two readings of a well-formed argument give is the same but for the descriptors. -/
theorem Wire.Valid.exists_readTwice {w r r' : Wire} (hvalid : w.Valid) (h : Handed w r)
    (h' : Handed w r') : ∃ v v', ReadTwice w.signature r r' v v' := by
  induction hvalid generalizing r r' with
  | @basic value hvalid =>
    obtain ⟨first, rfl⟩ := h.exists_basic
    obtain ⟨second, rfl⟩ := h'.exists_basic
    obtain ⟨htype, hfirst⟩ := h.shown_basic hvalid
    obtain ⟨htype', hsecond⟩ := h'.shown_basic hvalid
    refine ⟨_, _, .basic hfirst, .basic hsecond, ?_, ?_, h.sameButFds h'⟩
    · simp [DbusType.signature, Wire.signature, htype]
    · simp [DbusType.signature, Wire.signature, htype']
  | struct _ _ ih =>
    cases h with
    | struct hread => cases h' with
      | struct hread' =>
        obtain ⟨vs, vs', hvs, hvs', hsigs, hsigs', hsame⟩ := exists_readTwice_list hread hread' ih
        have hsig := signatures_of_map_eq hsigs
        have hsig' := signatures_of_map_eq hsigs'
        have heq : structSignature vs' = structSignature vs := by
          rw [structSignature, structSignature, hsig, hsig']
        refine ⟨.struct (structSignature vs) vs, .struct (structSignature vs) vs', .struct hvs,
          heq ▸ .struct hvs', ?_, ?_, .struct hsame⟩
        all_goals rw [DbusType.signature, structSignature, hsig, Wire.signature]
  | array hsig hnot hsame _ ih =>
    cases h with
    | array hread => cases h' with
      | array hread' =>
        obtain ⟨vs, vs', hvs, hvs', hsigs, hsigs', hsameItems⟩ :=
          exists_readTwice_list hread hread' ih
        exact ⟨_, _, .array hsig hnot hvs (signature_of_map_eq hsigs hsame),
          .array hsig hnot hvs' (signature_of_map_eq hsigs' hsame), rfl, rfl, .array hsameItems⟩
  | dict hsig hkeys hvalues _ ih =>
    cases h with
    | array hread => cases h' with
      | array hread' =>
        obtain ⟨entries, rfl, hentries⟩ := Handed.of_dictEntries hread
        obtain ⟨entries', rfl, hentries'⟩ := Handed.of_dictEntries hread'
        obtain ⟨ds, ds', hds, hds', hsameKeys, hsame⟩ :=
          exists_readTwice_entries hentries hentries' hkeys hvalues ih
        exact ⟨_, _, .dict hsig hds, .dict hsig hds', rfl, rfl, .dict hsameKeys hsame⟩
  | variant hsig _ ih =>
    cases h with
    | variant hread => cases h' with
      | variant hread' =>
        cases hread with
        | cons hhead hnil => cases hread' with
          | cons hhead' hnil' =>
            cases hnil
            cases hnil'
            obtain ⟨v, v', hread⟩ := ih hhead hhead'
            exact ⟨_, _, hread.first.variant, hread.second.variant, by simp [Wire.signature],
              by simp [Wire.signature], hread.same.ofPointer⟩

/-! ## Messages -/

section Message

variable {m read : Message}

theorem Message.ReadAs.shown (h : m.ReadAs read) (hvalid : ∀ w ∈ m.body, w.Valid) :
    Forall₂ Shown m.body read.body :=
  forall₂_of_handed h.body fun w hw _ => Handed.shown (hvalid w hw)

theorem Message.ReadAs.valid (h : m.ReadAs read) (hvalid : ∀ w ∈ m.body, w.Valid) :
    ∀ w ∈ read.body, w.Valid := by
  intro w' hw'
  obtain ⟨w, -, hw⟩ := exists_of_mem_right (h.shown hvalid) hw'
  exact hw.valid

theorem Message.ReadAs.signatures (h : m.ReadAs read) (hvalid : ∀ w ∈ m.body, w.Valid) :
    read.body.map Wire.signature = m.body.map Wire.signature :=
  (signatures_of_shown (h.shown hvalid)).1

/-- A message without descriptors is the same at every reading. -/
theorem Message.ReadAs.body_eq (h : m.ReadAs read) (hfds : Wire.haveFd m.body = false) :
    read.body = m.body :=
  Handed.eq_of_haveFd h.body hfds

theorem unique_of_decodes {ws : List Wire} {vs vs' : List DbusType} (h : Forall₂ Decodes ws vs)
    (h' : Forall₂ Decodes ws vs') : vs = vs' := by
  have hunique : Relator.RightUnique Decodes := fun _ _ _ => Decodes.unique
  exact List.right_unique_forall₂' hunique h h'

/-- Two readings of a message give values that are the same but for the descriptors. -/
theorem Message.ReadAs.same (h : m.ReadAs read) {read' : Message} (h' : m.ReadAs read')
    (hvalid : ∀ w ∈ m.body, w.Valid) {args args' : List DbusType}
    (hargs : Forall₂ Decodes read.body args) (hargs' : Forall₂ Decodes read'.body args') :
    Forall₂ SameButFds args args' := by
  obtain ⟨vs, vs', hvs, hvs', -, -, hsame⟩ := exists_readTwice_list h.body h'.body
    fun w hw _ _ => (hvalid w hw).exists_readTwice
  rwa [unique_of_decodes hargs hvs, unique_of_decodes hargs' hvs']

end Message

end Ultrabus
