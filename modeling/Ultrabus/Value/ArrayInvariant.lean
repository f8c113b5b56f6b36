import Mathlib.Data.List.InsertIdx
import Ultrabus.Value.ArrayOperations

/-! # What an array holds

`ArrayStore.system` runs any sequence of the operations on any number of arrays.  Every
array keeps elements of its own element signature, as long as no text or signature with a
NUL byte gets past a check that stops at it, and no range goes in on the strength of its
first element alone. -/

namespace Ultrabus

namespace ArrayObject

/-- Every element is there and has the element signature of the array. -/
def Homogeneous (a : ArrayObject) : Prop :=
  ∀ p ∈ a.items, ∃ v : DbusType, p = some v ∧ v.signature = a.elementSignature

/-- A homogeneous array whose signature is a complete type, with elements of `esig`. -/
structure Holds (esig : Bytes) (a : ArrayObject) : Prop where
  sig : a.sig = dbusTypeArray :: esig
  valid : dbusSignatureValidateSingle a.sig = true
  homogeneous : a.Homogeneous

def WellTyped (a : ArrayObject) : Prop := ∃ esig, Holds esig a

theorem Holds.wellTyped {esig : Bytes} {a : ArrayObject} (h : Holds esig a) : WellTyped a :=
  ⟨esig, h⟩

theorem Holds.elementSignature {esig : Bytes} {a : ArrayObject} (h : Holds esig a) :
    a.elementSignature = esig := by
  rw [ArrayObject.elementSignature, h.sig, List.tail_cons]

theorem WellTyped.holds {a : ArrayObject} (h : WellTyped a) : Holds a.elementSignature a := by
  obtain ⟨esig, h⟩ := h
  rwa [h.elementSignature]

/-- One character tells the element type when it is basic. -/
theorem WellTyped.of_elementCode {a : ArrayObject} (h : WellTyped a) {t : BasicType}
    (hcode : a.elementCode = t.code) : Holds [t.code] a := by
  obtain ⟨esig, h⟩ := h
  rw [ArrayObject.elementCode, h.sig, List.tail_cons] at hcode
  have hhead : esig.head? ≠ some dbusDictEntryBeginChar := by
    cases esig with
    | nil => simp
    | cons c rest =>
      rw [List.head?_cons, show c = t.code from hcode]
      simp
  obtain ⟨type, rfl⟩ := validateSingle_array_element (h.sig ▸ h.valid) hhead
  cases type with
  | basic type =>
    have htype : type.code = t.code := hcode
    rwa [SigType.render, htype] at h
  | variant => exact absurd hcode.symm t.code_ne_variant
  | array element => exact absurd hcode.symm t.code_ne_array
  | struct first rest => exact absurd hcode.symm t.code_ne_structBegin
  | dict key value => exact absurd hcode.symm t.code_ne_array

theorem Holds.add {esig : Bytes} {a : ArrayObject} (h : Holds esig a)
    {items : List (Option DbusType)} {item : DbusType} (hitem : item.signature = esig)
    (hitems : ∀ p ∈ items, p ∈ a.items ∨ p = some item) : Holds esig { a with items := items } where
  sig := h.sig
  valid := h.valid
  homogeneous := by
    intro p hp
    obtain hold | rfl := hitems p hp
    · exact h.homogeneous p hold
    · exact ⟨item, rfl, hitem.trans h.elementSignature.symm⟩

theorem Holds.remove {esig : Bytes} {a : ArrayObject} (h : Holds esig a)
    {items : List (Option DbusType)} (hitems : ∀ p ∈ items, p ∈ a.items) :
    Holds esig { a with items := items } where
  sig := h.sig
  valid := h.valid
  homogeneous := fun p hp => h.homogeneous p (hitems p hp)

/-! ## The shared steps -/

section Steps

variable {esig : Bytes}

theorem emplaceBack_holds {item : DbusType} (hitem : item.signature = esig) :
    Hoare (Holds esig) (emplaceBack item) (fun _ => Holds esig) (Holds esig) := by
  refine Hoare.update _ fun a ha => ha.add hitem fun p hp => ?_
  simpa using hp

theorem insertItem_holds {item : DbusType} (hitem : item.signature = esig) (pos : Nat) :
    Hoare (Holds esig) (insertItem pos item) (fun _ => Holds esig) (Holds esig) := by
  refine Hoare.update _ fun a ha => ha.add hitem fun p hp => ?_
  exact (List.eq_or_mem_of_mem_insertIdx hp).symm

/-- The check keeps what is known of the array, and adds what its elements are. -/
theorem verifyElementSignature_holds {P : ArrayObject → Prop} (hP : ∀ a, P a → WellTyped a)
    (esig : Bytes) :
    Hoare P (verifyElementSignature esig) (fun _ a => P a ∧ Holds esig a) WellTyped := by
  refine Hoare.get_bind fun a ha => ?_
  refine Hoare.ite (fun _ => Hoare.throw _ ?_) fun heq => Hoare.pure () ?_
  · rintro _ rfl
    exact hP _ ha
  · rintro _ rfl
    have holds := (hP _ ha).holds
    rw [not_not.mp heq] at holds
    exact ⟨ha, holds⟩

theorem verifyElementTypeCode_holds (t : BasicType) :
    Hoare WellTyped (verifyElementTypeCode t) (fun _ => Holds [t.code]) WellTyped := by
  refine Hoare.get_bind fun a ha => ?_
  refine Hoare.ite (fun _ => Hoare.throw _ ?_) fun heq => Hoare.pure () ?_
  · rintro _ rfl
    exact ha
  · rintro _ rfl
    exact ha.of_elementCode (not_not.mp heq)

theorem verifyElementTypeIsTypeOfString_holds :
    Hoare WellTyped verifyElementTypeIsTypeOfString (fun type => Holds [type.type.code])
      WellTyped := by
  refine Hoare.get_bind fun a ha => ?_
  cases h : TextType.ofCode? a.elementCode with
  | none =>
    refine Hoare.throw _ ?_
    rintro _ rfl
    exact ha
  | some type =>
    refine Hoare.pure type ?_
    rintro _ rfl
    exact ha.of_elementCode (TextType.code_of_ofCode? h)

/-- What a constructor of a string class makes, or the object as it was. -/
theorem construct_text {I : ArrayObject → Prop} (type : TextType) (value : TextArg) :
    Hoare I (construct (newText type value))
      (fun item a => I a ∧ item.signature = [type.type.code]) I := by
  cases h : newText type value with
  | error e => exact Hoare.throw e fun a ha => ha
  | ok v =>
    have hsig : (DbusType.basic v).signature = [type.type.code] := by
      rw [DbusType.signature, newText_type h]
    exact Hoare.pure _ fun a ha => ⟨ha, hsig⟩

theorem emplaceText_holds (type : TextType) (value : TextArg) :
    Hoare (Holds [type.type.code]) (do emplaceBack (← construct (newText type value)))
      (fun _ => Holds [type.type.code]) (Holds [type.type.code]) := by
  refine Hoare.bind (construct_text type value) fun item => ?_
  rintro a ⟨ha, hitem⟩
  exact emplaceBack_holds hitem a ha

/-- A loop that inserts elements of the right signature. -/
theorem insertEach_holds {α : Type} {create : α → Program DbusType} {list : List α}
    (hcreate : ∀ i ∈ list, Hoare (Holds esig) (create i)
      (fun item a => Holds esig a ∧ item.signature = esig) (Holds esig)) (pos : Nat) :
    Hoare (Holds esig) (insertEach create pos list) (fun _ => Holds esig) (Holds esig) := by
  induction list generalizing pos with
  | nil => exact Hoare.pure () fun a ha => ha
  | cons i rest ih =>
    refine Hoare.bind (hcreate i List.mem_cons_self) fun item => ?_
    refine Hoare.bind (Q := fun _ => Holds esig) ?_ fun _ =>
      ih (fun i hi => hcreate i (List.mem_cons_of_mem _ hi)) (pos + 1)
    rintro a ⟨ha, hitem⟩
    exact insertItem_holds hitem pos a ha

/-- Where only the invariant is asked for. -/
theorem wellTyped_of_holds {α : Type} {m : Program α}
    (h : Hoare (Holds esig) m (fun _ => Holds esig) (Holds esig)) :
    Hoare (Holds esig) m (fun _ => WellTyped) WellTyped :=
  Hoare.consequence h (fun _ h => h) (fun _ _ h => h.wellTyped) fun _ h => h.wellTyped

/-- A function that checks first, and goes on with elements of what it found. -/
theorem checked {α : Type} {check : Program α} {esigOf : α → Bytes} {rest : α → Program Unit}
    (hcheck : Hoare WellTyped check (fun x => Holds (esigOf x)) WellTyped)
    (hrest : ∀ x, Hoare (Holds (esigOf x)) (rest x) (fun _ => Holds (esigOf x))
      (Holds (esigOf x))) :
    Hoare WellTyped (check >>= rest) (fun _ => WellTyped) WellTyped :=
  Hoare.bind hcheck fun x =>
    Hoare.consequence (hrest x) (fun _ h => h) (fun _ _ h => h.wellTyped) fun _ h => h.wellTyped

end Steps

/-! ## Constructors and member functions -/

/-- The constructors that start from no other array. -/
inductive Ctor where
  | ofSignatureText (elementSignature : Bytes)
  | ofSignatureString (elementSignature : Bytes)
  | ofTypeCode (basicTypeCode : Int)
  | ofBasics (ilist : CppList)
  | ofCStrings (ilist : List (Option Bytes))
  | ofStrings (ilist : List Bytes)
  | ofTypedCStrings (typeOfString : Int) (ilist : List (Option Bytes))
  | ofTypedStrings (typeOfString : Int) (ilist : List Bytes)

def Ctor.program : Ctor → Program Unit
  | .ofSignatureText esig => ArrayObject.ofSignatureText esig
  | .ofSignatureString esig => ArrayObject.ofSignatureString esig
  | .ofTypeCode code => ArrayObject.ofTypeCode code
  | .ofBasics ilist => ArrayObject.ofBasics ilist
  | .ofCStrings ilist => ArrayObject.ofCStrings ilist
  | .ofStrings ilist => ArrayObject.ofStrings ilist
  | .ofTypedCStrings code ilist => ArrayObject.ofTypedCStrings code ilist
  | .ofTypedStrings code ilist => ArrayObject.ofTypedStrings code ilist

/-- The member functions that no other array takes part in. -/
inductive Mutator where
  | assignBasics (rhs : CppList)
  | assignTexts (rhs : List TextArg)
  | assignOther
  | moveOther
  | pushBackItem (item : DbusType)
  | pushBackPointer (item : Option DbusType)
  | pushBackValue (value : CppValue)
  | pushBackText (value : TextArg)
  | insertOne (pos : Nat) (item : DbusType)
  | insertValue (pos : Nat) (value : CppValue)
  | insertText (pos : Nat) (value : TextArg)
  | insertCount (pos count : Nat) (item : DbusType)
  | insertRange (pos : Nat) (range : List DbusType)
  | insertBasics (pos : Nat) (ilist : CppList)
  | insertTexts (pos : Nat) (ilist : List TextArg)
  | popBack
  | erase (pos : Nat)
  | eraseRange (first last : Nat)
  | clear

def Mutator.program : Mutator → Program Unit
  | .assignBasics rhs => ArrayObject.assignBasics rhs
  | .assignTexts rhs => ArrayObject.assignTexts rhs
  | .assignOther => ArrayObject.assignOther
  | .moveOther => ArrayObject.moveOther
  | .pushBackItem item => ArrayObject.pushBackItem item
  | .pushBackPointer item => ArrayObject.pushBackPointer item
  | .pushBackValue value => ArrayObject.pushBackValue value
  | .pushBackText value => ArrayObject.pushBackText value
  | .insertOne pos item => ArrayObject.insertOne pos item
  | .insertValue pos value => ArrayObject.insertValue pos value
  | .insertText pos value => ArrayObject.insertText pos value
  | .insertCount pos count item => ArrayObject.insertCount pos count item
  | .insertRange pos range => ArrayObject.insertRange pos range
  | .insertBasics pos ilist => ArrayObject.insertBasics pos ilist
  | .insertTexts pos ilist => ArrayObject.insertTexts pos ilist
  | .popBack => ArrayObject.popBack
  | .erase pos => ArrayObject.erase pos
  | .eraseRange first last => ArrayObject.eraseRange first last
  | .clear => ArrayObject.clear

/-! ## What the checks miss -/

/-- An element signature without NUL bytes. -/
def Ctor.Fits : Ctor → Prop
  | .ofSignatureString esig => (0 : UInt8) ∉ esig
  | _ => True

/-- Values whose signatures have no NUL bytes; a range whose elements all have the element
    signature if the first one has it. -/
def Mutator.Fits (a : ArrayObject) : Mutator → Prop
  | .pushBackItem item => (0 : UInt8) ∉ item.signature
  | .pushBackPointer item => ∀ v, item = some v → (0 : UInt8) ∉ v.signature
  | .insertOne _ item => (0 : UInt8) ∉ item.signature
  | .insertCount _ _ item => (0 : UInt8) ∉ item.signature
  | .insertRange _ range =>
    ∀ first rest, range = first :: rest → (0 : UInt8) ∉ first.signature ∧
      (first.signature = a.elementSignature → ∀ v ∈ rest, v.signature = a.elementSignature)
  | _ => True

theorem checkedItem {item : DbusType} (hnul : (0 : UInt8) ∉ item.signature)
    {rest : Unit → Program Unit}
    (hrest : ∀ x, Hoare (Holds item.signature) (rest x) (fun _ => Holds item.signature)
      (Holds item.signature)) :
    Hoare WellTyped (verifyElementSignature (cStr item.signature) >>= rest)
      (fun _ => WellTyped) WellTyped := by
  rw [cStr_eq_self hnul]
  have hverify : Hoare WellTyped (verifyElementSignature item.signature)
      (fun _ => Holds item.signature) WellTyped :=
    Hoare.consequence (verifyElementSignature_holds (fun _ h => h) item.signature)
      (fun _ h => h) (fun _ _ h => h.2) fun _ h => h
  exact checked hverify hrest

theorem basic_signature {v : Basic} {t : BasicType} (h : v.type = t) :
    (DbusType.basic v).signature = [t.code] := by
  rw [DbusType.signature, h]

theorem insertRange_wellTyped (pos : Nat) (range : List DbusType) {a : ArrayObject}
    (hfits : Mutator.Fits a (.insertRange pos range)) :
    Hoare (fun s => WellTyped s ∧ s = a) (insertRange pos range) (fun _ => WellTyped)
      WellTyped := by
  cases range with
  | nil =>
    refine Hoare.pure () ?_
    rintro s ⟨hs, -⟩
    exact hs
  | cons first rest =>
    obtain ⟨hnul, hrest⟩ := hfits first rest rfl
    have hverify := verifyElementSignature_holds (P := fun s => WellTyped s ∧ s = a)
      (fun _ h => h.1) first.signature
    rw [← cStr_eq_self hnul] at hverify
    refine Hoare.bind hverify fun _ => ?_
    rintro s ⟨⟨-, rfl⟩, hs⟩
    rw [cStr_eq_self hnul] at hs
    -- The first element fits, and so do the others by assumption.
    have hall : ∀ v ∈ first :: rest, v.signature = first.signature := by
      intro v hv
      obtain rfl | hv := List.mem_cons.mp hv
      · rfl
      · rw [hrest hs.elementSignature.symm v hv, hs.elementSignature]
    have hinsert : Hoare (Holds first.signature)
        (insertEach (fun item => return item) pos (first :: rest))
        (fun _ => Holds first.signature) (Holds first.signature) :=
      insertEach_holds (fun i hi => Hoare.pure i fun b hb => ⟨hb, hall i hi⟩) pos
    exact Hoare.consequence hinsert (fun _ h => h) (fun _ _ h => h.wellTyped)
      (fun _ h => h.wellTyped) s hs

theorem holds_empty (t : BasicType) : Holds [t.code] ⟨[dbusTypeArray, t.code], []⟩ where
  sig := rfl
  valid := by cases t <;> decide
  homogeneous := fun p hp => absurd hp List.not_mem_nil

/-- Loops over what has been checked, or chosen, to be of the type `t`. -/
theorem emplaceEach_holds {t : BasicType} {values : List Basic} (h : ∀ v ∈ values, v.type = t) :
    Hoare (Holds [t.code]) (values.forM fun i => emplaceBack (.basic i))
      (fun _ => Holds [t.code]) (Holds [t.code]) :=
  Hoare.forM fun v hv => emplaceBack_holds (basic_signature (h v hv))

theorem clear_wellTyped :
    Hoare WellTyped clear (fun _ a => WellTyped a ∧ a.items = []) WellTyped :=
  Hoare.update _ fun _ ha => ⟨⟨_, ha.holds.remove fun _ hp => absurd hp List.not_mem_nil⟩, rfl⟩

theorem assignBasics_wellTyped (rhs : CppList) :
    Hoare WellTyped (assignBasics rhs) (fun _ => WellTyped) WellTyped := by
  refine Hoare.bind clear_wellTyped fun _ => ?_
  refine Hoare.ite (fun _ => ?_) fun _ => Hoare.pure () fun a ha => ha.1
  refine Hoare.bind (Q := fun _ a => a = ⟨[dbusTypeArray], []⟩) ?_ fun _ => ?_
  · exact Hoare.update _ fun a ha => by rw [← ha.2]
  · refine Hoare.bind (Q := fun _ => Holds [rhs.type.code]) ?_ fun _ => ?_
    · refine Hoare.update _ ?_
      rintro a rfl
      exact holds_empty rhs.type
    · exact wellTyped_of_holds (emplaceEach_holds rhs.typed)

theorem emplaceTexts_wellTyped (type : TextType) (rhs : List TextArg) :
    Hoare (Holds [type.type.code])
      (rhs.forM fun i => do emplaceBack (← construct (newText type i))) (fun _ => WellTyped)
      WellTyped :=
  wellTyped_of_holds (Hoare.forM fun i _ => emplaceText_holds type i)

theorem assignTexts_wellTyped (rhs : List TextArg) :
    Hoare WellTyped (assignTexts rhs) (fun _ => WellTyped) WellTyped := by
  refine Hoare.bind clear_wellTyped fun _ => ?_
  refine Hoare.ite (fun _ => ?_) fun _ => Hoare.pure () fun a ha => ha.1
  refine Hoare.get_bind fun a ha => ?_
  cases h : TextType.ofCode? a.elementCode with
  | some type =>
    refine Hoare.consequence (emplaceTexts_wellTyped type rhs) ?_ (fun _ _ h => h) fun _ h => h
    rintro _ rfl
    exact ha.1.of_elementCode (TextType.code_of_ofCode? h)
  | none =>
    refine Hoare.bind (Q := fun _ => Holds [BasicType.string.code]) ?_ fun _ =>
      emplaceTexts_wellTyped .string rhs
    refine Hoare.update _ ?_
    rintro _ rfl
    rw [ha.2]
    exact holds_empty .string

/-- Removing elements. -/
theorem remove_wellTyped {f : List (Option DbusType) → List (Option DbusType)}
    (h : ∀ items p, p ∈ f items → p ∈ items) :
    Hoare WellTyped (modify fun a => { a with items := f a.items } : Program Unit)
      (fun _ => WellTyped) WellTyped :=
  Hoare.update _ fun a ha => ⟨_, ha.holds.remove (h a.items)⟩

/-- What one call leaves behind, whether it returns or throws. -/
theorem Mutator.program_wellTyped (m : Mutator) {a : ArrayObject} (hfits : m.Fits a) :
    Hoare (fun s => WellTyped s ∧ s = a) m.program (fun _ => WellTyped) WellTyped := by
  by_cases hrange : ∃ pos range, m = .insertRange pos range
  · obtain ⟨pos, range, rfl⟩ := hrange
    exact insertRange_wellTyped pos range hfits
  -- All others keep the invariant whatever else is known of the array.
  suffices h : Hoare WellTyped m.program (fun _ => WellTyped) WellTyped from
    Hoare.consequence h (fun _ hs => hs.1) (fun _ _ hs => hs) fun _ hs => hs
  cases m with
  | assignBasics rhs => exact assignBasics_wellTyped rhs
  | assignTexts rhs => exact assignTexts_wellTyped rhs
  | assignOther => exact Hoare.throw _ fun _ ha => ha
  | moveOther => exact Hoare.throw _ fun _ ha => ha
  | pushBackItem item => exact checkedItem hfits fun _ => emplaceBack_holds rfl
  | pushBackPointer item =>
    cases item with
    | none => exact Hoare.pure () fun _ ha => ha
    | some item => exact checkedItem (hfits item rfl) fun _ => emplaceBack_holds rfl
  | pushBackValue value =>
    exact checked (verifyElementTypeCode_holds value.value.type) fun _ =>
      emplaceBack_holds (basic_signature rfl)
  | pushBackText value =>
    exact checked verifyElementTypeIsTypeOfString_holds fun type =>
      emplaceText_holds type value
  | insertOne pos item => exact checkedItem hfits fun _ => insertItem_holds rfl pos
  | insertValue pos value =>
    exact checked (verifyElementTypeCode_holds value.value.type) fun _ =>
      insertItem_holds (basic_signature rfl) pos
  | insertText pos value =>
    refine checked verifyElementTypeIsTypeOfString_holds fun type => ?_
    refine Hoare.bind (construct_text type value) fun item => ?_
    rintro a ⟨ha, hitem⟩
    exact insertItem_holds hitem pos a ha
  | insertCount pos count item =>
    refine checkedItem hfits fun _ => Hoare.forM fun i hi => ?_
    exact insertItem_holds (congrArg _ (List.eq_of_mem_replicate hi)) pos
  | insertRange pos range => exact absurd ⟨pos, range, rfl⟩ hrange
  | insertBasics pos ilist =>
    refine checked (verifyElementTypeCode_holds ilist.type) fun _ =>
      insertEach_holds (fun i hi => ?_) pos
    exact Hoare.pure _ fun a ha => ⟨ha, basic_signature (ilist.typed i hi)⟩
  | insertTexts pos ilist =>
    exact checked verifyElementTypeIsTypeOfString_holds fun type =>
      insertEach_holds (fun i _ => construct_text type i) pos
  | popBack => exact remove_wellTyped fun items _ hp => List.dropLast_subset items hp
  | erase pos => exact remove_wellTyped fun _ _ => List.mem_of_mem_eraseIdx
  | eraseRange first last =>
    refine remove_wellTyped (f := fun items => items.take first ++ items.drop last) ?_
    intro items p hp
    obtain hp | hp := List.mem_append.mp hp
    · exact List.mem_of_mem_take hp
    · exact List.mem_of_mem_drop hp
  | clear =>
    exact Hoare.consequence clear_wellTyped (fun _ h => h) (fun _ _ h => h.1) fun _ h => h

theorem ofSignature_wellTyped {esig : Bytes} (hnul : (0 : UInt8) ∉ esig) :
    Hoare (· = initial)
      (do modify fun a => { a with sig := a.sig ++ esig }
          validateSignature)
      (fun _ => WellTyped) fun _ => True := by
  refine Hoare.bind (Q := fun _ a => a = ⟨dbusTypeArray :: esig, []⟩) ?_ fun _ => ?_
  · refine Hoare.update _ ?_
    rintro _ rfl
    rfl
  · refine Hoare.get_bind ?_
    rintro a rfl
    refine Hoare.ite (fun _ => Hoare.throw _ fun _ _ => trivial) fun hvalid => Hoare.pure () ?_
    rintro _ rfl
    have hsig : (0 : UInt8) ∉ dbusTypeArray :: esig := by
      simpa [List.mem_cons] using ⟨by decide, hnul⟩
    rw [cStr_eq_self hsig, Bool.not_eq_true', Bool.not_eq_false] at hvalid
    exact ⟨esig, rfl, hvalid, fun p hp => absurd hp List.not_mem_nil⟩

theorem textTypeOfInt_initial (code : Int) :
    Hoare (· = initial) (textTypeOfInt code) (fun _ a => a = initial) fun _ => True := by
  unfold textTypeOfInt
  split
  case h_1 type _ => exact Hoare.pure type fun _ ha => ha
  case h_2 => exact Hoare.throw _ fun _ _ => trivial

theorem loop_wellTyped {esig : Bytes} {m : Program Unit}
    (h : Hoare (Holds esig) m (fun _ => Holds esig) (Holds esig)) :
    Hoare (Holds esig) m (fun _ => WellTyped) fun _ => True :=
  Hoare.consequence h (fun _ h => h) (fun _ _ h => h.wellTyped) fun _ _ => trivial

/-- An array that gets its elements before its element signature. -/
structure Pending (code : UInt8) (a : ArrayObject) : Prop where
  sig : a.sig = [dbusTypeArray]
  elements : ∀ p ∈ a.items, ∃ v : DbusType, p = some v ∧ v.signature = [code]

theorem emplaceText_pending (type : TextType) (value : TextArg) :
    Hoare (Pending type.type.code) (do emplaceBack (← construct (newText type value)))
      (fun _ => Pending type.type.code) (Pending type.type.code) := by
  refine Hoare.bind (construct_text type value) fun item => Hoare.update _ ?_
  rintro a ⟨ha, hitem⟩
  refine ⟨ha.sig, fun p hp => ?_⟩
  obtain hp | hp := List.mem_append.mp hp
  · exact ha.elements p hp
  · exact ⟨item, List.mem_singleton.mp hp, hitem⟩

/-- What a constructor makes, if it returns. -/
theorem Ctor.program_wellTyped (c : Ctor) (hfits : c.Fits) :
    Hoare (· = initial) c.program (fun _ => WellTyped) fun _ => True := by
  have hempty : ∀ {t : BasicType}, Hoare (· = initial) (pushSig t.code)
      (fun _ => Holds [t.code]) fun _ => True := by
    intro t
    refine Hoare.update _ ?_
    rintro _ rfl
    exact holds_empty t
  cases c with
  | ofSignatureText esig => exact ofSignature_wellTyped nul_notMem_cStr
  | ofSignatureString esig => exact ofSignature_wellTyped hfits
  | ofTypeCode code =>
    simp only [Ctor.program, ArrayObject.ofTypeCode]
    split
    case h_1 type _ =>
      exact Hoare.consequence hempty (fun _ h => h) (fun _ _ h => h.wellTyped) fun _ h => h
    case h_2 => exact Hoare.throw _ fun _ _ => trivial
  | ofBasics ilist =>
    exact Hoare.bind hempty fun _ => loop_wellTyped (emplaceEach_holds ilist.typed)
  | ofCStrings ilist =>
    refine Hoare.bind (hempty (t := .string)) fun _ => loop_wellTyped (Hoare.forM fun i _ => ?_)
    exact Hoare.ite (fun _ => emplaceBack_holds rfl) fun _ => Hoare.pure () fun _ ha => ha
  | ofStrings ilist =>
    exact Hoare.bind (hempty (t := .string)) fun _ =>
      loop_wellTyped (Hoare.forM fun i _ => emplaceBack_holds rfl)
  | ofTypedCStrings code ilist =>
    refine Hoare.bind (textTypeOfInt_initial code) fun type => ?_
    refine Hoare.bind (hempty (t := type.type)) fun _ => loop_wellTyped (Hoare.forM fun i _ => ?_)
    exact Hoare.ite (fun _ => emplaceText_holds type _) fun _ => Hoare.pure () fun _ ha => ha
  | ofTypedStrings code ilist =>
    refine Hoare.bind (textTypeOfInt_initial code) fun type => ?_
    refine Hoare.bind (Q := fun _ => Pending type.type.code) ?_ fun _ => ?_
    · refine Hoare.consequence (Hoare.forM fun i _ => emplaceText_pending type _) ?_
        (fun _ _ h => h) fun _ _ => trivial
      rintro _ rfl
      exact ⟨rfl, fun p hp => absurd hp List.not_mem_nil⟩
    · refine Hoare.update _ fun a ha => ?_
      rw [ha.sig]
      exact ⟨[type.type.code], (holds_empty type.type).sig, (holds_empty type.type).valid,
        ha.elements⟩

/-- The array as a value that another array may take in. -/
def toDbusType (a : ArrayObject) : DbusType := .array a.sig a.items.reduceOption

end ArrayObject

/-! ## Runs -/

/-- All arrays there are, wherever they live, in the order in which they were constructed. -/
abbrev ArrayStore := List ArrayObject

namespace ArrayStore

open ArrayObject (Ctor Mutator WellTyped)
open Hoare (Each)

/-- A call, with the arrays that take part in it by their places in the store. -/
inductive Call where
  | construct (ctor : Ctor)
  | copyConstruct (other : Nat)
  | moveConstruct (other : Nat)
  | assign (target rhs : Nat)
  | moveAssign (target rhs : Nat)
  | mutate (target : Nat) (m : Mutator)
  -- `push_back (dbus_type&&)` and `insert (const_iterator, dbus_type&&)` on another array
  | pushBackMoved (target item : Nat)
  | insertMoved (target pos item : Nat)

/-- A call that takes in the array `item` as an element: the elements of `item` go with it
    once the check has let it through. -/
def takeIn (s : ArrayStore) (target item : Nat)
    (m : DbusType → ArrayObject.Program Unit) : Option ArrayStore := do
  let a ← s[target]?
  let b ← s[item]?
  match m b.toDbusType a with
  | .ok _ a => return (s.set item { b with items := [] }).set target a
  | .error _ a => return s.set target a

def step (s : ArrayStore) : Call → Option ArrayStore
  | .construct ctor =>
    match ctor.program ArrayObject.initial with
    | .ok _ a => some (s ++ [a])
    | .error _ _ => some s
  | .copyConstruct other => do
    let b ← s[other]?
    return s ++ [b]
  | .moveConstruct other => do
    let b ← s[other]?
    return s.set other { b with items := [] } ++ [b]
  | .assign target rhs => do
    let _ ← s[target]?
    let b ← s[rhs]?
    return s.set target b
  | .moveAssign target rhs => do
    let _ ← s[target]?
    let b ← s[rhs]?
    -- The array on the right keeps its signature, and nothing happens to one on both sides.
    return (s.set rhs { b with items := [] }).set target b
  | .mutate target m => do
    let a ← s[target]?
    return s.set target (m.program.finalState a)
  | .pushBackMoved target item => takeIn s target item ArrayObject.pushBackItem
  | .insertMoved target pos item => takeIn s target item (ArrayObject.insertOne pos)

/-- Any sequence of calls, starting with no arrays. -/
def system : TransitionSystem ArrayStore Call where
  init s := s = []
  step := step

/-- The arguments of the call are of the kind that the checks are made for. -/
def Fits (s : ArrayStore) : Call → Prop
  | .construct ctor => ctor.Fits
  | .mutate target m => ∀ a, s[target]? = some a → m.Fits a
  | _ => True

/-! ## Every array keeps elements of its own type -/

theorem wellTyped_emptied {a : ArrayObject} (h : WellTyped a) :
    WellTyped { a with items := [] } :=
  ⟨_, h.holds.remove fun _ hp => absurd hp List.not_mem_nil⟩

/-- The signature of an array that is well typed stops no check short. -/
theorem nul_notMem_signature {a : ArrayObject} (h : WellTyped a) :
    (0 : UInt8) ∉ a.toDbusType.signature := by
  obtain ⟨esig, h⟩ := h
  exact nul_not_mem_of_validateSingle h.valid

theorem takeIn_wellTyped {s s' : ArrayStore} (h : Each WellTyped s) {target item : Nat}
    {m : DbusType → ArrayObject.Program Unit}
    (hm : ∀ v : DbusType, (0 : UInt8) ∉ v.signature →
      Hoare WellTyped (m v) (fun _ => WellTyped) WellTyped)
    (hstep : takeIn s target item m = some s') : Each WellTyped s' := by
  simp only [takeIn, bind, Option.bind_eq_some_iff] at hstep
  obtain ⟨a, ha, b, hb, hstep⟩ := hstep
  have hrun := hm b.toDbusType (nul_notMem_signature (h.get hb)) a (h.get ha)
  cases hresult : m b.toDbusType a with
  | ok _ a' =>
    rw [hresult] at hrun hstep
    obtain rfl := Option.some.inj hstep
    exact (h.set (wellTyped_emptied (h.get hb)) item).set hrun target
  | error _ a' =>
    rw [hresult] at hrun hstep
    obtain rfl := Option.some.inj hstep
    exact h.set hrun target

/-- One call keeps the invariant, whether it returns or throws. -/
theorem step_wellTyped {s s' : ArrayStore} (h : Each WellTyped s) {call : Call}
    (hfits : Fits s call) (hstep : step s call = some s') : Each WellTyped s' := by
  cases call with
  | construct ctor =>
    have hrun := ctor.program_wellTyped hfits ArrayObject.initial rfl
    simp only [step] at hstep
    cases hresult : ctor.program ArrayObject.initial with
    | ok _ a =>
      rw [hresult] at hrun hstep
      obtain rfl := Option.some.inj hstep
      exact h.concat hrun
    | error _ _ =>
      rw [hresult] at hstep
      obtain rfl := Option.some.inj hstep
      exact h
  | copyConstruct other =>
    simp only [step, bind, Option.bind_eq_some_iff] at hstep
    obtain ⟨b, hb, hstep⟩ := hstep
    obtain rfl := Option.some.inj hstep
    exact h.concat (h.get hb)
  | moveConstruct other =>
    simp only [step, bind, Option.bind_eq_some_iff] at hstep
    obtain ⟨b, hb, hstep⟩ := hstep
    obtain rfl := Option.some.inj hstep
    exact (h.set (wellTyped_emptied (h.get hb)) other).concat (h.get hb)
  | assign target rhs =>
    simp only [step, bind, Option.bind_eq_some_iff] at hstep
    obtain ⟨_, -, b, hb, hstep⟩ := hstep
    obtain rfl := Option.some.inj hstep
    exact h.set (h.get hb) target
  | moveAssign target rhs =>
    simp only [step, bind, Option.bind_eq_some_iff] at hstep
    obtain ⟨_, -, b, hb, hstep⟩ := hstep
    obtain rfl := Option.some.inj hstep
    exact (h.set (wellTyped_emptied (h.get hb)) rhs).set (h.get hb) target
  | mutate target m =>
    simp only [step, bind, Option.bind_eq_some_iff] at hstep
    obtain ⟨a, ha, hstep⟩ := hstep
    obtain rfl := Option.some.inj hstep
    exact h.set ((m.program_wellTyped (hfits a ha)).finalState ⟨h.get ha, rfl⟩) target
  | pushBackMoved target item =>
    exact takeIn_wellTyped h (fun v hv => ArrayObject.checkedItem hv fun _ =>
      ArrayObject.emplaceBack_holds rfl) hstep
  | insertMoved target pos item =>
    exact takeIn_wellTyped h (fun v hv => ArrayObject.checkedItem hv fun _ =>
      ArrayObject.insertItem_holds rfl pos) hstep

/-- In every run whose calls get arguments of the kind the checks are made for, every array
    holds elements of its element signature and no null pointers. -/
theorem homogeneous_of_reachable {s : ArrayStore} (h : system.ReachableWhen Fits s) :
    ∀ a ∈ s, a.Homogeneous := by
  have hwell : Each WellTyped s := by
    apply h.invariant
    case initial =>
      rintro s rfl a ha
      cases ha
    case preserved =>
      intro s call s' hinv hfits hstep
      exact step_wellTyped hinv hfits hstep
  intro a ha
  obtain ⟨esig, hesig⟩ := hwell a ha
  exact hesig.homogeneous

/-- A push that throws, and a range that does not. -/
theorem homogeneous_run :
    ArrayObject.Homogeneous ⟨text "ai", [some (.basic (.int32 1)), some (.basic (.int32 2))]⟩ := by
  refine homogeneous_of_reachable (TransitionSystem.reachableWhen_of_run
    [.construct (.ofSignatureString (text "i")),
      .mutate 0 (.pushBackItem (.basic (.string (text "x")))),
      .mutate 0 (.insertRange 0 [.basic (.int32 1), .basic (.int32 2)])] rfl ?_ rfl)
    _ (List.mem_singleton_self _)
  refine ⟨?_, ?_, ?_, trivial⟩
  · show (0 : UInt8) ∉ text "i"
    decide
  · rintro a ⟨⟩
    show (0 : UInt8) ∉ (DbusType.basic (.string (text "x"))).signature
    decide
  · rintro a ⟨⟩ first rest ⟨⟩
    refine ⟨by decide, fun _ v hv => ?_⟩
    obtain rfl := List.mem_singleton.mp hv
    rfl

/-- Only the first element of a range is checked, and an element signature with a NUL byte
    is validated up to that byte. -/
theorem range_not_homogeneous :
    (system.Reachable [⟨text "ai", [some (.basic (.int32 1)), some (.basic (.string []))]⟩] ∧
        ¬ ArrayObject.Homogeneous
          ⟨text "ai", [some (.basic (.int32 1)), some (.basic (.string []))]⟩) ∧
      system.Reachable [⟨text "ai" ++ [0], [some (.basic (.int32 1))]⟩] ∧
        ¬ ArrayObject.Homogeneous ⟨text "ai" ++ [0], [some (.basic (.int32 1))]⟩ := by
  refine ⟨⟨?_, ?_⟩, ?_, ?_⟩
  · exact TransitionSystem.reachable_of_run
      [.construct (.ofSignatureText (text "i")),
        .mutate 0 (.insertRange 0 [.basic (.int32 1), .basic (.string [])])] rfl rfl
  · intro h
    obtain ⟨v, hv, hsig⟩ := h (some (.basic (.string []))) (by simp)
    cases hv
    exact absurd hsig (by decide)
  · exact TransitionSystem.reachable_of_run
      [.construct (.ofSignatureString (text "i" ++ [0])),
        .mutate 0 (.pushBackValue ⟨.int32 1, rfl⟩)] rfl rfl
  · intro h
    obtain ⟨v, hv, hsig⟩ := h (some (.basic (.int32 1))) (by simp)
    cases hv
    exact absurd hsig (by decide)

end ArrayStore

end Ultrabus
