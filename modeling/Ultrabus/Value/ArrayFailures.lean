import Ultrabus.Value.ArrayInsertion

/-! # What an array holds after an operation that throws

Every function checks its argument before it touches the array, except for those that take a
list of texts: they construct the elements one by one. -/

namespace Ultrabus

/-- The texts in front of the first one that the class does not accept. -/
def TextType.acceptedPrefix (type : TextType) (texts : List TextArg) : List TextArg :=
  texts.takeWhile fun t => type.Accepts t

namespace ArrayObject

/-- Where the program throws `std::invalid_argument` the array is what it was. -/
def KeepsOnThrow (m : Program Unit) (a : ArrayObject) : Prop :=
  ∀ what b, m a = .error (.invalidArgument what) b → b = a

/-- The iterator that a function is given, if any, is one into the array. -/
def Mutator.Positioned (a : ArrayObject) : Mutator → Prop
  | .insertOne pos _ | .insertValue pos _ | .insertText pos _ | .insertCount pos _ _
  | .insertRange pos _ | .insertBasics pos _ | .insertTexts pos _ => pos ≤ a.items.length
  | _ => True

/-- The element that is made of a text. -/
def textItem (type : TextType) (t : TextArg) : DbusType := .basic (type.value t.kept)

/-- If there is a text in a list that the class of the elements does not accept, then nothing
    is inserted in front of it, and what is assigned in front of it is what the array holds. -/
def Mutator.NothingToUndo (a : ArrayObject) : Mutator → Prop
  | .insertTexts _ ilist => ∀ type, TextType.ofCode? a.elementCode = some type →
    (∃ t ∈ ilist, ¬ type.Accepts t) → type.acceptedPrefix ilist = []
  | .assignTexts rhs => ∀ type, TextType.ofCode? a.elementCode = some type →
    (∃ t ∈ rhs, ¬ type.Accepts t) →
      a.items = (type.acceptedPrefix rhs).map fun t => some (textItem type t)
  | _ => True

/-! ## Functions that throw before they touch the array -/

theorem KeepsOnThrow.of_hoare {m : Program Unit} {a : ArrayObject}
    (h : Hoare (· = a) m (fun _ _ => True) (· = a)) : KeepsOnThrow m a := by
  intro what b hrun
  have hb := h a rfl
  rwa [hrun] at hb

/-- The program does not throw. -/
abbrev NeverThrows {α : Type} (m : Program α) : Prop :=
  Hoare (fun _ => True) m (fun _ _ => True) fun _ => False

theorem emplaceBack_neverThrows (item : DbusType) : NeverThrows (emplaceBack item) :=
  Hoare.update _ fun _ _ => trivial

theorem insertItem_neverThrows (pos : Nat) (item : DbusType) :
    NeverThrows (insertItem pos item) :=
  Hoare.update _ fun _ _ => trivial

theorem insertEach_neverThrows {α : Type} {create : α → Program DbusType}
    (hcreate : ∀ i, NeverThrows (create i)) (pos : Nat) (list : List α) :
    NeverThrows (insertEach create pos list) := by
  induction list generalizing pos with
  | nil => exact Hoare.pure () fun _ _ => trivial
  | cons i rest ih =>
    exact Hoare.bind (hcreate i) fun item =>
      Hoare.bind (insertItem_neverThrows pos item) fun _ => ih (pos + 1)

/-- A check that leaves the array alone, and then what does not throw. -/
theorem KeepsOnThrow.checked {α : Type} {check : Program α} {rest : α → Program Unit}
    {a : ArrayObject} (hcheck : Hoare (· = a) check (fun _ b => b = a) (· = a))
    (hrest : ∀ x, NeverThrows (rest x)) : KeepsOnThrow (check >>= rest) a := by
  apply KeepsOnThrow.of_hoare
  refine Hoare.bind hcheck fun x => ?_
  exact Hoare.consequence (hrest x) (fun _ _ => trivial) (fun _ _ h => h) fun _ h => h.elim

theorem NeverThrows.keepsOnThrow {m : Program Unit} (h : NeverThrows m) (a : ArrayObject) :
    KeepsOnThrow m a :=
  KeepsOnThrow.of_hoare <|
    Hoare.consequence h (fun _ _ => trivial) (fun _ _ h => h) fun _ h => h.elim

/-- One text, which is constructed before it goes in. -/
theorem oneText_keepsOnThrow (a : ArrayObject) (t : TextArg) {rest : DbusType → Program Unit}
    (hrest : ∀ item, NeverThrows (rest item)) :
    KeepsOnThrow (do
      let type ← verifyElementTypeIsTypeOfString
      rest (← construct (newText type t))) a := by
  apply KeepsOnThrow.of_hoare
  refine Hoare.bind (verifyElementTypeIsTypeOfString_keeps a) fun type => ?_
  have hconstruct := construct_text (I := (· = a)) type t
  refine Hoare.bind (hconstruct.consequence (fun _ h => h.1) (fun _ _ h => h) fun _ h => h)
    fun item => ?_
  exact Hoare.consequence (hrest item) (fun _ _ => trivial) (fun _ _ h => h) fun _ h => h.elim

theorem assignBasics_neverThrows (rhs : CppList) : NeverThrows (assignBasics rhs) := by
  refine Hoare.bind (Q := fun _ _ => True) (Hoare.update _ fun _ _ => trivial) fun _ => ?_
  refine Hoare.ite (fun _ => ?_) fun _ => Hoare.pure () fun _ _ => trivial
  refine Hoare.bind (Q := fun _ _ => True) (Hoare.update _ fun _ _ => trivial) fun _ => ?_
  refine Hoare.bind (Q := fun _ _ => True) (Hoare.update _ fun _ _ => trivial) fun _ => ?_
  exact Hoare.forM fun v _ => emplaceBack_neverThrows _

/-! ## Lists of texts -/

/-- The loop stops at the first text that is not accepted, with the others inserted. -/
theorem insertTexts_loop {type : TextType} {list : List TextArg}
    (hbad : ∃ t ∈ list, ¬ type.Accepts t) {a : ArrayObject} {pos : Nat}
    (hpos : pos ≤ a.items.length) :
    ∃ what, insertEach (fun t => construct (newText type t)) pos list a =
      .error (.invalidArgument what)
        (a.splice pos ((type.acceptedPrefix list).map (textItem type))) := by
  induction list generalizing a pos with
  | nil => simp at hbad
  | cons t rest ih =>
    by_cases ht : type.Accepts t
    · have hrest : ∃ t ∈ rest, ¬ type.Accepts t := by
        obtain ⟨t', hmem, hnot⟩ := hbad
        obtain rfl | hmem := List.mem_cons.mp hmem
        · exact absurd ht hnot
        · exact ⟨t', hmem, hnot⟩
      have hnext : pos + 1 ≤ (a.splice pos [textItem type t]).items.length := by
        rw [splice_length, List.length_singleton]
        omega
      obtain ⟨what, hrun⟩ := ih hrest hnext
      refine ⟨what, ?_⟩
      have hmade : construct (newText type t) a = .ok (textItem type t) a :=
        construct_of_accepts ht a
      rw [insertEach, EStateM.bind_of_ok hmade, EStateM.bind_of_ok (insertItem_run hpos _)]
      rw [splice_splice hpos] at hrun
      simpa [TextType.acceptedPrefix, ht] using hrun
    · obtain ⟨what, hnew⟩ := newText_of_not_accepts ht
      have hthrow : construct (newText type t) a = .error (.invalidArgument what) a := by
        rw [hnew]
        rfl
      refine ⟨what, ?_⟩
      rw [insertEach, EStateM.bind_of_error hthrow]
      simp [TextType.acceptedPrefix, ht]

/-- Appending is inserting at the end. -/
theorem emplaceEach_eq_insertEach (type : TextType) (list : List TextArg) (a : ArrayObject) :
    (list.forM fun t => do emplaceBack (← construct (newText type t))) a =
      insertEach (fun t => construct (newText type t)) a.items.length list a := by
  induction list generalizing a with
  | nil => rfl
  | cons t rest ih =>
    have hinsert : ∀ item : DbusType, emplaceBack item a = insertItem a.items.length item a := by
      intro item
      show EStateM.Result.ok () { a with items := a.items ++ [some item] } =
        .ok () { a with items := a.items.insertIdx a.items.length (some item) }
      rw [List.insertIdx_length_self]
    show ((do emplaceBack (← construct (newText type t))) >>= fun _ => rest.forM _) a = _
    rw [insertEach]
    cases hnew : newText type t with
    | error e => rfl
    | ok v =>
      have hnext := ih (a.splice a.items.length [.basic v])
      rw [splice_length] at hnext
      have hrun := insertItem_run (Nat.le_refl a.items.length) (.basic v)
      have hmade : construct (.ok v) a = .ok (.basic v) a := rfl
      rw [EStateM.bind_of_ok hmade, EStateM.bind_of_ok hrun,
        EStateM.bind_of_ok ((EStateM.bind_of_ok hmade).trans ((hinsert _).trans hrun))]
      exact hnext

/-- A list of texts that the class accepts goes in. -/
theorem insertTexts_loop_of_accepts {type : TextType} {list : List TextArg}
    (hall : ∀ t ∈ list, type.Accepts t) {a : ArrayObject} {pos : Nat}
    (hpos : pos ≤ a.items.length) :
    insertEach (fun t => construct (newText type t)) pos list a =
      .ok () (a.splice pos (list.map (textItem type))) :=
  insertEach_run (fun t ht b => construct_of_accepts (hall t ht) b) hpos

theorem insertTexts_keepsOnThrow_iff (a : ArrayObject) {pos : Nat} (hpos : pos ≤ a.items.length)
    (ilist : List TextArg) :
    KeepsOnThrow (insertTexts pos ilist) a ↔ (Mutator.insertTexts pos ilist).NothingToUndo a := by
  cases htype : TextType.ofCode? a.elementCode with
  | none =>
    refine iff_of_true ?_ fun type h => absurd (htype.symm.trans h) (by simp)
    apply KeepsOnThrow.of_hoare
    refine Hoare.bind (verifyElementTypeIsTypeOfString_keeps a) fun type => ?_
    rintro b ⟨-, h⟩
    exact absurd (htype.symm.trans h) (by simp)
  | some type =>
    have hrun : insertTexts pos ilist a =
        insertEach (fun t => construct (newText type t)) pos ilist a :=
      EStateM.bind_of_ok (verifyElementTypeIsTypeOfString_of_some htype)
    simp only [Mutator.NothingToUndo, KeepsOnThrow, hrun, htype, Option.some.injEq, forall_eq']
    by_cases hbad : ∃ t ∈ ilist, ¬ type.Accepts t
    · obtain ⟨what, hloop⟩ := insertTexts_loop hbad hpos
      simp only [hloop, hbad, true_implies]
      constructor
      · intro h
        have hsame := congrArg (·.items.length) (h _ _ rfl)
        simp only [splice_length, List.length_map] at hsame
        exact List.eq_nil_of_length_eq_zero (by omega)
      · rintro h _ b hb
        rw [h, List.map_nil, splice_nil] at hb
        cases hb
        rfl
    · have hall : ∀ t ∈ ilist, type.Accepts t := by
        simpa only [not_exists, not_and, not_not] using hbad
      rw [insertTexts_loop_of_accepts hall hpos]
      exact iff_of_true (fun _ _ h => by cases h) fun h => absurd h hbad

/-- The assignment inserts into the empty array, if it does not change its type. -/
theorem assignTexts_run {a : ArrayObject} {type : TextType}
    (htype : TextType.ofCode? a.elementCode = some type) {rhs : List TextArg} (hrhs : rhs ≠ []) :
    assignTexts rhs a =
      insertEach (fun t => construct (newText type t)) 0 rhs { a with items := [] } := by
  have hcond : (!rhs.isEmpty) = true := by
    cases rhs with
    | nil => exact absurd rfl hrhs
    | cons t rest => rfl
  have hclear : clear a = .ok () { a with items := [] } := rfl
  have hget : (get : Program ArrayObject) { a with items := [] } =
      .ok { a with items := [] } { a with items := [] } := rfl
  have htype' : TextType.ofCode? (ArrayObject.elementCode { a with items := [] }) = some type :=
    htype
  rw [assignTexts, EStateM.bind_of_ok hclear, if_pos hcond, EStateM.bind_of_ok hget]
  simp only [htype']
  exact emplaceEach_eq_insertEach type rhs { a with items := [] }

/-- Texts that are assigned to an array of another type become strings. -/
theorem assignTexts_neverThrows {a : ArrayObject} (htype : TextType.ofCode? a.elementCode = none)
    (rhs : List TextArg) : Hoare (· = a) (assignTexts rhs) (fun _ _ => True) fun _ => False := by
  refine Hoare.bind (Q := fun _ b => b.elementCode = a.elementCode) ?_ fun _ => ?_
  · refine Hoare.update _ ?_
    rintro _ rfl
    rfl
  · refine Hoare.ite (fun _ => ?_) fun _ => Hoare.pure () fun _ _ => trivial
    refine Hoare.get_bind fun b hb => ?_
    rw [hb, htype]
    refine Hoare.bind (Q := fun _ _ => True) (Hoare.update _ fun _ _ => trivial) fun _ => ?_
    exact Hoare.forM fun t _ => emplaceBack_neverThrows (.basic (newString t))

theorem assignTexts_keepsOnThrow_iff (a : ArrayObject) (rhs : List TextArg) :
    KeepsOnThrow (assignTexts rhs) a ↔ (Mutator.assignTexts rhs).NothingToUndo a := by
  cases htype : TextType.ofCode? a.elementCode with
  | none =>
    refine iff_of_true ?_ fun type h => absurd (htype.symm.trans h) (by simp)
    apply KeepsOnThrow.of_hoare
    exact (assignTexts_neverThrows htype rhs).consequence (fun _ h => h) (fun _ _ h => h)
      fun _ h => h.elim
  | some type =>
    simp only [Mutator.NothingToUndo, KeepsOnThrow, htype, Option.some.injEq, forall_eq']
    by_cases hbad : ∃ t ∈ rhs, ¬ type.Accepts t
    · obtain ⟨t, ht, -⟩ := id hbad
      obtain ⟨what, hloop⟩ := insertTexts_loop hbad (Nat.zero_le
        ({ a with items := [] } : ArrayObject).items.length)
      rw [assignTexts_run htype (List.ne_nil_of_mem ht), hloop]
      simp only [hbad, true_implies]
      constructor
      · intro h
        have hsame := congrArg ArrayObject.items (h _ _ rfl)
        simpa [splice, List.splice, Function.comp_def] using hsame.symm
      · rintro h _ b hb
        cases hb
        simp [splice, List.splice, Function.comp_def, ← h]
    · refine iff_of_true ?_ fun h => absurd h hbad
      have hall : ∀ t ∈ rhs, type.Accepts t := by
        simpa only [not_exists, not_and, not_not] using hbad
      intro what b hb
      by_cases hnil : rhs = []
      · subst hnil
        cases hb
      · rw [assignTexts_run htype hnil, insertTexts_loop_of_accepts hall (Nat.zero_le _)] at hb
        cases hb

/-- For every array, every function and every argument: the function either returns or leaves
    the array as it was, exactly if no text is made an element of before one that is not
    accepted, unless it is assigned in place of itself. -/
theorem keepsOnThrow_iff (a : ArrayObject) (m : Mutator) (hpos : m.Positioned a) :
    KeepsOnThrow m.program a ↔ m.NothingToUndo a := by
  cases m with
  | assignTexts rhs => exact assignTexts_keepsOnThrow_iff a rhs
  | insertTexts pos ilist => exact insertTexts_keepsOnThrow_iff a hpos ilist
  | assignBasics rhs =>
    exact iff_of_true ((assignBasics_neverThrows rhs).keepsOnThrow a) trivial
  | assignOther =>
    exact iff_of_true (.of_hoare (Hoare.throw _ fun _ h => h)) trivial
  | moveOther =>
    exact iff_of_true (.of_hoare (Hoare.throw _ fun _ h => h)) trivial
  | pushBackItem item =>
    exact iff_of_true (.checked (verifyElementSignature_keeps a _) fun _ =>
      emplaceBack_neverThrows item) trivial
  | pushBackPointer item =>
    cases item with
    | none => exact iff_of_true (.of_hoare (Hoare.pure () fun _ _ => trivial)) trivial
    | some item =>
      exact iff_of_true (.checked (verifyElementSignature_keeps a _) fun _ =>
        emplaceBack_neverThrows item) trivial
  | pushBackValue value =>
    exact iff_of_true (.checked (verifyElementTypeCode_keeps a _) fun _ =>
      emplaceBack_neverThrows _) trivial
  | pushBackText value =>
    exact iff_of_true (oneText_keepsOnThrow a value emplaceBack_neverThrows) trivial
  | insertOne pos item =>
    exact iff_of_true (.checked (verifyElementSignature_keeps a _) fun _ =>
      insertItem_neverThrows pos item) trivial
  | insertValue pos value =>
    exact iff_of_true (.checked (verifyElementTypeCode_keeps a _) fun _ =>
      insertItem_neverThrows pos _) trivial
  | insertText pos value =>
    exact iff_of_true (oneText_keepsOnThrow a value (insertItem_neverThrows pos)) trivial
  | insertCount pos count item =>
    exact iff_of_true (.checked (verifyElementSignature_keeps a _) fun _ =>
      Hoare.forM fun _ _ => insertItem_neverThrows pos _) trivial
  | insertRange pos range =>
    have hloop : NeverThrows (insertEach (fun item => return item) pos range) :=
      insertEach_neverThrows (fun item => Hoare.pure item fun _ _ => trivial) pos range
    cases range with
    | nil => exact iff_of_true (hloop.keepsOnThrow a) trivial
    | cons first rest =>
      exact iff_of_true (.checked (verifyElementSignature_keeps a _) fun _ => hloop) trivial
  | insertBasics pos ilist =>
    exact iff_of_true (.checked (verifyElementTypeCode_keeps a _) fun _ =>
      insertEach_neverThrows (fun i => Hoare.pure _ fun _ _ => trivial) pos ilist.values) trivial
  | popBack => exact iff_of_true (.of_hoare (Hoare.update _ fun _ _ => trivial)) trivial
  | erase pos => exact iff_of_true (.of_hoare (Hoare.update _ fun _ _ => trivial)) trivial
  | eraseRange first last =>
    exact iff_of_true (.of_hoare (Hoare.update _ fun _ _ => trivial)) trivial
  | clear => exact iff_of_true (.of_hoare (Hoare.update _ fun _ _ => trivial)) trivial

/-- Nothing is inserted at the end of an array if the first text is not accepted. -/
theorem keepsOnThrow_iff_insert :
    KeepsOnThrow (insertTexts 1 [.string (text "x"), .string (text "/b")])
      ⟨text "ao", [some (.basic (.objectPath (text "/a")))]⟩ := by
  have hpos : (Mutator.insertTexts 1 [.string (text "x"), .string (text "/b")]).Positioned
      ⟨text "ao", [some (.basic (.objectPath (text "/a")))]⟩ := Nat.le_refl 1
  refine (keepsOnThrow_iff _ _ hpos).mpr fun type htype _ => ?_
  obtain rfl := Option.some.inj htype
  decide

/-- The list is assigned to after its elements are gone, and what is inserted in front of the
    text that is not accepted stays. -/
theorem not_keepsOnThrow :
    ¬ KeepsOnThrow (assignTexts [.string (text "x")])
        ⟨text "ao", [some (.basic (.objectPath (text "/a")))]⟩ ∧
      ¬ KeepsOnThrow (insertTexts 0 [.string (text "/b"), .string (text "x")])
        ⟨text "ao", [some (.basic (.objectPath (text "/a")))]⟩ := by
  constructor
  · intro h
    have hkept := h _ _ rfl
    simp at hkept
  · intro h
    have hkept := h _ _ rfl
    simp at hkept

end ArrayObject

end Ultrabus
