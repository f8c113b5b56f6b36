import Ultrabus.Value.ArrayInvariant

/-! # Insertion into an array

Every overload of `dbus_array::insert` puts what it is given, in its order, behind the elements
in front of the iterator, and returns an iterator to that place. -/

/-! ## Splicing -/

namespace List

variable {α : Type*}

/-- The list with `ys` behind its first `pos` elements. -/
def splice (xs : List α) (pos : Nat) (ys : List α) : List α := xs.take pos ++ ys ++ xs.drop pos

@[simp]
theorem splice_nil (xs : List α) (pos : Nat) : xs.splice pos [] = xs := by
  rw [splice, append_nil, take_append_drop]

@[simp]
theorem length_splice (xs : List α) (pos : Nat) (ys : List α) :
    (xs.splice pos ys).length = xs.length + ys.length := by
  simp only [splice, length_append, length_take, length_drop]
  omega

theorem insertIdx_eq_splice {xs : List α} {pos : Nat} (h : pos ≤ xs.length) (y : α) :
    xs.insertIdx pos y = xs.splice pos [y] := by
  induction pos generalizing xs with
  | zero => simp [splice]
  | succ pos ih =>
    cases xs with
    | nil => simp at h
    | cons x xs =>
      rw [insertIdx_succ_cons, ih (by simpa using h)]
      simp [splice]

/-- What goes in first, and then the others behind it. -/
theorem splice_insertIdx {xs : List α} {pos : Nat} (h : pos ≤ xs.length) (y : α) (ys : List α) :
    (xs.insertIdx pos y).splice (pos + 1) ys = xs.splice pos (y :: ys) := by
  have htake : (xs.take pos ++ [y]).length = pos + 1 := by
    rw [length_append, length_take_of_le h, length_singleton]
  rw [insertIdx_eq_splice h, splice, splice, take_left' htake, drop_left' htake]
  simp only [splice, append_assoc, cons_append, nil_append]

/-- What goes in first, and then the others in front of it. -/
theorem splice_insertIdx_self {xs : List α} {pos : Nat} (h : pos ≤ xs.length) (y : α)
    (ys : List α) : (xs.insertIdx pos y).splice pos ys = xs.splice pos (ys ++ [y]) := by
  have htake : (xs.take pos).length = pos := length_take_of_le h
  rw [insertIdx_eq_splice h]
  simp only [splice, append_assoc, take_left' htake, drop_left' htake]

end List

namespace Ultrabus

namespace ArrayObject

/-- The overloads of `insert`, with what they are given. -/
inductive Insertion where
  -- `const dbus_type&` and `dbus_type&&`
  | one (item : DbusType)
  -- `const T&` and `T&&`
  | value (value : CppValue)
  -- `const char*`, `const std::string&` and `std::string&&`
  | text (value : TextArg)
  | count (count : Nat) (item : DbusType)
  | range (range : List DbusType)
  -- `std::initializer_list<T>`
  | basics (ilist : CppList)
  -- `std::initializer_list<const char*>` and `std::initializer_list<const std::string>`
  | texts (ilist : List TextArg)

/-- `iterator (items.insert (pos.iter, item))`. -/
def insertAt (pos : Nat) (item : DbusType) : Program Nat := do
  insertItem pos item
  return pos

namespace Insertion

/-- `insert` at the index of `pos`, with the index of the iterator that it returns. -/
def program (pos : Nat) : Insertion → Program Nat
  | .one item => do
    verifyElementSignature (cStr item.signature)
    insertAt pos item
  | .value v => do
    verifyElementTypeCode v.value.type
    insertAt pos (.basic v.value)
  | .text t => do
    let type ← verifyElementTypeIsTypeOfString
    insertAt pos (← construct (newText type t))
  | .count n item => do
    insertCount pos n item
    return pos
  -- `ret_idx` stays at `pos` while the loops advance `idx`.
  | .range r => do
    insertRange pos r
    return pos
  | .basics ilist => do
    insertBasics pos ilist
    return pos
  | .texts ilist => do
    insertTexts pos ilist
    return pos

/-- The same overload among the member functions. -/
def mutator (pos : Nat) : Insertion → Mutator
  | .one item => .insertOne pos item
  | .value v => .insertValue pos v
  | .text t => .insertText pos t
  | .count n item => .insertCount pos n item
  | .range r => .insertRange pos r
  | .basics ilist => .insertBasics pos ilist
  | .texts ilist => .insertTexts pos ilist

theorem program_eq (pos : Nat) (ins : Insertion) :
    ins.program pos = (do (ins.mutator pos).program; return pos) := by
  cases ins with
  | one item =>
    simp only [program, mutator, Mutator.program, insertOne, insertAt, bind_assoc]
  | value v =>
    simp only [program, mutator, Mutator.program, insertValue, insertAt, bind_assoc]
  | text t =>
    simp only [program, mutator, Mutator.program, insertText, insertAt, bind_assoc]
  | count n item => rfl
  | range r => rfl
  | basics ilist => rfl
  | texts ilist => rfl

/-- The items that are inserted: they have the element type, and the texts among them are
    texts of its class. -/
inductive Inserts (esig : Bytes) : Insertion → List DbusType → Prop where
  | one {item : DbusType} : item.signature = esig → Inserts esig (.one item) [item]
  | value {v : CppValue} : [v.value.type.code] = esig →
      Inserts esig (.value v) [.basic v.value]
  | text {type : TextType} {t : TextArg} : [type.type.code] = esig → type.Accepts t →
      Inserts esig (.text t) [.basic (type.value t.kept)]
  | count {n : Nat} {item : DbusType} : (∀ y ∈ List.replicate n item, y.signature = esig) →
      Inserts esig (.count n item) (List.replicate n item)
  | range {range : List DbusType} : (∀ y ∈ range, y.signature = esig) →
      Inserts esig (.range range) range
  | basics {ilist : CppList} : (∀ v ∈ ilist.values, [v.type.code] = esig) →
      Inserts esig (.basics ilist) (ilist.values.map .basic)
  | texts {ilist : List TextArg} {type : TextType} :
      (∀ t ∈ ilist, [type.type.code] = esig ∧ type.Accepts t) →
      Inserts esig (.texts ilist) (ilist.map fun t => .basic (type.value t.kept))

/-- What the overload checks, also where it inserts nothing, is the element type. -/
def OfElementType (esig : Bytes) : Insertion → Prop
  | .one item | .count _ item => item.signature = esig
  | .value v => [v.value.type.code] = esig
  | .basics ilist => [ilist.type.code] = esig
  | .text _ | .texts _ => ∃ type : TextType, [type.type.code] = esig
  | .range _ => True

end Insertion

/-- The array with items put in behind its first `pos` elements. -/
def splice (a : ArrayObject) (pos : Nat) (ys : List DbusType) : ArrayObject :=
  { a with items := a.items.splice pos (ys.map some) }

@[simp]
theorem splice_nil (a : ArrayObject) (pos : Nat) : a.splice pos [] = a := by
  simp [splice]

theorem splice_length (a : ArrayObject) (pos : Nat) (ys : List DbusType) :
    (a.splice pos ys).items.length = a.items.length + ys.length := by
  simp [splice]

/-! ## The checks -/

theorem verifyElementSignature_of_eq {a : ArrayObject} {esig : Bytes}
    (h : a.elementSignature = esig) : verifyElementSignature esig a = .ok () a := by
  rw [verifyElementSignature_run, if_neg (not_not.mpr h)]

theorem verifyElementTypeCode_run (type : BasicType) (a : ArrayObject) :
    verifyElementTypeCode type a =
      if a.elementCode ≠ type.code then .error (wrongSignature [type.code] a) a else .ok () a := by
  by_cases h : a.elementCode ≠ type.code
  · rw [if_pos h]
    exact congrFun (if_pos h) a
  · rw [if_neg h]
    exact congrFun (if_neg h) a

theorem verifyElementSignature_keeps (a : ArrayObject) (esig : Bytes) :
    Hoare (· = a) (verifyElementSignature esig) (fun _ b => b = a) (· = a) := by
  refine Hoare.get_bind ?_
  rintro _ rfl
  exact Hoare.ite (fun _ => Hoare.throw _ fun b hb => hb) fun _ => Hoare.pure () fun b hb => hb

theorem verifyElementTypeCode_keeps (a : ArrayObject) (type : BasicType) :
    Hoare (· = a) (verifyElementTypeCode type) (fun _ b => b = a) (· = a) := by
  refine Hoare.get_bind ?_
  rintro _ rfl
  exact Hoare.ite (fun _ => Hoare.throw _ fun b hb => hb) fun _ => Hoare.pure () fun b hb => hb

theorem verifyElementTypeCode_of_eq {a : ArrayObject} {type : BasicType}
    (h : [type.code] = a.elementSignature) : verifyElementTypeCode type a = .ok () a := by
  have hcode : a.elementCode = type.code := by
    show a.elementSignature.headD 0 = type.code
    rw [← h, List.headD_cons]
  rw [verifyElementTypeCode_run, if_neg (not_not.mpr hcode)]

theorem verifyElementTypeIsTypeOfString_of_some {a : ArrayObject} {type : TextType}
    (h : TextType.ofCode? a.elementCode = some type) :
    verifyElementTypeIsTypeOfString a = .ok type a := by
  have hget : (get : Program ArrayObject) a = .ok a a := rfl
  rw [verifyElementTypeIsTypeOfString, EStateM.bind_of_ok hget]
  simp only [h]
  rfl

theorem verifyElementTypeIsTypeOfString_keeps (a : ArrayObject) :
    Hoare (· = a) verifyElementTypeIsTypeOfString
      (fun type b => b = a ∧ TextType.ofCode? a.elementCode = some type) (· = a) := by
  refine Hoare.get_bind fun s hs => ?_
  subst hs
  cases htype : TextType.ofCode? s.elementCode with
  | none => exact Hoare.throw _ fun b hb => hb
  | some type => exact Hoare.pure type fun b hb => ⟨hb, rfl⟩

/-! ## The loops -/

theorem insertItem_run {a : ArrayObject} {pos : Nat} (h : pos ≤ a.items.length)
    (item : DbusType) : insertItem pos item a = .ok () (a.splice pos [item]) := by
  show EStateM.Result.ok () { a with items := a.items.insertIdx pos (some item) } = _
  rw [List.insertIdx_eq_splice h]
  rfl

/-- What goes in before the rest of a list. -/
theorem splice_splice {a : ArrayObject} {pos : Nat} (h : pos ≤ a.items.length) (y : DbusType)
    (ys : List DbusType) : (a.splice pos [y]).splice (pos + 1) ys = a.splice pos (y :: ys) := by
  simp only [splice, List.map_cons, List.map_nil, ← List.insertIdx_eq_splice h,
    List.splice_insertIdx h]

/-- What goes in in front of what went in before. -/
theorem splice_splice_self {a : ArrayObject} {pos : Nat} (h : pos ≤ a.items.length)
    (y : DbusType) (ys : List DbusType) :
    (a.splice pos [y]).splice pos ys = a.splice pos (ys ++ [y]) := by
  simp only [splice, List.map_append, List.map_cons, List.map_nil,
    ← List.insertIdx_eq_splice h, List.splice_insertIdx_self h]

/-- Copies that go in at one place. -/
theorem insertCopies_run {a : ArrayObject} {pos : Nat} (h : pos ≤ a.items.length) (n : Nat)
    (item : DbusType) : (List.replicate n item).forM (insertItem pos) a =
      .ok () (a.splice pos (List.replicate n item)) := by
  induction n generalizing a with
  | zero =>
    rw [List.replicate_zero, splice_nil]
    rfl
  | succ n ih =>
    have hnext : pos ≤ (a.splice pos [item]).items.length := by
      rw [splice_length]
      omega
    have hrest := ih hnext
    rw [splice_splice_self h, ← List.replicate_succ'] at hrest
    exact (EStateM.bind_of_ok (insertItem_run h item)).trans hrest

/-- A loop over elements that all give an item. -/
theorem insertEach_run {α : Type} {create : α → Program DbusType} {make : α → DbusType}
    {list : List α} (hcreate : ∀ i ∈ list, ∀ a, create i a = .ok (make i) a) {a : ArrayObject}
    {pos : Nat} (h : pos ≤ a.items.length) :
    insertEach create pos list a = .ok () (a.splice pos (list.map make)) := by
  induction list generalizing a pos with
  | nil => rw [List.map_nil, splice_nil]; rfl
  | cons i rest ih =>
    have hnext : pos + 1 ≤ (a.splice pos [make i]).items.length := by
      rw [splice_length, List.length_singleton]
      omega
    have hrest := ih (fun i hi => hcreate i (List.mem_cons_of_mem _ hi)) hnext
    rw [insertEach, EStateM.bind_of_ok (hcreate i List.mem_cons_self a),
      EStateM.bind_of_ok (insertItem_run h _), hrest, splice_splice h, List.map_cons]

theorem construct_of_accepts {type : TextType} {t : TextArg} (h : type.Accepts t)
    (a : ArrayObject) :
    construct (newText type t) a = .ok (.basic (type.value t.kept)) a := by
  rw [newText_of_accepts h]
  rfl

/-! ## Every overload -/

namespace Insertion

/-- An overload whose check succeeds inserts its items. -/
theorem program_of_elementType {a : ArrayObject} (h : WellTyped a) {pos : Nat}
    (hpos : pos ≤ a.items.length) {ins : Insertion} {ys : List DbusType}
    (hys : ins.Inserts a.elementSignature ys) (htype : ins.OfElementType a.elementSignature) :
    ins.program pos a = .ok pos (a.splice pos ys) := by
  have hnul : (0 : UInt8) ∉ a.elementSignature := by
    have hsig := nul_not_mem_of_validateSingle h.holds.valid
    rw [h.holds.sig] at hsig
    exact fun hmem => hsig (List.mem_cons_of_mem _ hmem)
  -- The checks pass, and so the functions come to their loops with the array as it was.
  have hitem : ∀ item : DbusType, item.signature = a.elementSignature →
      verifyElementSignature (cStr item.signature) a = .ok () a := by
    intro item hsig
    rw [hsig, cStr_eq_self hnul]
    exact verifyElementSignature_of_eq rfl
  have htext : ∀ type : TextType, [type.type.code] = a.elementSignature →
      verifyElementTypeIsTypeOfString a = .ok type a := by
    intro type hsig
    apply verifyElementTypeIsTypeOfString_of_some
    rw [show a.elementCode = a.elementSignature.headD 0 from rfl, ← hsig, List.headD_cons,
      TextType.ofCode?_code]
  rw [program_eq]
  suffices hrun : (ins.mutator pos).program a = .ok () (a.splice pos ys) from
    EStateM.bind_of_ok hrun
  cases hys with
  | one hsig =>
    exact (EStateM.bind_of_ok (hitem _ hsig)).trans (insertItem_run hpos _)
  | value hsig =>
    exact (EStateM.bind_of_ok (verifyElementTypeCode_of_eq hsig)).trans (insertItem_run hpos _)
  | text hsig haccepts =>
    refine (EStateM.bind_of_ok (htext _ hsig)).trans ?_
    exact (EStateM.bind_of_ok (construct_of_accepts haccepts a)).trans (insertItem_run hpos _)
  | count _ =>
    exact (EStateM.bind_of_ok (hitem _ htype)).trans (insertCopies_run hpos _ _)
  | range hsig =>
    have hloop : insertEach (fun item => return item) pos ys a =
        .ok () (a.splice pos (ys.map id)) := insertEach_run (fun _ _ _ => rfl) hpos
    rw [List.map_id] at hloop
    cases ys with
    | nil => exact hloop
    | cons first rest =>
      exact (EStateM.bind_of_ok (hitem first (hsig first List.mem_cons_self))).trans hloop
  | basics hsig =>
    refine (EStateM.bind_of_ok (verifyElementTypeCode_of_eq htype)).trans ?_
    exact insertEach_run (fun _ _ _ => rfl) hpos
  | @texts ilist type hsig =>
    obtain ⟨type', htype⟩ := htype
    refine (EStateM.bind_of_ok (htext _ htype)).trans (insertEach_run ?_ hpos)
    intro t ht b
    obtain ⟨hcode, haccepts⟩ := hsig t ht
    -- One code is that of one string class only.
    have hsame : some type = some type' := by
      rw [← TextType.ofCode?_code type, ← TextType.ofCode?_code type',
        List.singleton_injective (hcode.trans htype.symm)]
    obtain rfl := Option.some.inj hsame
    exact construct_of_accepts haccepts b

theorem return_pos {a : ArrayObject} {pos : Nat} {m : Program Unit}
    (h : Hoare (· = a) m (fun _ b => b = a) (· = a)) :
    Hoare (· = a) (do m; return pos) (fun it b => it = pos ∧ b = a) (· = a) :=
  Hoare.bind h fun _ => Hoare.pure pos fun _ hb => ⟨rfl, hb⟩

/-- Where the items do not tell the element type there are none, and nothing happens. -/
theorem program_of_not_elementType {a : ArrayObject} (pos : Nat) {ins : Insertion}
    {ys : List DbusType} (hys : ins.Inserts a.elementSignature ys)
    (htype : ¬ ins.OfElementType a.elementSignature) :
    ys = [] ∧ Hoare (· = a) (ins.program pos) (fun it b => it = pos ∧ b = a) (· = a) := by
  cases hys with
  | one hsig => exact absurd hsig htype
  | value hsig => exact absurd hsig htype
  | text hsig _ => exact absurd ⟨_, hsig⟩ htype
  | range _ => exact absurd trivial htype
  | @count n item hsig =>
    cases n with
    | succ n => exact absurd (hsig item (by simp)) htype
    | zero =>
      refine ⟨rfl, return_pos ?_⟩
      exact Hoare.bind (verifyElementSignature_keeps a _) fun _ => Hoare.pure () fun b hb => hb
  | @basics ilist hsig =>
    have hnil : ilist.values = [] := by
      apply List.eq_nil_iff_forall_not_mem.mpr
      intro v hv
      have htyped := hsig v hv
      rw [ilist.typed v hv] at htyped
      exact htype htyped
    refine ⟨by rw [hnil, List.map_nil], return_pos ?_⟩
    refine Hoare.bind (verifyElementTypeCode_keeps a _) fun _ => ?_
    rw [hnil]
    exact Hoare.pure () fun b hb => hb
  | @texts ilist type hsig =>
    cases ilist with
    | cons t rest => exact absurd ⟨type, (hsig t List.mem_cons_self).1⟩ htype
    | nil =>
      refine ⟨rfl, return_pos ?_⟩
      exact Hoare.bind (verifyElementTypeIsTypeOfString_keeps a) fun _ =>
        Hoare.pure () fun b hb => hb.1

end Insertion

/-- Insertion is splicing: behind the first `pos` elements come the items in their order, and
    then the other elements.  The iterator that is returned is at `pos`; none is only where
    nothing is to be inserted and the overload finds its argument to be of another type. -/
theorem insert_splices {a : ArrayObject} (h : WellTyped a) {pos : Nat}
    (hpos : pos ≤ a.items.length) {ins : Insertion} {ys : List DbusType}
    (hys : ins.Inserts a.elementSignature ys) :
    ((ins.program pos).finalState a).sig = a.sig ∧
      ((ins.program pos).finalState a).items =
        a.items.take pos ++ ys.map some ++ a.items.drop pos ∧
      (∀ it b, ins.program pos a = .ok it b → it = pos) ∧
      (ys ≠ [] ∨ ins.OfElementType a.elementSignature →
        ∃ b, ins.program pos a = .ok pos b) := by
  by_cases htype : ins.OfElementType a.elementSignature
  · have hrun := ins.program_of_elementType h hpos hys htype
    simp only [EStateM.finalState, hrun, EStateM.Result.ok.injEq]
    refine ⟨rfl, rfl, ?_, fun _ => ⟨_, trivial, rfl⟩⟩
    exact fun it b hit => hit.1.symm
  · obtain ⟨rfl, hkeeps⟩ := Insertion.program_of_not_elementType pos hys htype
    have hfinal : (ins.program pos).finalState a = a :=
      Hoare.finalState (hkeeps.consequence (fun _ h => h) (fun _ _ h => h.2) fun _ h => h) rfl
    refine ⟨by rw [hfinal], by simp [hfinal], ?_, ?_⟩
    · intro it b hit
      have hreturned := hkeeps a rfl
      rw [hit] at hreturned
      exact hreturned.1
    · intro h
      exact absurd h (by simp [htype])

/-- Two paths go in front of the last one. -/
theorem insert_splices_paths :
    (((Insertion.texts [.string (text "/b"), .cString (some (text "/c"))]).program 1).finalState
        ⟨text "ao", [some (.basic (.objectPath (text "/a"))),
          some (.basic (.objectPath (text "/d")))]⟩).items =
      [some (.basic (.objectPath (text "/a"))), some (.basic (.objectPath (text "/b"))),
        some (.basic (.objectPath (text "/c"))), some (.basic (.objectPath (text "/d")))] := by
  refine (insert_splices ⟨text "o", rfl, by decide, ?_⟩ (by decide)
    (@Insertion.Inserts.texts _ _ .objectPath ?_)).2.1
  · simp [Homogeneous, DbusType.signature, elementSignature]
    decide
  · decide

end ArrayObject

end Ultrabus
