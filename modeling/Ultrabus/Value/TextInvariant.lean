import Ultrabus.Lib.Hoare
import Ultrabus.Lib.Transition
import Ultrabus.Value.Basic

/-! # What object paths and signatures hold

`TextStore.system` runs any sequence of constructions and assignments of `dbus_opath` and
`dbus_signature` objects.  The checks see a text up to its first NUL byte, and `clear`, which
comes from `dbus_string`, makes no check at all. -/

namespace Ultrabus

/-- The classes derived from `dbus_string`. -/
inductive TextClass where
  | opath | signature
deriving DecidableEq, Repr

def TextClass.type : TextClass → TextType
  | .opath => .objectPath
  | .signature => .signature

/-- An object of one of the classes, with its `basic_value`. -/
structure TextObject where
  kind : TextClass
  basicValue : Bytes

namespace TextObject

/-- The text is a valid object path, or a valid signature. -/
def Valid (o : TextObject) : Prop := o.kind.type.Content o.basicValue

instance (o : TextObject) : Decidable o.Valid :=
  inferInstanceAs (Decidable (o.kind.type.Content o.basicValue))

/-- The default constructors. -/
def default : TextClass → TextObject
  | .opath => ⟨.opath, text "/"⟩
  | .signature => ⟨.signature, []⟩

def invalidText : TextClass → Exception
  | .opath => .invalidArgument (text "Invalid object path")
  | .signature => .invalidArgument (text "Invalid DBus signature")

/-- The constructors, and the assignment operators, that take a `const char*`, the `str` of a
    `DBusBasicValue` or a `std::string`. -/
def ofText (kind : TextClass) (value : TextArg) : Except Exception TextObject :=
  if kind.type.Accepts value then .ok ⟨kind, value.kept⟩ else .error (invalidText kind)

/-- The source of a move: `dbus_opath` sets it to the root path, `dbus_signature` leaves what the
    library leaves in a `std::string` that is moved from. -/
def movedFrom (leftover : Bytes) (o : TextObject) : TextObject :=
  match o.kind with
  | .opath => { o with basicValue := text "/" }
  | .signature => { o with basicValue := leftover }

def toBasic (o : TextObject) : Basic := o.kind.type.value o.basicValue

/-- The constructors are those that make the elements of an array or the values of a dict. -/
theorem toBasic_ofText (kind : TextClass) (value : TextArg) :
    (ofText kind value).map toBasic = newText kind.type value := by
  by_cases h : kind.type.Accepts value
  · rw [newText_of_accepts h, ofText, if_pos h]
    rfl
  · rw [ofText, if_neg h]
    cases value with
    | cString value =>
      cases value with
      | none => cases kind <;> rfl
      | some value =>
        cases kind <;> exact (if_neg fun hvalid => h (.inr ⟨_, rfl, hvalid⟩)).symm
    | string value =>
      cases kind <;> exact (if_neg fun hvalid => h (.inr ⟨_, rfl, hvalid⟩)).symm

end TextObject

/-- All objects there are, in the order in which they were constructed. -/
abbrev TextStore := List TextObject

namespace TextStore

open Hoare (Each)

/-- A construction, an assignment or a call of `clear`, with the objects that take part in it by
    their places in the store. -/
inductive Call where
  | construct (kind : TextClass)
  | constructText (kind : TextClass) (value : TextArg)
  -- copy constructor and `clone`
  | copyConstruct (other : Nat)
  -- move constructor and `clone_move`
  | moveConstruct (other : Nat) (leftover : Bytes)
  | assignText (target : Nat) (value : TextArg)
  -- `operator=` on objects of the classes and on references to `dbus_type`
  | assign (target rhs : Nat)
  | moveAssign (target rhs : Nat) (leftover : Bytes)
  -- `operator= (const dbus_type&)` and `operator= (dbus_type&&)` on any other value
  | assignOther (target : Nat)
  | clear (target : Nat)

/-- A call that throws leaves everything as it was. -/
def step (s : TextStore) : Call → Option TextStore
  | .construct kind => some (s ++ [.default kind])
  | .constructText kind value =>
    match TextObject.ofText kind value with
    | .ok o => some (s ++ [o])
    | .error _ => some s
  | .copyConstruct other => do
    let o ← s[other]?
    return s ++ [o]
  | .moveConstruct other leftover => do
    let o ← s[other]?
    return s.set other (o.movedFrom leftover) ++ [o]
  | .assignText target value => do
    let o ← s[target]?
    match TextObject.ofText o.kind value with
    | .ok o => return s.set target o
    | .error _ => return s
  | .assign target rhs => do
    let o ← s[target]?
    let r ← s[rhs]?
    if o.kind = r.kind then return s.set target r else return s
  | .moveAssign target rhs leftover => do
    let o ← s[target]?
    let r ← s[rhs]?
    if o.kind = r.kind ∧ target ≠ rhs then
      return (s.set rhs (r.movedFrom leftover)).set target r
    else return s
  | .assignOther target => do
    let _ ← s[target]?
    return s
  | .clear target => do
    let o ← s[target]?
    return s.set target { o with basicValue := [] }

/-- Any sequence of calls, starting with no objects. -/
def system : TransitionSystem TextStore Call where
  init s := s = []
  step := step

end TextStore

/-- A `std::string` without NUL bytes; a C string ends at the first one. -/
def TextArg.NulFree : TextArg → Prop
  | .cString _ => True
  | .string value => (0 : UInt8) ∉ value

/-- No text that passes its check goes on behind a NUL byte, no path is cleared, and the library
    leaves a valid signature in a signature that is moved from. -/
def TextStore.KeepsValid (s : TextStore) : Call → Prop
  | .constructText kind value => kind.type.Accepts value → value.NulFree
  | .assignText target value =>
    ∀ o, s[target]? = some o → o.kind.type.Accepts value → value.NulFree
  | .moveConstruct other leftover =>
    ∀ o, s[other]? = some o → o.kind = .signature → dbusSignatureValidate leftover = true
  | .moveAssign target rhs leftover =>
    ∀ o, s[target]? = some o → ∀ r, s[rhs]? = some r → o.kind = r.kind → target ≠ rhs →
      r.kind = .signature → dbusSignatureValidate leftover = true
  | .clear target => ∀ o, s[target]? = some o → o.kind = .signature
  | _ => True

/-! ## Texts with NUL bytes -/

theorem nul_notMem_of_validPathElements {start : Bool} {s : Bytes}
    (h : validPathElements start s = true) : (0 : UInt8) ∉ s := by
  induction s generalizing start with
  | nil => simp
  | cons b rest ih =>
    simp only [validPathElements] at h
    by_cases hb : b = '/'.toUInt8
    · rw [if_pos hb, Bool.and_eq_true] at h
      have hnul : (0 : UInt8) ≠ b := by
        rw [hb]
        decide
      simpa [hnul] using ih h.2
    · rw [if_neg hb, Bool.and_eq_true] at h
      have hnul : (0 : UInt8) ≠ b := by
        rintro rfl
        exact absurd h.1 (by decide)
      simpa [hnul] using ih h.2

/-- A text that a value of the classes may have has no NUL bytes. -/
theorem TextClass.nul_notMem {kind : TextClass} {s : Bytes} (h : kind.type.Content s) :
    (0 : UInt8) ∉ s := by
  cases kind with
  | opath =>
    cases s with
    | nil => simp
    | cons b rest =>
      simp only [TextClass.type, TextType.Content, dbusValidatePath, Bool.and_eq_true,
        decide_eq_true_eq, Bool.or_eq_true, List.isEmpty_iff] at h
      obtain ⟨rfl, rfl | hrest⟩ := h
      · decide
      · have hnul := nul_notMem_of_validPathElements hrest
        simp only [List.mem_cons, not_or]
        exact ⟨by decide, hnul⟩
  | signature =>
    obtain ⟨types, rfl, -⟩ := (validate_iff s).mp h
    exact SigType.nul_not_mem_renderAll types

/-- Of a text that passes its check what is kept is valid if there is no NUL byte in it. -/
theorem TextClass.content_kept_iff {kind : TextClass} {value : TextArg}
    (h : kind.type.Accepts value) : kind.type.Content value.kept ↔ value.NulFree := by
  have hchecked : ∃ s, value.checked? = some s ∧ kind.type.Content s := by
    obtain hstring | hchecked := h
    · cases kind <;> cases hstring
    · exact hchecked
  obtain ⟨s, hs, hcontent⟩ := hchecked
  cases value with
  | cString value =>
    obtain ⟨value, rfl, rfl⟩ := Option.map_eq_some_iff.mp hs
    exact iff_of_true hcontent trivial
  | string value =>
    obtain rfl := Option.some.inj hs
    constructor
    · exact fun hkept => TextClass.nul_notMem hkept
    · intro hnul
      rwa [cStr_eq_self hnul] at hcontent

/-! ## Every object is valid -/

theorem TextObject.default_valid (kind : TextClass) : (TextObject.default kind).Valid := by
  cases kind <;> decide

theorem TextObject.movedFrom_valid_iff (leftover : Bytes) (o : TextObject) :
    (o.movedFrom leftover).Valid ↔
      (o.kind = .signature → dbusSignatureValidate leftover = true) := by
  cases o with
  | mk kind basicValue =>
    cases kind with
    | opath => exact iff_of_true (TextObject.default_valid .opath) (by simp)
    | signature => exact ⟨fun h _ => h, fun h => h rfl⟩

theorem TextObject.cleared_valid_iff (o : TextObject) :
    ({ o with basicValue := [] } : TextObject).Valid ↔ o.kind = .signature := by
  cases o with
  | mk kind basicValue =>
    cases kind with
    | opath => exact iff_of_false (fun h => by cases h) (by simp)
    | signature => exact iff_of_true (TextObject.default_valid .signature) rfl

/-- A text that is accepted makes a valid object exactly if there is no NUL byte in it. -/
theorem TextObject.ofText_cases (kind : TextClass) (value : TextArg) :
    (∃ o, ofText kind value = .ok o ∧ (o.Valid ↔ (kind.type.Accepts value → value.NulFree))) ∨
      (∃ e, ofText kind value = .error e ∧ ¬ kind.type.Accepts value) := by
  by_cases haccepts : kind.type.Accepts value
  · refine .inl ⟨⟨kind, value.kept⟩, if_pos haccepts, ?_⟩
    rw [TextObject.Valid, TextClass.content_kept_iff haccepts]
    exact ⟨fun hnul _ => hnul, fun hnul => hnul haccepts⟩
  · exact .inr ⟨_, if_neg haccepts, haccepts⟩

namespace TextStore

open TextObject (Valid)
open Hoare (Each)

section Stores

variable {s : TextStore} (h : Each Valid s)

include h

theorem concat_valid_iff (o : TextObject) : Each Valid (s ++ [o]) ↔ o.Valid :=
  ⟨fun hall => hall o (List.mem_append_right s List.mem_cons_self), fun ho => h.concat ho⟩

theorem set_valid_iff {i : Nat} {old : TextObject} (hi : s[i]? = some old) (o : TextObject) :
    Each Valid (s.set i o) ↔ o.Valid := by
  constructor
  · intro hall
    apply hall o
    obtain ⟨hlt, -⟩ := List.getElem?_eq_some_iff.mp hi
    exact List.mem_set hlt o
  · exact fun ho => h.set ho i

end Stores

/-- One call leaves only valid texts exactly if its argument is as `KeepsValid` says. -/
theorem step_valid_iff {s s' : TextStore} (h : Each Valid s) {call : Call}
    (hstep : step s call = some s') : Each Valid s' ↔ KeepsValid s call := by
  cases call with
  | construct kind =>
    obtain rfl := Option.some.inj hstep
    exact iff_of_true (h.concat (TextObject.default_valid kind)) trivial
  | constructText kind value =>
    simp only [step] at hstep
    obtain ⟨o, hmade, hvalid⟩ | ⟨e, hmade, hrefused⟩ := TextObject.ofText_cases kind value
    · rw [hmade] at hstep
      obtain rfl := Option.some.inj hstep
      exact (concat_valid_iff h o).trans hvalid
    · rw [hmade] at hstep
      obtain rfl := Option.some.inj hstep
      exact iff_of_true h fun haccepts => absurd haccepts hrefused
  | copyConstruct other =>
    simp only [step, bind, Option.bind_eq_some_iff] at hstep
    obtain ⟨o, ho, hstep⟩ := hstep
    obtain rfl := Option.some.inj hstep
    exact iff_of_true (h.concat (h.get ho)) trivial
  | moveConstruct other leftover =>
    simp only [step, bind, Option.bind_eq_some_iff] at hstep
    obtain ⟨o, ho, hstep⟩ := hstep
    obtain rfl := Option.some.inj hstep
    simp only [KeepsValid, ho, Option.some.injEq, forall_eq']
    rw [← TextObject.movedFrom_valid_iff]
    constructor
    · intro hall
      apply (set_valid_iff h ho _).mp
      exact fun o' ho' => hall o' (List.mem_append_left _ ho')
    · exact fun hmoved => (h.set hmoved other).concat (h.get ho)
  | assignText target value =>
    simp only [step, bind, Option.bind_eq_some_iff] at hstep
    obtain ⟨old, hold, hstep⟩ := hstep
    simp only [KeepsValid, hold, Option.some.injEq, forall_eq']
    obtain ⟨o, hmade, hvalid⟩ | ⟨e, hmade, hrefused⟩ := TextObject.ofText_cases old.kind value
    · rw [hmade] at hstep
      obtain rfl := Option.some.inj hstep
      exact (set_valid_iff h hold o).trans hvalid
    · rw [hmade] at hstep
      obtain rfl := Option.some.inj hstep
      exact iff_of_true h fun haccepts => absurd haccepts hrefused
  | assign target rhs =>
    simp only [step, bind, Option.bind_eq_some_iff] at hstep
    obtain ⟨o, -, r, hr, hstep⟩ := hstep
    refine iff_of_true ?_ trivial
    by_cases hkind : o.kind = r.kind
    · rw [if_pos hkind] at hstep
      obtain rfl := Option.some.inj hstep
      exact h.set (h.get hr) target
    · rw [if_neg hkind] at hstep
      obtain rfl := Option.some.inj hstep
      exact h
  | moveAssign target rhs leftover =>
    simp only [step, bind, Option.bind_eq_some_iff] at hstep
    obtain ⟨o, ho, r, hr, hstep⟩ := hstep
    simp only [KeepsValid, ho, hr, Option.some.injEq, forall_eq']
    by_cases hmoves : o.kind = r.kind ∧ target ≠ rhs
    · rw [if_pos hmoves] at hstep
      obtain rfl := Option.some.inj hstep
      rw [← TextObject.movedFrom_valid_iff]
      constructor
      · intro hall _ _
        -- The object on the right is still there after the assignment to the other one.
        apply hall
        obtain ⟨hlt, -⟩ := List.getElem?_eq_some_iff.mp hr
        apply List.mem_of_getElem? (i := rhs)
        rw [List.getElem?_set_ne hmoves.2, List.getElem?_set_self hlt]
      · exact fun hmoved => (h.set (hmoved hmoves.1 hmoves.2) rhs).set (h.get hr) target
    · rw [if_neg hmoves] at hstep
      obtain rfl := Option.some.inj hstep
      exact iff_of_true h fun hkind hne => absurd ⟨hkind, hne⟩ hmoves
  | assignOther target =>
    simp only [step, bind, Option.bind_eq_some_iff] at hstep
    obtain ⟨_, -, hstep⟩ := hstep
    obtain rfl := Option.some.inj hstep
    exact iff_of_true h trivial
  | clear target =>
    simp only [step, bind, Option.bind_eq_some_iff] at hstep
    obtain ⟨o, ho, hstep⟩ := hstep
    obtain rfl := Option.some.inj hstep
    simp only [KeepsValid, ho, Option.some.injEq, forall_eq']
    rw [set_valid_iff h ho, TextObject.cleared_valid_iff]

/-- In every run whose calls are as `KeepsValid` says, failing or not, every object path and every
    signature is a valid one. -/
theorem valid_of_reachable {s : TextStore} (h : system.ReachableWhen KeepsValid s) :
    ∀ o ∈ s, o.Valid := by
  change Each Valid s
  apply h.invariant
  case initial =>
    rintro s rfl o ho
    cases ho
  case preserved =>
    intro s call s' hinv hkeeps hstep
    exact (step_valid_iff hinv hstep).mpr hkeeps

/-- A path that is moved from, and a text that is refused. -/
def movedRun : List Call :=
  [.constructText .opath (.string (text "/a")), .moveConstruct 0 [],
    .assignText 0 (.cString (some (text "x")))]

theorem movedRun_allowed : system.AllowedRun KeepsValid [] movedRun := by
  refine ⟨fun _ => ?_, ?_, ?_, trivial⟩
  · show (0 : UInt8) ∉ text "/a"
    decide
  · rintro o ⟨⟩ hkind
    cases hkind
  · rintro o ⟨⟩ _
    trivial

theorem movedRun_valid :
    TextObject.Valid ⟨.opath, text "/"⟩ ∧ TextObject.Valid ⟨.opath, text "/a"⟩ := by
  have hrun : system.run [] movedRun = some [⟨.opath, text "/"⟩, ⟨.opath, text "/a"⟩] := rfl
  have hvalid := valid_of_reachable
    (TransitionSystem.reachableWhen_of_run movedRun rfl movedRun_allowed hrun)
  exact ⟨hvalid _ (by simp), hvalid _ (by simp)⟩

/-- A path that is cleared, and one with a NUL byte in it. -/
theorem not_valid :
    (system.Reachable [⟨.opath, []⟩] ∧ ¬ TextObject.Valid ⟨.opath, []⟩) ∧
      system.Reachable [⟨.opath, text "/a" ++ [0]⟩] ∧
        ¬ TextObject.Valid ⟨.opath, text "/a" ++ [0]⟩ := by
  refine ⟨⟨?_, by decide⟩, ?_, by decide⟩
  · exact TransitionSystem.reachable_of_run [.construct .opath, .clear 0] rfl rfl
  · exact TransitionSystem.reachable_of_run
      [.constructText .opath (.string (text "/a" ++ [0]))] rfl rfl

end TextStore

end Ultrabus
