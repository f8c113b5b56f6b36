import Ultrabus.Value.DictInvariant
import Ultrabus.Value.Objects

/-! # A dict is a map

Every overload of `dbus_dict::set` followed by every overload of `dbus_dict::get`.  What is
set is what is found, the other keys keep their values, and a call that is refused leaves
the dict and the pointer that it was given alone. -/

namespace Ultrabus

/-! ## Copying into a target -/

/-- `operator= (const dbus_type&)`. -/
def DbusType.copyAssign (target rhs : DbusType) : Except Exception DbusType :=
  match target with
  | .basic target => (DbusObject.copyBasic target rhs).map .basic
  | .array _ _ =>
    match rhs with
    | .array sig items => .ok (.array sig items)
    | _ => .error (DbusObject.cannotAssign (text "dbus_array"))
  | .struct _ _ =>
    match rhs with
    | .struct sig items => .ok (.struct sig items)
    | _ => .error (DbusObject.cannotAssign (text "dbus_struct"))
  | .dict key _ _ =>
    match rhs with
    | .dict key' sig items => if key' = key then .ok (.dict key sig items) else .error .badCast
    | _ => .error (DbusObject.cannotAssign (text "dbus_dict"))
  | .variant _ => .ok (DbusVariant.ofPointer (some rhs))

/-- Copies of objects are copies of the values that they show. -/
theorem DbusObject.view_copyAssign (target rhs : DbusObject) :
    (target.copyAssign rhs).map view = target.view.copyAssign rhs.view := by
  cases target with
  | basic target =>
    show ((copyBasic target rhs.view).map basic).map view = (copyBasic target rhs.view).map .basic
    cases copyBasic target rhs.view <;> rfl
  | array sig items | struct sig items =>
    cases rhs with
    | array sig' items' | struct sig' items' =>
      simp only [copyAssign, view, DbusType.copyAssign, Except.map, viewItems_refilled]
    | _ => rfl
  | dict key sig items =>
    cases rhs with
    | dict key' sig' items' =>
      simp only [copyAssign, view, DbusType.copyAssign]
      split <;> simp only [Except.map, view, viewEntries_refilled]
    | _ => rfl
  | variant value | emptyVariant =>
    exact congrArg Except.ok ((view_wrapped _).trans (by rw [view_refilled]))

theorem copyBasic_eq_ok_iff (target value : Basic) (rhs : DbusType) :
    DbusObject.copyBasic target rhs = .ok value ↔ target.moveAssign rhs = .ok value := by
  cases hown : target.type.ownAssignment? with
  | none => simp only [DbusObject.copyBasic, hown]
  | some className =>
    cases rhs with
    | basic value' =>
      simp only [DbusObject.copyBasic, Basic.moveAssign, hown]
      split <;> simp
    | _ => simp [DbusObject.copyBasic, Basic.moveAssign, hown]

/-- The two ways of assigning differ in the texts of their exceptions only. -/
theorem DbusType.copyAssign_eq_ok_iff (target rhs v : DbusType) :
    target.copyAssign rhs = .ok v ↔ target.moveAssign rhs = .ok v := by
  cases target with
  | basic target =>
    have hbasic := fun value => copyBasic_eq_ok_iff target value rhs
    simp only [copyAssign, moveAssign]
    cases hcopy : DbusObject.copyBasic target rhs with
    | ok value => rw [(hbasic value).mp hcopy]
    | error e =>
      cases hmove : target.moveAssign rhs with
      | ok value =>
        rw [(hbasic value).mpr hmove] at hcopy
        cases hcopy
      | error e' => simp [Except.map]
  | array sig items | struct sig items => cases rhs <;> simp [copyAssign, moveAssign]
  | dict key sig items =>
    cases rhs with
    | dict key' sig' items' => rfl
    | _ => simp [copyAssign, moveAssign]
  | variant value => rfl

/-- A value of the same signature is copied, unless one of the two is an array and the other
    one a dict. -/
theorem DbusType.copyAssign_of_signature_eq {a b : DbusType} (ha : a.ClassFits)
    (hb : b.ClassFits) (hsig : a.signature = b.signature) (harray : a.isArray = b.isArray) :
    a.copyAssign b = .ok b :=
  (DbusType.copyAssign_eq_ok_iff a b b).mpr (DbusType.moveAssign_of_signature_eq ha hb hsig harray)

theorem DbusType.copyAssign_of_isArray_ne {a b : DbusType} (ha : a.ClassFits) (hb : b.ClassFits)
    (hsig : a.signature = b.signature) (harray : a.isArray ≠ b.isArray) (v : DbusType) :
    a.copyAssign b ≠ .ok v := by
  have hcontainer :
      (a.isArray = true ∨ a.isDict = true) ↔ (b.isArray = true ∨ b.isDict = true) := by
    rw [← firstCode_eq_array_iff, ← firstCode_eq_array_iff, ha.firstCode_eq hb hsig]
  -- One of them is an array, and so the other one is a dict.
  cases a with
  | array sig items =>
    cases b with
    | array sig' items' => exact absurd rfl harray
    | _ => simp [copyAssign]
  | dict key sig items =>
    cases b with
    | array sig' items' => simp [copyAssign]
    | _ => exact absurd rfl harray
  | _ =>
    cases b with
    | array sig' items' => simp [isArray, isDict] at hcontainer
    | _ => exact absurd rfl harray

theorem DbusType.ClassFits.signature_eq_variant_iff {v : DbusType} (h : v.ClassFits) :
    v.signature = [dbusTypeVariant] ↔ v.isVariant = true := by
  constructor
  · intro hsig
    have hhead := h.head_signature
    rw [hsig] at hhead
    have hfirst : v.firstCode = dbusTypeVariant := (Option.some.inj hhead).symm
    have harray : dbusTypeArray ≠ dbusTypeVariant := by decide
    have hstruct : dbusStructBeginChar ≠ dbusTypeVariant := by decide
    cases v with
    | basic value => exact absurd hfirst value.type.code_ne_variant
    | array sig items | dict key sig items => exact absurd hfirst harray
    | struct sig items => exact absurd hfirst hstruct
    | variant value => rfl
  · intro hvariant
    cases v with
    | variant value => rfl
    | _ => cases hvariant

theorem isCppType_string (s : Bytes) : isCppType (Basic.string s).type = true := rfl

theorem CppValue.cpp_of_type_eq (dest : CppValue) {value : Basic}
    (h : value.type = dest.value.type) : isCppType value.type = true :=
  h ▸ dest.cpp

/-- A `std::string`. -/
abbrev CppValue.ofString (s : Bytes) : CppValue := ⟨.string s, isCppType_string s⟩

namespace DictObject

/-! ## Setting -/

/-- `set (const key_type_t&, std::unique_ptr<dbus_type>&&)`, with what it leaves in the
    pointer. -/
def setUniquePtr (key : Basic) : Option DbusType → Program (Bool × Option DbusType)
  | none => return (false, none)
  | some value => do
    let d ← get
    match d.stored? value with
    | some item =>
      assignItem key item
      return (true, none)
    | none => return (false, some value)

/-- `set (const key_type_t&, const CppType&)`. -/
def setCppType (key : Basic) (value : CppValue) : Program Bool :=
  match value.value with
  | .string s => setText key (.string s)
  | _ => setCpp key value

/-- A call of one of the overloads of `set`. -/
inductive SetCall where
  | copied (key : Basic) (value : DbusType)
  | moved (key : Basic) (value : DbusType)
  | pointer (key : Basic) (value : Option DbusType)
  | copiedAnyKey (key value : DbusType)
  | movedAnyKey (key value : DbusType)
  | pointerAnyKey (key : DbusType) (value : Option DbusType)
  | cpp (key : Basic) (value : CppValue)
  | cString (key : Basic) (value : Option Bytes)

/-- What the call returns, and what is left in the pointer if it takes one. -/
def SetCall.run : SetCall → Program (Bool × Option DbusType)
  | .copied key value | .moved key value => return (← setValue key value, none)
  | .pointer key value => setUniquePtr key value
  | .copiedAnyKey key value | .movedAnyKey key value =>
    return (← setAnyKey key (setValue · value), none)
  | .pointerAnyKey key value => do
    let d ← get
    match keyOf? d.key key with
    | some key => setUniquePtr key value
    | none => return (false, value)
  | .cpp key value => return (← setCppType key value, none)
  | .cString key value => return (← setCString key value, none)

/-- The pointer that the call takes. -/
def SetCall.pointer? : SetCall → Option DbusType
  | .pointer _ value | .pointerAnyKey _ value => value
  | _ => none

/-- The key that the call sets in a dict with keys of the type. -/
def SetCall.key? (type : BasicType) : SetCall → Option Basic
  | .copied key _ | .moved key _ | .pointer key _ | .cpp key _ | .cString key _ => some key
  | .copiedAnyKey key _ | .movedAnyKey key _ | .pointerAnyKey key _ => keyOf? type key

/-! ## Getting -/

/-- `get (const key_type_t&, dbus_type&)`, with the target; `none` where the value of the
    entry is a null pointer. -/
def getValue (d : DictObject) (key : Basic) (dest : DbusType) :
    Option (Except Exception (Bool × DbusType)) :=
  match OrderedMap.lookup Basic.less key d.items with
  | none => some (.ok (false, dest))
  | some none => none
  | some (some value) =>
    if dest.isVariant || dest.signature = d.valueSignature then
      some ((dest.copyAssign value).map (true, ·))
    else
      match value with
      | .variant realValue =>
        if dest.signature = realValue.signature then
          some ((dest.copyAssign realValue).map (true, ·))
        else some (.ok (false, dest))
      | _ => some (.ok (false, dest))

/-- `get (const dbus_type&, dbus_type&)`. -/
def getAnyKey (d : DictObject) (key dest : DbusType) :
    Option (Except Exception (Bool × DbusType)) :=
  match keyOf? d.key key with
  | some key => d.getValue key dest
  | none => some (.ok (false, dest))

/-- What `get (const key_type_t&, T&)` reads from a value. -/
def toCpp? (dest : CppValue) : DbusType → Option CppValue
  | .basic realValue =>
    if dest.value.type = .string then
      match realValue with
      | .string s | .objectPath s | .signature s => some (.ofString s)
      | _ => none
    else if h : realValue.type = dest.value.type then some ⟨realValue, dest.cpp_of_type_eq h⟩
    else
      match dest.value.type, realValue with
      -- `unix_fd_t` is `int32_t`.
      | .int32, .unixFd fd => some ⟨.int32 fd, rfl⟩
      | _, _ => none
  | _ => none

/-- `get (const key_type_t&, T&)`. -/
def getCpp (d : DictObject) (key : Basic) (dest : CppValue) : Option (Bool × CppValue) :=
  match OrderedMap.lookup Basic.less key d.items with
  | none => some (false, dest)
  | some none => none
  | some (some value) =>
    let realValue :=
      match value with
      | .variant realValue => realValue
      | _ => value
    match toCpp? dest realValue with
    | some dest => some (true, dest)
    | none => some (false, dest)

/-! ## The law -/

/-- The dict has values of one type only, and each key once, in order. -/
structure IsMap (d : DictObject) : Prop where
  wellTyped : WellTyped d
  notDouble : d.key ≠ .double
  keys : ∀ i ∈ d.items, i.1.type = d.key
  sorted : OrderedMap.Sorted Basic.less d.items

/-- What is given to a dict. -/
inductive SetArg where
  | value (v : DbusType)
  | text (s : Bytes)
  | null

def SetCall.arg : SetCall → SetArg
  | .copied _ v | .moved _ v | .copiedAnyKey _ v | .movedAnyKey _ v => .value v
  | .pointer _ (some v) | .pointerAnyKey _ (some v) => .value v
  | .pointer _ none | .pointerAnyKey _ none => .null
  | .cpp _ v =>
    match v.value with
    | .string s => .text s
    | b => .value (.basic b)
  | .cString _ (some s) => .text s
  | .cString _ none => .null

/-- A dict of values of a signature can hold it. -/
inductive SetArg.Acceptable (vsig : Bytes) : SetArg → Prop where
  | same {v : DbusType} : v.signature = vsig → Acceptable vsig (.value v)
  | wrapped {v : DbusType} : vsig = [dbusTypeVariant] → Acceptable vsig (.value v)
  | text {type : TextType} {s : Bytes} : vsig = [type.type.code] → type.Content s →
      Acceptable vsig (.text s)
  | wrappedText {s : Bytes} : vsig = [dbusTypeVariant] → Acceptable vsig (.text s)

/-- What it is for a dict of values of the signature, without a variant around it. -/
def SetArg.content? (vsig : Bytes) : SetArg → Option DbusType
  | .value (.variant v) => some v
  | .value v => some v
  | .text s =>
    match TextType.ofCode? (vsig.headD 0) with
    | some type => some (.basic (type.value s))
    | none => some (.basic (.string s))
  | .null => none

/-- Values are of their classes, and texts have no NUL byte. -/
def SetArg.Fits : SetArg → Prop
  | .value v => v.ClassFits ∧ ∀ content, v = .variant content → content.ClassFits
  | .text s => (0 : UInt8) ∉ s
  | .null => True

/-- Keys of the type that the overload takes, and an argument that fits. -/
def SetCall.Fits (d : DictObject) (call : SetCall) : Prop :=
  (∀ key, call.key? d.key = some key → key.type = d.key) ∧ call.arg.Fits

/-- Both overloads of `get` with such a target return `true` with the value in it. -/
def Gets (d : DictObject) (key : Basic) (dest v : DbusType) : Prop :=
  d.getValue key dest = some (.ok (true, v)) ∧
    ∀ anyKey, keyOf? d.key anyKey = some key → d.getAnyKey anyKey dest = some (.ok (true, v))

/-- What a C++ target holds for a value: descriptors are integers, and paths and signatures
    are strings. -/
def asCpp : Basic → Basic
  | .objectPath s | .signature s => .string s
  | .unixFd fd => .int32 fd
  | v => v

/-- Targets of the type of the value, or which take any value, get it from the dict. -/
structure Finds (d : DictObject) (key : Basic) (content dest : DbusType) : Prop where
  same : dest.signature = content.signature → dest.isVariant = false → d.Gets key dest content
  variant : dest.isVariant = true → d.Gets key dest (.variant content)
  cpp : ∀ (v : Basic) (target : CppValue), content = .basic v →
    (asCpp v).type = target.value.type →
      ∃ result, d.getCpp key target = some (true, result) ∧ result.value = asCpp v

/-- The key has been set to the content, as `get` into the target shows; the other keys have
    the values that they had. -/
structure IsSet (before after : DictObject) (key : Basic) (content dest : DbusType) : Prop where
  isMap : IsMap after
  sig : after.sig = before.sig
  finds : after.Finds key content dest
  others : ∀ other, other.type = before.key → other ≠ key →
    OrderedMap.lookup Basic.less other after.items =
      OrderedMap.lookup Basic.less other before.items

/-- What the call returns, leaves in the pointer and makes of the dict. -/
structure SetsTo (d : DictObject) (call : SetCall) (dest : DbusType) (taken : Bool)
    (left : Option DbusType) (after : DictObject) : Prop where
  taken_iff : taken = true ↔
    ∃ key, call.key? d.key = some key ∧ call.arg.Acceptable d.valueSignature
  set : taken = true → ∃ key content, call.key? d.key = some key ∧
    call.arg.content? d.valueSignature = some content ∧ IsSet d after key content dest
  refused : taken = false → after = d ∧ left = call.pointer?

/-- The call sets a map and throws nothing. -/
def SetsMap (d : DictObject) (call : SetCall) (dest : DbusType) : Prop :=
  ∃ taken left after, call.run d = .ok (taken, left) after ∧
    SetsTo d call dest taken left after

/-- The call is accepted, but of its value and the target, which have one signature, one is an
    array and the other one a dict. -/
def ArrayMeetsDict (d : DictObject) (call : SetCall) (dest : DbusType) : Prop :=
  ∃ key content, call.key? d.key = some key ∧ call.arg.Acceptable d.valueSignature ∧
    call.arg.content? d.valueSignature = some content ∧ dest.signature = content.signature ∧
    dest.isArray ≠ content.isArray

/-! ## What a call stores -/

/-- The dict with a value set. -/
def store (d : DictObject) (key : Basic) (item : DbusType) : DictObject :=
  { d with items := OrderedMap.assign Basic.less key (some item) d.items }

/-- The value that is stored for an argument, if it is acceptable. -/
def SetArg.item? (d : DictObject) : SetArg → Option DbusType
  | .value v => d.stored? v
  | .text s =>
    if d.valueCode = dbusTypeVariant then some (.variant (.basic (.string s)))
    else
      match TextType.ofCode? d.valueCode with
      | some type =>
        match newText type (.string s) with
        | .ok item => some (.basic item)
        | .error _ => none
      | none => none
  | .null => none

section Stores

variable {vsig : Bytes} {d : DictObject}

theorem setValue_eq (d : DictObject) (key : Basic) (value : DbusType) :
    setValue key value d =
      match d.stored? value with
      | some item => .ok true (d.store key item)
      | none => .ok false d := by
  show (match d.stored? value with
    | some item => (do assignItem key item; return true : Program Bool)
    | none => return false) d = _
  cases d.stored? value <;> rfl

theorem setUniquePtr_eq (d : DictObject) (key : Basic) (value : DbusType) :
    setUniquePtr key (some value) d =
      match d.stored? value with
      | some item => .ok (true, none) (d.store key item)
      | none => .ok (false, some value) d := by
  show (match d.stored? value with
    | some item => (do assignItem key item; return (true, none) : Program _)
    | none => return (false, some value)) d = _
  cases d.stored? value <;> rfl

theorem setPointer_eq (d : DictObject) (key : Basic) (value : Option DbusType) :
    setPointer key value d =
      match setUniquePtr key value d with
      | .ok (taken, _) after => .ok taken after
      | .error e after => .error e after := by
  cases value with
  | none => rfl
  | some value =>
    rw [setPointer, setValue_eq, setUniquePtr_eq]
    cases d.stored? value <;> rfl

/-- The two overloads that take a text see the same text if there is no NUL byte in it. -/
theorem newText_cString {s : Bytes} (hnul : (0 : UInt8) ∉ s) (type : TextType) :
    newText type (.cString (some s)) = newText type (.string s) := by
  cases type <;> simp [newText, newString, newOpath, newSignature, cStr_eq_self hnul]

theorem newText_string_iff {s : Bytes} (hnul : (0 : UInt8) ∉ s) (type : TextType)
    (item : Basic) :
    newText type (.string s) = .ok item ↔ type.Content s ∧ type.value s = item := by
  have haccepts : type.Accepts (.string s) ↔ type.Content s := by
    simp only [TextType.Accepts, TextArg.checked?, cStr_eq_self hnul, Option.some.injEq]
    constructor
    · rintro (rfl | ⟨_, rfl, hcontent⟩)
      · trivial
      · exact hcontent
    · exact fun hcontent => .inr ⟨s, rfl, hcontent⟩
  rw [newText_eq_ok_iff, haccepts]
  rfl

theorem setText_eq (d : DictObject) (key : Basic) {s : Bytes} (hnul : (0 : UInt8) ∉ s)
    {value : TextArg} (hvalue : value = .string s ∨ value = .cString (some s)) :
    setText key value d =
      match (SetArg.text s).item? d with
      | some item => .ok true (d.store key item)
      | none => .ok false d := by
  have hnew : newString value = .string s := by
    obtain rfl | rfl := hvalue
    · rfl
    · simp [newString, cStr_eq_self hnul]
  have htext : ∀ type, newText type value = newText type (.string s) := by
    obtain rfl | rfl := hvalue
    · exact fun _ => rfl
    · exact newText_cString hnul
  show (if d.valueCode = dbusTypeVariant then _ else _ : Program Bool) d = _
  simp only [SetArg.item?]
  by_cases hvariant : d.valueCode = dbusTypeVariant
  · rw [if_pos hvariant, if_pos hvariant, hnew]
    rfl
  · rw [if_neg hvariant, if_neg hvariant]
    cases TextType.ofCode? d.valueCode with
    | none => rfl
    | some type =>
      simp only [htext]
      cases newText type (.string s) <;> rfl

theorem Holds.head_valueSignature (h : Holds vsig d) :
    d.valueSignature.head? = some dbusTypeVariant ↔ vsig = [dbusTypeVariant] := by
  rw [h.valueSignature]
  constructor
  · intro hhead
    apply h.of_variantCode
    cases vsig with
    | nil => cases hhead
    | cons c rest =>
      rw [h.valueCode]
      exact Option.some.inj hhead
  · rintro rfl
    rfl

theorem Holds.valueCode_variant (h : Holds vsig d) :
    d.valueCode = dbusTypeVariant ↔ vsig = [dbusTypeVariant] := by
  refine ⟨h.of_variantCode, fun hvsig => ?_⟩
  rw [h.valueCode, hvsig]
  rfl

theorem Holds.valueCode_basic (h : Holds vsig d) (t : BasicType) :
    d.valueCode = t.code ↔ vsig = [t.code] := by
  refine ⟨h.of_valueCode, fun hvsig => ?_⟩
  rw [h.valueCode, hvsig]
  rfl

theorem Holds.stored?_eq (h : Holds vsig d) (value : DbusType) :
    d.stored? value =
      if value.signature = vsig then some value
      else if vsig = [dbusTypeVariant] then some (DbusVariant.ofPointer (some value))
      else none := by
  simp only [stored?, h.head_valueSignature]
  rw [h.valueSignature]

theorem setCpp_eq (h : Holds vsig d) (key : Basic) (value : CppValue) :
    setCpp key value d =
      match d.stored? (.basic value.value) with
      | some item => .ok true (d.store key item)
      | none => .ok false d := by
  show (if d.valueCode = dbusTypeVariant then _ else _ : Program Bool) d = _
  rw [h.stored?_eq, DbusType.signature]
  by_cases hvariant : d.valueCode = dbusTypeVariant
  · have hvsig := h.valueCode_variant.mp hvariant
    rw [if_pos hvariant, if_neg (by rw [hvsig]; simp), if_pos hvsig]
    rfl
  · rw [if_neg hvariant, if_neg (h.valueCode_variant.not.mp hvariant)]
    by_cases hsame : d.valueCode = value.value.type.code
    · rw [if_neg (not_not.mpr hsame), if_pos ((h.valueCode_basic _).mp hsame).symm]
      rfl
    · rw [if_pos hsame, if_neg fun hvsig => hsame ((h.valueCode_basic _).mpr hvsig.symm)]
      rfl

theorem noPointer_eq (set : Program Bool) (d : DictObject) :
    (do return (← set, none) : Program (Bool × Option DbusType)) d =
      match set d with
      | .ok taken after => .ok (taken, none) after
      | .error e after => .error e after := by
  cases hset : set d with
  | ok taken after => exact EStateM.bind_of_ok hset
  | error e after => exact EStateM.bind_of_error hset

/-- Every overload stores the value under its key, or leaves everything as it is. -/
theorem SetCall.run_eq (h : Holds vsig d) {call : SetCall} (hfits : call.Fits d) :
    call.run d =
      match call.key? d.key, call.arg.item? d with
      | some key, some item => .ok (true, none) (d.store key item)
      | _, _ => .ok (false, call.pointer?) d := by
  cases call with
  | copied key v | moved key v =>
    rw [run, noPointer_eq, setValue_eq]
    simp only [key?, arg, SetArg.item?, pointer?]
    cases d.stored? v <;> rfl
  | pointer key value =>
    cases value with
    | none => rfl
    | some v =>
      rw [run, setUniquePtr_eq]
      simp only [key?, arg, SetArg.item?, pointer?]
      cases d.stored? v <;> rfl
  | copiedAnyKey key v | movedAnyKey key v =>
    rw [run, noPointer_eq]
    show (match (match keyOf? d.key key with
      | some key => setValue key v
      | none => return false : Program Bool) d with
      | .ok taken after => _
      | .error e after => _) = _
    simp only [key?, arg, SetArg.item?, pointer?]
    cases keyOf? d.key key with
    | none => rfl
    | some key =>
      simp only [setValue_eq]
      cases d.stored? v <;> rfl
  | pointerAnyKey key value =>
    show (match keyOf? d.key key with
      | some key => setUniquePtr key value
      | none => return (false, value) : Program (Bool × Option DbusType)) d = _
    simp only [key?, pointer?]
    cases keyOf? d.key key with
    | none => rfl
    | some key =>
      cases value with
      | none => rfl
      | some v =>
        simp only [setUniquePtr_eq, arg, SetArg.item?]
        cases d.stored? v <;> rfl
  | cpp key value =>
    obtain ⟨value, hcpp⟩ := value
    rw [run, noPointer_eq]
    have hargument := hfits.2
    cases value with
    | string s =>
      simp only [setCppType, setText_eq d key hargument (.inl rfl)]
      simp only [key?, arg, pointer?]
      cases (SetArg.text s).item? d <;> rfl
    | _ =>
      simp only [setCppType, setCpp_eq h]
      simp only [key?, arg, SetArg.item?, pointer?]
      cases d.stored? _ <;> rfl
  | cString key value =>
    cases value with
    | none => rfl
    | some s =>
      rw [run, noPointer_eq, setCString, setText_eq d key hfits.2 (.inr rfl)]
      simp only [key?, arg, pointer?]
      cases (SetArg.text s).item? d <;> rfl

/-- A value is stored exactly when it is acceptable. -/
theorem SetArg.item?_isSome_iff (h : Holds vsig d) {x : SetArg} (hfits : x.Fits) :
    (∃ item, x.item? d = some item) ↔ x.Acceptable vsig := by
  cases x with
  | null =>
    constructor
    · rintro ⟨item, hitem⟩
      cases hitem
    · intro hacc
      cases hacc
  | value v =>
    simp only [item?, h.stored?_eq]
    constructor
    · rintro ⟨item, hitem⟩
      split at hitem
      case isTrue hsame => exact .same hsame
      case isFalse =>
        split at hitem
        case isTrue hvariant => exact .wrapped hvariant
        case isFalse => cases hitem
    · intro hacc
      by_cases hsame : v.signature = vsig
      · exact ⟨v, if_pos hsame⟩
      · cases hacc with
        | same hsig => exact absurd hsig hsame
        | wrapped hvariant => exact ⟨_, by rw [if_neg hsame, if_pos hvariant]⟩
  | text s =>
    simp only [item?]
    constructor
    · rintro ⟨item, hitem⟩
      split at hitem
      case isTrue hvariant => exact .wrappedText (h.of_variantCode hvariant)
      case isFalse =>
        cases htype : TextType.ofCode? d.valueCode with
        | none => rw [htype] at hitem; cases hitem
        | some type =>
          rw [htype] at hitem
          cases hnew : newText type (.string s) with
          | error e => simp only [hnew] at hitem; cases hitem
          | ok new =>
            exact .text (h.of_valueCode (TextType.code_of_ofCode? htype))
              ((newText_string_iff hfits type new).mp hnew).1
    · intro hacc
      cases hacc with
      | @text type _ hvsig hcontent =>
        have hcode := (h.valueCode_basic _).mpr hvsig
        refine ⟨.basic (type.value s), ?_⟩
        rw [if_neg (by rw [hcode]; exact type.type.code_ne_variant), hcode, TextType.ofCode?_code]
        simp only [(newText_string_iff hfits type _).mpr ⟨hcontent, rfl⟩]
      | wrappedText hvsig => exact ⟨_, if_pos (h.valueCode_variant.mpr hvsig)⟩

/-- What is stored is the value itself, or a variant with it in a dict of variants. -/
theorem SetArg.content_of_item? (h : Holds vsig d) {x : SetArg} (hfits : x.Fits)
    {item : DbusType} (hitem : x.item? d = some item) :
    ∃ content, x.content? vsig = some content ∧ content.ClassFits ∧
      ((vsig = [dbusTypeVariant] ∧ item = .variant content) ∨
        (vsig ≠ [dbusTypeVariant] ∧ item = content ∧ content.isVariant = false ∧
          content.signature = vsig)) := by
  cases x with
  | null => cases hitem
  | value v =>
    simp only [item?, h.stored?_eq] at hitem
    cases v with
    | variant content =>
      refine ⟨content, rfl, hfits.2 content rfl, ?_⟩
      split at hitem
      case isTrue hsame => exact .inl ⟨hsame.symm, (Option.some.inj hitem).symm⟩
      case isFalse =>
        split at hitem
        case isTrue hvariant => exact .inl ⟨hvariant, (Option.some.inj hitem).symm⟩
        case isFalse => cases hitem
    | _ =>
      refine ⟨_, rfl, hfits.1, ?_⟩
      split at hitem
      case isTrue hsame =>
        have hvsig : vsig ≠ [dbusTypeVariant] := by
          intro hvsig
          have hvariant := hfits.1.signature_eq_variant_iff.mp (hsame.trans hvsig)
          cases hvariant
        exact .inr ⟨hvsig, (Option.some.inj hitem).symm, rfl, hsame⟩
      case isFalse =>
        split at hitem
        case isTrue hvariant => exact .inl ⟨hvariant, (Option.some.inj hitem).symm⟩
        case isFalse => cases hitem
  | text s =>
    simp only [item?] at hitem
    split at hitem
    case isTrue hvariant =>
      have hvsig := h.of_variantCode hvariant
      obtain rfl := Option.some.inj hitem
      refine ⟨.basic (.string s), ?_, trivial, .inl ⟨hvsig, rfl⟩⟩
      rw [hvsig]
      rfl
    case isFalse hvariant =>
      cases htype : TextType.ofCode? d.valueCode with
      | none => rw [htype] at hitem; cases hitem
      | some type =>
        have hvsig := h.of_valueCode (TextType.code_of_ofCode? htype)
        rw [htype] at hitem
        cases hnew : newText type (.string s) with
        | error e => simp only [hnew] at hitem; cases hitem
        | ok new =>
          obtain ⟨-, rfl⟩ := (newText_string_iff hfits type new).mp hnew
          simp only [hnew, Option.some.injEq] at hitem
          refine ⟨.basic (type.value s), ?_, trivial,
            .inr ⟨h.valueCode_variant.not.mp hvariant, hitem.symm, rfl, ?_⟩⟩
          · rw [hvsig, content?, List.headD_cons, TextType.ofCode?_code]
          · rw [hvsig]
            cases type <;> rfl

/-! ## What is found -/

theorem IsMap.orderedKey (h : IsMap d) {key : Basic} (hkey : key.type = d.key) :
    OrderedKey d.key key := by
  refine ⟨hkey, ?_⟩
  cases key with
  | double bits => exact absurd hkey.symm h.notDouble
  | _ => rfl

theorem IsMap.sameKey_iff (h : IsMap d) {key other : Basic} (hkey : key.type = d.key) :
    Basic.sameKey key other = true ↔ key = other := by
  cases key with
  | double bits => exact absurd hkey.symm h.notDouble
  | _ => simp [Basic.sameKey]

theorem IsMap.keysIn (h : IsMap d) : OrderedMap.KeysIn (OrderedKey d.key) d.items :=
  fun i hi => h.orderedKey (h.keys i hi)

/-- A look-up finds what was set for its key, and nothing new for other keys. -/
theorem IsMap.lookup_store (h : IsMap d) {key other : Basic} (hkey : key.type = d.key)
    (hother : other.type = d.key) (item : DbusType) :
    OrderedMap.lookup Basic.less other (d.store key item).items =
      if other = key then some (some item) else OrderedMap.lookup Basic.less other d.items := by
  have hordered := h.orderedKey hkey
  have hordered' := h.orderedKey hother
  have hequiv : OrderedMap.equiv Basic.less key other = true ↔ other = key :=
    (Basic.equiv_iff_sameKey hordered hordered').trans ((h.sameKey_iff hkey).trans eq_comm)
  rw [store, OrderedMap.lookup_assign (Basic.less_strictWeakOn d.key) hordered hordered' h.keysIn]
  simp only [hequiv]

theorem IsMap.store (h : IsMap d) (hholds : Holds vsig d) {key : Basic} (hkey : key.type = d.key)
    {item : DbusType} (hitem : item.signature = vsig) : IsMap (d.store key item) where
  wellTyped := (hholds.assign hitem key).wellTyped
  notDouble := h.notDouble
  keys := fun i hi =>
    (OrderedMap.KeysIn.assign (h.orderedKey hkey) h.keysIn i hi).1
  sorted := h.sorted.assign (Basic.less_strictWeakOn d.key) (h.orderedKey hkey) h.keysIn

/-- Coherent dicts are maps. -/
theorem isMap_of_coherent {d : DbusDict} (h : d.toDbusType.Coherent) : IsMap (ofDbusDict d) := by
  obtain ⟨key, sig, items⟩ := d
  change (DbusType.dict key sig items).Coherent at h
  cases h with
  | @dict _ value _ hsig hdouble _ hkeys hsorted hvalues _ =>
    refine ⟨⟨value, rfl, validateSingle_dict_value hsig, ?_⟩, hdouble, ?_, ?_⟩
    · intro i hi
      obtain ⟨entry, hentry, rfl⟩ := List.mem_map.mp hi
      exact ⟨entry.2, rfl, hvalues entry hentry⟩
    · intro i hi
      obtain ⟨entry, hentry, rfl⟩ := List.mem_map.mp hi
      exact (hkeys entry hentry).1
    · exact List.pairwise_map.mpr hsorted

/-- Both overloads of `get` do the same. -/
theorem gets_iff (d : DictObject) (key : Basic) (dest v : DbusType) :
    d.Gets key dest v ↔ d.getValue key dest = some (.ok (true, v)) := by
  refine ⟨And.left, fun hget => ⟨hget, fun anyKey hany => ?_⟩⟩
  rw [getAnyKey, hany]
  exact hget

theorem toCpp?_basic {v : Basic} {target : CppValue}
    (htype : (asCpp v).type = target.value.type) :
    ∃ result, toCpp? target (.basic v) = some result ∧ result.value = asCpp v := by
  obtain ⟨target, hcpp⟩ := target
  cases v <;> cases target <;> first | exact ⟨_, rfl, rfl⟩ | cases htype

/-- What `get` does with the value that is stored for a content. -/
theorem finds_iff {after : DictObject} {key : Basic} {content item dest : DbusType}
    (hvsig : after.valueSignature = vsig)
    (hlookup : OrderedMap.lookup Basic.less key after.items = some (some item))
    (hcontent : content.ClassFits)
    (hitem : (vsig = [dbusTypeVariant] ∧ item = .variant content) ∨
      (vsig ≠ [dbusTypeVariant] ∧ item = content ∧ content.isVariant = false ∧
        content.signature = vsig))
    (hdest : dest.ClassFits) :
    after.Finds key content dest ↔
      (dest.signature = content.signature → dest.isArray = content.isArray) := by
  -- A target that is no variant is assigned the content.
  have hsame : dest.signature = content.signature → dest.isVariant = false →
      after.getValue key dest = some ((dest.copyAssign content).map (true, ·)) := by
    intro hsig hdestVariant
    have hne : dest.signature ≠ [dbusTypeVariant] := fun heq => by
      rw [hdest.signature_eq_variant_iff.mp heq] at hdestVariant
      cases hdestVariant
    simp only [getValue, hlookup, hdestVariant, Bool.false_or, hvsig]
    obtain ⟨rfl, rfl⟩ | ⟨-, rfl, -, hsig'⟩ := hitem
    · rw [if_neg (by simpa using hne)]
      exact if_pos hsig
    · rw [if_pos (by simpa using hsig.trans hsig')]
  constructor
  · intro hfinds hsig
    by_contra harray
    have hdestVariant : dest.isVariant = false := by
      cases dest with
      | variant old =>
        -- Then the content is no array either.
        have hvariant := hcontent.signature_eq_variant_iff.mp hsig.symm
        cases content with
        | variant value => exact absurd rfl harray
        | _ => cases hvariant
      | _ => rfl
    have hget := (hfinds.same hsig hdestVariant).1
    rw [hsame hsig hdestVariant] at hget
    cases hcopy : dest.copyAssign content with
    | ok v => exact DbusType.copyAssign_of_isArray_ne hdest hcontent hsig harray v hcopy
    | error e =>
      rw [hcopy] at hget
      cases hget
  · intro harray
    refine ⟨fun hsig hdestVariant => ?_, fun hdestVariant => ?_, fun v target hv htype => ?_⟩
    · rw [gets_iff, hsame hsig hdestVariant,
        DbusType.copyAssign_of_signature_eq hdest hcontent hsig (harray hsig)]
      rfl
    · cases dest with
      | variant old =>
        rw [gets_iff]
        simp only [getValue, hlookup, hdestVariant, Bool.true_or, if_true]
        obtain ⟨-, rfl⟩ | ⟨-, rfl, hcontentVariant, -⟩ := hitem
        · rfl
        · cases item with
          | variant value => cases hcontentVariant
          | _ => rfl
      | _ => cases hdestVariant
    · subst hv
      obtain ⟨result, hresult, hvalue⟩ := toCpp?_basic htype
      refine ⟨result, ?_, hvalue⟩
      obtain ⟨-, rfl⟩ | ⟨-, rfl, -, -⟩ := hitem <;> simp only [getCpp, hlookup, hresult]

/-! ## The map -/

theorem holds_of_wellTyped (h : WellTyped d) : Holds d.valueSignature d := by
  obtain ⟨vsig, hholds⟩ := h
  rw [hholds.valueSignature]
  exact hholds

theorem SetsTo.of_refused {call : SetCall} {dest : DbusType}
    (h : ¬ ∃ key, call.key? d.key = some key ∧ call.arg.Acceptable d.valueSignature) :
    SetsTo d call dest false call.pointer? d where
  taken_iff := iff_of_false Bool.false_ne_true h
  set := fun htaken => absurd htaken Bool.false_ne_true
  refused := fun _ => ⟨rfl, rfl⟩

/-- An accepted call stores the content, and a target finds it if they are both arrays or
    both not. -/
theorem SetCall.exists_stored (h : IsMap d) {call : SetCall} (hfits : call.Fits d) {key : Basic}
    (hkey : call.key? d.key = some key) (hacc : call.arg.Acceptable d.valueSignature) :
    ∃ item content, call.run d = .ok (true, none) (d.store key item) ∧
      item.signature = d.valueSignature ∧ call.arg.content? d.valueSignature = some content ∧
      ∀ dest : DbusType, dest.ClassFits → ((d.store key item).Finds key content dest ↔
        (dest.signature = content.signature → dest.isArray = content.isArray)) := by
  have hholds := holds_of_wellTyped h.wellTyped
  obtain ⟨item, hitem⟩ := (SetArg.item?_isSome_iff hholds hfits.2).mpr hacc
  obtain ⟨content, hcontent, hcontentFits, hstored⟩ :=
    SetArg.content_of_item? hholds hfits.2 hitem
  have hrun := SetCall.run_eq hholds hfits
  rw [hkey, hitem] at hrun
  have hlookup := h.lookup_store (hfits.1 key hkey) (hfits.1 key hkey) item
  rw [if_pos rfl] at hlookup
  refine ⟨item, content, hrun, ?_, hcontent, fun dest hdest => ?_⟩
  · obtain ⟨hvsig, rfl⟩ | ⟨-, rfl, -, hsig⟩ := hstored
    · exact hvsig.symm
    · exact hsig
  · exact finds_iff rfl hlookup hcontentFits hstored hdest

theorem ArrayMeetsDict.not_setsMap (h : IsMap d) {call : SetCall} (hfits : call.Fits d)
    {dest : DbusType} (hdest : dest.ClassFits) (hmeets : ArrayMeetsDict d call dest) :
    ¬ SetsMap d call dest := by
  rintro ⟨taken, left, after, hresult, hsets⟩
  obtain ⟨key, content, hkey, hacc, hcontent, hsig, harray⟩ := hmeets
  obtain ⟨item, content', hrun, -, hcontent', hfinds⟩ := SetCall.exists_stored h hfits hkey hacc
  obtain ⟨⟨rfl, rfl⟩, rfl⟩ : (true = taken ∧ none = left) ∧ d.store key item = after := by
    simpa [hrun] using hresult
  obtain ⟨key', content'', hkey', hcontent'', hset⟩ := hsets.set rfl
  obtain rfl : key = key' := Option.some.inj (hkey.symm.trans hkey')
  obtain rfl : content = content' := Option.some.inj (hcontent.symm.trans hcontent')
  obtain rfl : content = content'' := Option.some.inj (hcontent.symm.trans hcontent'')
  exact harray ((hfinds dest hdest).mp hset.finds hsig)

/-- A call on a map sets it, unless a `dbus_array` of entries meets a `dbus_dict`. -/
theorem setsMap_iff (d : DictObject) (h : IsMap d) (call : SetCall) (hfits : call.Fits d)
    (dest : DbusType) (hdest : dest.ClassFits) :
    SetsMap d call dest ↔ ¬ ArrayMeetsDict d call dest := by
  refine ⟨fun hsets hmeets => hmeets.not_setsMap h hfits hdest hsets, fun hmeets => ?_⟩
  by_cases haccepted : ∃ key, call.key? d.key = some key ∧ call.arg.Acceptable d.valueSignature
  · obtain ⟨key, hkey, hacc⟩ := haccepted
    obtain ⟨item, content, hrun, hitem, hcontent, hfinds⟩ :=
      SetCall.exists_stored h hfits hkey hacc
    have htype := hfits.1 key hkey
    refine ⟨true, none, d.store key item, hrun, ?_, fun _ => ?_, fun htaken => ?_⟩
    · exact iff_of_true rfl ⟨key, hkey, hacc⟩
    · refine ⟨key, content, hkey, hcontent,
        h.store (holds_of_wellTyped h.wellTyped) htype hitem, rfl, ?_, ?_⟩
      · refine (hfinds dest hdest).mpr fun hsig => ?_
        by_contra harray
        exact hmeets ⟨key, content, hkey, hacc, hcontent, hsig, harray⟩
      · intro other hother hne
        rw [h.lookup_store htype hother, if_neg hne]
    · cases htaken
  · -- The call is refused.
    have hrun := SetCall.run_eq (holds_of_wellTyped h.wellTyped) hfits
    have hrefused : call.run d = .ok (false, call.pointer?) d := by
      cases hkey : call.key? d.key with
      | none => rwa [hkey] at hrun
      | some key =>
        cases hitem : call.arg.item? d with
        | none => rwa [hkey, hitem] at hrun
        | some item =>
          have hacc := (SetArg.item?_isSome_iff (holds_of_wellTyped h.wellTyped) hfits.2).mp
            ⟨item, hitem⟩
          exact absurd ⟨key, hkey, hacc⟩ haccepted
    exact ⟨false, call.pointer?, d, hrefused, SetsTo.of_refused haccepted⟩

end Stores

/-- `dbus_dict<dbus_string>` of integers, with an entry for `a`. -/
def numbers : DictObject where
  key := .string
  sig := dictSignature .string [BasicType.int32.code]
  items := [(.string (text "a"), some (.basic (.int32 1)))]

theorem numbers_isMap : IsMap numbers where
  wellTyped := by
    refine ⟨[BasicType.int32.code], rfl, by decide, ?_⟩
    simp [numbers, DbusType.signature, Basic.type]
  notDouble := by decide
  keys := by simp [numbers, Basic.type]
  sorted := List.pairwise_singleton _ _

/-- The key is in a variant, and so is the target. -/
def setNumber : SetCall :=
  .pointerAnyKey (.variant (.basic (.string (text "b")))) (some (.basic (.int32 2)))

theorem setNumber_setsMap : SetsMap numbers setNumber (.variant (.basic (.int32 0))) := by
  refine (setsMap_iff numbers numbers_isMap setNumber ⟨?_, ⟨trivial, ?_⟩⟩
    (.variant (.basic (.int32 0))) trivial).mpr ?_
  · rintro key hkey
    obtain rfl := Option.some.inj hkey
    rfl
  · rintro content hcontent
    cases hcontent
  · rintro ⟨key, content, -, -, hcontent, hsig, -⟩
    obtain rfl := Option.some.inj hcontent
    revert hsig
    decide

/-- `dbus_dict<dbus_string>` of dicts from strings to integers, without entries. -/
def tables : DictObject where
  key := .string
  sig := dictSignature .string (dictSignature .string [BasicType.int32.code])
  items := []

theorem tables_isMap : IsMap tables where
  wellTyped := ⟨dictSignature .string [BasicType.int32.code], rfl, by decide, by simp [tables]⟩
  notDouble := by decide
  keys := by simp [tables]
  sorted := .nil

/-- A `dbus_dict` is set, and a `dbus_array ("{si}")` cannot get it: `get` throws. -/
theorem tables_not_setsMap :
    ¬ SetsMap tables
      (.copied (.string (text "a"))
        (.dict .string (dictSignature .string [BasicType.int32.code]) []))
      (.array (dictSignature .string [BasicType.int32.code]) []) := by
  have hfits : (SetCall.copied (.string (text "a"))
      (.dict .string (dictSignature .string [BasicType.int32.code]) [])).Fits tables := by
    refine ⟨?_, ⟨_, rfl⟩, ?_⟩
    · rintro key hkey
      obtain rfl := Option.some.inj hkey
      rfl
    · rintro content hcontent
      cases hcontent
  exact ArrayMeetsDict.not_setsMap tables_isMap hfits rfl
    ⟨_, _, rfl, .same rfl, rfl, rfl, by decide⟩

end DictObject

end Ultrabus
