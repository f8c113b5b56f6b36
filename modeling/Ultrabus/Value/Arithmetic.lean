import Ultrabus.Value.Basic

/-! # Comparison of basic values

`operator==` and `operator<=>` of the classes derived from `dbus_basic_base` on another
basic value.  Both compare the stored C++ values, so that operands of two classes go
through the usual arithmetic conversions: a negative integer compared with an unsigned
one of at least its width wraps around.  `operator==` lets every pair of number classes
through, `operator<=>` leaves out the pairs of its table. -/

namespace Ultrabus

/-- The integer types that remain after integral promotion. -/
inductive IntType where
  | int32 | uint32 | int64 | uint64
deriving DecidableEq, Repr

/-- The type to which the operands are converted. -/
def IntType.common : IntType → IntType → IntType
  | .uint64, _ | _, .uint64 => .uint64
  | .int64, _ | _, .int64 => .int64
  | .uint32, _ | _, .uint32 => .uint32
  | .int32, .int32 => .int32

/-- The value after conversion.  To a signed type only values are converted that it has. -/
def IntType.convert (type : IntType) (n : Int) : Int :=
  match type with
  | .int32 | .int64 => n
  | .uint32 => n % 2 ^ 32
  | .uint64 => n % 2 ^ 64

/-- A stored value as an operand of a C++ operator. -/
inductive Stored where
  | integer (type : IntType) (value : Int)
  | double (bits : UInt64)
  | text (value : Bytes)
deriving DecidableEq, Repr

def Basic.stored : Basic → Stored
  | .byte v => .integer .int32 v.toNat
  | .boolean v => .integer .int32 v.toNat
  | .int16 v => .integer .int32 v.toInt
  | .uint16 v => .integer .int32 v.toNat
  | .int32 v => .integer .int32 v.toInt
  | .uint32 v => .integer .uint32 v.toNat
  | .int64 v => .integer .int64 v.toInt
  | .uint64 v => .integer .uint64 v.toNat
  | .double bits => .double bits
  | .string s => .text s
  | .objectPath s => .text s
  | .signature s => .text s
  | .unixFd v => .integer .int32 v.toInt

def compareText (a b : Bytes) : Ordering :=
  if textLess a b then .lt else if textLess b a then .gt else .eq

/-- `==` of C++; texts are not compared with numbers. -/
def Stored.equal : Stored → Stored → Bool
  | .integer s m, .integer t n => (s.common t).convert m = (s.common t).convert n
  | .integer _ m, .double b => Binary64.equal (Binary64.ofInt m) b
  | .double a, .integer _ n => Binary64.equal a (Binary64.ofInt n)
  | .double a, .double b => Binary64.equal a b
  | .text a, .text b => a = b
  | _, _ => false

/-- `<=>` of C++, where `none` is `unordered`. -/
def Stored.threeWay : Stored → Stored → Option Ordering
  | .integer s m, .integer t n =>
    some (compare ((s.common t).convert m) ((s.common t).convert n))
  | .integer _ m, .double b => Binary64.compare? (Binary64.ofInt m) b
  | .double a, .integer _ n => Binary64.compare? a (Binary64.ofInt n)
  | .double a, .double b => Binary64.compare? a b
  | .text a, .text b => some (compareText a b)
  | _, _ => none

/-- `operator==` on a basic value. -/
def Basic.equal (lhs rhs : Basic) : Bool := lhs.stored.equal rhs.stored

/-- The class that stores the value of a class. -/
def BasicType.valueType : BasicType → BasicType
  | .unixFd => .int32
  | t => t

/-- The pairs of classes on which `operator<=>` of the class `lhs` compares the stored
    values. -/
def BasicType.ordersWith (lhs rhs : BasicType) : Bool :=
  match lhs with
  | .string | .objectPath | .signature => rhs = .string || rhs = .objectPath || rhs = .signature
  | .boolean => rhs = .boolean
  | _ =>
    match rhs with
    | .boolean => false
    | .byte => true
    | .int16 => lhs.valueType ≠ .uint64 && lhs.valueType ≠ .uint32
    | .uint16 => true
    | .int32 => lhs.valueType ≠ .uint64 && lhs.valueType ≠ .uint32
    | .uint32 => lhs.valueType ≠ .int16 && lhs.valueType ≠ .int32
    | .int64 => lhs.valueType ≠ .uint64
    | .uint64 => lhs.valueType = .uint64 || lhs.valueType = .double
    | .double => true
    | .unixFd => lhs.valueType = .int32
    | .string | .objectPath | .signature => false

/-- `operator<=>` on a basic value. -/
def Basic.threeWay (lhs rhs : Basic) : Option Ordering :=
  if lhs.type.ordersWith rhs.type then lhs.stored.threeWay rhs.stored else none

/-! ## Comparison without conversion -/

/-- What a value says, whatever class stores it. -/
inductive Exact where
  | number (value : Int)
  | text (value : Bytes)
  | double (bits : UInt64)
deriving DecidableEq, Repr

def Stored.exact : Stored → Exact
  | .integer _ n => .number n
  | .double bits => .double bits
  | .text s => .text s

def Basic.exact (v : Basic) : Exact := v.stored.exact

/-- The order of the numbers, or of the texts. -/
def Exact.compare : Exact → Exact → Ordering
  | .number m, .number n => Ord.compare m n
  | .text a, .text b => compareText a b
  | _, _ => .eq

def IntType.bits : IntType → Nat
  | .int32 | .uint32 => 32
  | .int64 | .uint64 => 64

def IntType.unsigned : IntType → Bool
  | .uint32 | .uint64 => true
  | .int32 | .int64 => false

/-- A negative number, and in an unsigned type that is at least as wide the number with the same
    low bits. -/
def Basic.WrapsTo (x y : Basic) : Prop :=
  ∃ s m t, x.stored = .integer s m ∧ y.stored = .integer t (m + 2 ^ t.bits) ∧
    m < 0 ∧ t.unsigned = true ∧ s.bits ≤ t.bits

/-- Two integers that differ and that conversion makes the same. -/
def Basic.wrapped (x y : Basic) : Bool :=
  match x.stored, y.stored with
  | .integer s m, .integer t n => m ≠ n && (s.common t).convert m = (s.common t).convert n
  | _, _ => false

/-- The values of the type. -/
def IntType.InRange : IntType → Int → Prop
  | .int32, n => -2 ^ 31 ≤ n ∧ n < 2 ^ 31
  | .uint32, n => 0 ≤ n ∧ n < 2 ^ 32
  | .int64, n => -2 ^ 63 ≤ n ∧ n < 2 ^ 63
  | .uint64, n => 0 ≤ n ∧ n < 2 ^ 64

theorem Basic.stored_inRange {x : Basic} {t : IntType} {n : Int}
    (h : x.stored = .integer t n) : t.InRange n := by
  cases x <;> simp only [Basic.stored, Stored.integer.injEq, reduceCtorEq] at h
  all_goals
    obtain ⟨rfl, rfl⟩ := h
    simp only [IntType.InRange]
  case byte v => have := v.toNat_lt; omega
  case boolean v => cases v <;> simp
  case int16 v => have := v.le_toInt; have := v.toInt_lt; omega
  case uint16 v => have := v.toNat_lt; omega
  case int32 v => exact ⟨v.le_toInt, v.toInt_lt⟩
  case uint32 v => have := v.toNat_lt; omega
  case int64 v => exact ⟨v.le_toInt, v.toInt_lt⟩
  case uint64 v => have := v.toNat_lt; omega
  case unixFd v => exact ⟨v.le_toInt, v.toInt_lt⟩

theorem IntType.common_comm (s t : IntType) : s.common t = t.common s := by
  cases s <;> cases t <;> rfl

theorem wrapped_numbers_iff {s t : IntType} {m n : Int} (hm : s.InRange m) (hn : t.InRange n) :
    m ≠ n ∧ (s.common t).convert m = (s.common t).convert n ↔
      (n = m + 2 ^ t.bits ∧ m < 0 ∧ t.unsigned = true ∧ s.bits ≤ t.bits) ∨
        (m = n + 2 ^ s.bits ∧ n < 0 ∧ s.unsigned = true ∧ t.bits ≤ s.bits) := by
  cases s <;> cases t <;>
    simp only [IntType.common, IntType.convert, IntType.InRange, IntType.bits, IntType.unsigned,
      Bool.false_eq_true, and_false, or_false, false_or, and_true, le_refl, Nat.reduceLeDiff,
      iff_false] at hm hn ⊢ <;>
    omega

/-- A wrapped pair is a negative number and an unsigned one of at least its width. -/
theorem Basic.wrapped_iff (x y : Basic) : x.wrapped y = true ↔ x.WrapsTo y ∨ y.WrapsTo x := by
  unfold Basic.wrapped
  split
  case h_1 s m t n hx hy =>
    rw [Bool.and_eq_true, decide_eq_true_eq, decide_eq_true_eq,
      wrapped_numbers_iff (Basic.stored_inRange hx) (Basic.stored_inRange hy)]
    refine or_congr ⟨?_, ?_⟩ ⟨?_, ?_⟩
    · rintro ⟨rfl, hwraps⟩
      exact ⟨s, m, t, hx, hy, hwraps⟩
    · rintro ⟨s', m', t', hx', hy', hwraps⟩
      obtain ⟨rfl, rfl⟩ := Stored.integer.inj (hx.symm.trans hx')
      obtain ⟨rfl, rfl⟩ := Stored.integer.inj (hy.symm.trans hy')
      exact ⟨rfl, hwraps⟩
    · rintro ⟨rfl, hwraps⟩
      exact ⟨t, n, s, hy, hx, hwraps⟩
    · rintro ⟨t', n', s', hy', hx', hwraps⟩
      obtain ⟨rfl, rfl⟩ := Stored.integer.inj (hx.symm.trans hx')
      obtain ⟨rfl, rfl⟩ := Stored.integer.inj (hy.symm.trans hy')
      exact ⟨rfl, hwraps⟩
  case h_2 hnot =>
    simp only [Bool.false_eq_true, false_iff, not_or]
    constructor
    · rintro ⟨s, m, t, hx, hy, -⟩
      exact hnot s m t _ hx hy
    · rintro ⟨t, n, s, hy, hx, -⟩
      exact hnot s _ t n hx hy

/-- The value is not a double. -/
def Basic.NotDouble (x : Basic) : Prop := x.type ≠ .double

theorem Basic.NotDouble.stored {x : Basic} (h : x.NotDouble) :
    (∃ t n, x.stored = .integer t n) ∨ ∃ s, x.stored = .text s := by
  cases x <;> simp [Basic.NotDouble, Basic.type, Basic.stored] at h ⊢

/-- `==` finds the same number or text, or a wrapped pair. -/
theorem Basic.equal_iff {x y : Basic} (hx : x.NotDouble) (hy : y.NotDouble) :
    x.equal y = true ↔ x.exact = y.exact ∨ x.wrapped y = true := by
  unfold Basic.equal Basic.exact Basic.wrapped
  obtain ⟨s, m, hx⟩ | ⟨a, hx⟩ := hx.stored <;> obtain ⟨t, n, hy⟩ | ⟨b, hy⟩ := hy.stored <;>
    simp only [hx, hy, Stored.equal, Stored.exact, reduceCtorEq, Bool.false_eq_true, or_self,
      Exact.number.injEq, Exact.text.injEq, decide_eq_true_eq, or_false, Bool.and_eq_true]
  case inl.inl =>
    by_cases h : m = n
    · simp [h]
    · simp [h]

/-! ## The order of the table -/

theorem compareText_swap (a b : Bytes) : compareText b a = (compareText a b).swap := by
  unfold compareText
  cases hab : textLess a b <;> cases hba : textLess b a <;> simp [Ordering.swap]
  rw [textLess_iff] at hab hba
  exact absurd hab (not_lt_of_gt hba)

theorem compareText_eq_iff (a b : Bytes) : compareText a b = .eq ↔ a = b := by
  unfold compareText
  constructor
  · intro h
    split at h
    case isTrue => cases h
    case isFalse hab =>
      split at h
      case isTrue => cases h
      case isFalse hba =>
        rw [textLess_iff] at hab hba
        exact map_toNat_injective (le_antisymm (not_lt.mp hba) (not_lt.mp hab))
  · rintro rfl
    have hirrefl : textLess a a = false := by simp [textLess]
    simp [hirrefl]

theorem Exact.compare_swap (a b : Exact) : b.compare a = (a.compare b).swap := by
  cases a <;> cases b <;> simp only [Exact.compare, Ordering.swap_eq]
  case number.number m n => exact Std.OrientedCmp.eq_swap
  case text.text a b => exact compareText_swap a b

/-- Classes that are ordered, doubles apart, hold numbers both or texts both, and their
    numbers are compared as they are. -/
theorem Basic.threeWay_eq {x y : Basic} (hx : x.NotDouble) (hy : y.NotDouble) :
    x.threeWay y =
      if x.type.ordersWith y.type then some (x.exact.compare y.exact) else none := by
  have hrangeX := @Basic.stored_inRange x
  have hrangeY := @Basic.stored_inRange y
  unfold Basic.threeWay Basic.exact
  split
  case isFalse => rfl
  case isTrue h =>
    cases x <;> cases y <;>
      simp only [BasicType.ordersWith, Basic.type, BasicType.valueType, Basic.NotDouble,
        ne_eq, reduceCtorEq, not_true_eq_false, decide_false, decide_true, Bool.or_self,
        Bool.false_eq_true, not_false_eq_true, Bool.and_false, Bool.false_and,
        Bool.and_self, Bool.or_false] at h hx hy
    all_goals
      simp only [Basic.stored, Stored.threeWay, Stored.exact, Exact.compare, IntType.common,
        IntType.convert, Option.some.injEq]
    -- Where an operand is converted to an unsigned type, both are natural numbers below its
    -- bound.
    all_goals
      first
      | rfl
      | have hm := hrangeX rfl
        have hn := hrangeY rfl
        simp only [IntType.InRange] at hm hn
        rw [Int.emod_eq_of_lt (by omega) (by omega), Int.emod_eq_of_lt (by omega) (by omega)]

example : (Basic.int32 (-1)).equal (.uint32 4294967295) = true := by decide
example : (Basic.uint64 5).threeWay (.byte 7) = some .lt := by decide
example : (Basic.byte 7).threeWay (.uint64 5) = none := by decide

end Ultrabus
