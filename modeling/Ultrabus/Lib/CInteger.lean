import Mathlib.Algebra.Ring.Nat
import Ultrabus.Lib.Exec

/-! # Integers of C

Integer types of at least the rank of `int`, the usual arithmetic conversions between them,
and arithmetic.  An operation of an unsigned type wraps; one of a signed type has no result
when the exact value is out of range. -/

structure IntType where
  rank : Nat
  bits : Nat
  signed : Bool
deriving DecidableEq, Repr

namespace IntType

/-- The number of values of the type. -/
def size (t : IntType) : Nat := 2 ^ t.bits

def low (t : IntType) : Int := if t.signed then -(t.size / 2) else 0

def high (t : IntType) : Int := if t.signed then (t.size - 1) / 2 else t.size - 1

def InRange (t : IntType) (x : Int) : Prop := t.low ≤ x ∧ x ≤ t.high

instance (t : IntType) (x : Int) : Decidable (t.InRange x) := inferInstanceAs (Decidable (_ ∧ _))

/-- Conversion to the type: the value that is congruent modulo its size. -/
def convert (t : IntType) (x : Int) : Int :=
  if t.signed then x.bmod t.size else x % t.size

/-- The usual arithmetic conversions. -/
def common (s t : IntType) : IntType :=
  if s.signed = t.signed then (if s.rank < t.rank then t else s)
  else
    let u := if s.signed then t else s
    let i := if s.signed then s else t
    if i.rank ≤ u.rank then u
    else if u.bits < i.bits then i
    else { i with signed := false }

variable (t : IntType) {x : Int}

theorem size_pos : 0 < t.size := Nat.two_pow_pos t.bits

@[simp] theorem common_self (t : IntType) : t.common t = t := by simp [common]

theorem inRange_common_self {t : IntType} (h : t.InRange x) : (t.common t).InRange x := by
  rwa [common_self]

@[simp] theorem inRange_signed (rank bits : Nat) :
    InRange ⟨rank, bits, true⟩ x ↔
      -(((2 ^ bits : Nat) : Int) / 2) ≤ x ∧ x ≤ (((2 ^ bits : Nat) : Int) - 1) / 2 := Iff.rfl

@[simp] theorem inRange_unsigned (rank bits : Nat) :
    InRange ⟨rank, bits, false⟩ x ↔ 0 ≤ x ∧ x ≤ ((2 ^ bits : Nat) : Int) - 1 := Iff.rfl

theorem inRange_convert (x : Int) : t.InRange (t.convert x) := by
  have hpos := t.size_pos
  unfold InRange low high convert
  cases t.signed with
  | true =>
    have hlow := Int.le_bmod (x := x) hpos
    have hhigh := Int.bmod_lt (x := x) hpos
    simp only [if_true]
    omega
  | false =>
    have hlow := Int.emod_nonneg x (Int.natCast_ne_zero.mpr hpos.ne')
    have hhigh := Int.emod_lt_of_pos x (Int.natCast_pos.mpr hpos)
    simp only [Bool.false_eq_true, if_false]
    omega

variable {t}

theorem convert_of_inRange (h : t.InRange x) : t.convert x = x := by
  have hpos := t.size_pos
  unfold InRange low high at h
  unfold convert
  cases hsigned : t.signed with
  | true =>
    simp only [hsigned, if_true] at h ⊢
    exact Int.bmod_eq_of_le (by omega) (by omega)
  | false =>
    simp only [hsigned, Bool.false_eq_true, if_false] at h ⊢
    exact Int.emod_eq_of_lt h.1 (by omega)

end IntType

/-! ## Values -/

/-- A value of an integer type. -/
structure CInt (t : IntType) where
  value : Int
  inRange : t.InRange value
deriving DecidableEq, Repr

/-- Undefined behaviour of an operation of a signed type. -/
inductive Overflow where
  | overflow
deriving DecidableEq, Repr

/-- Which exact values an operation of a type may come to. -/
abbrev ArithRule := IntType → Int → Bool

/-- The rule of the language: an operation of an unsigned type may come to anything. -/
def ArithRule.language : ArithRule := fun t x => !t.signed || t.InRange x

/-- Nothing wraps, and nothing leaves the range of the type `limit`. -/
def ArithRule.within (limit : IntType) : ArithRule := fun t x => t.InRange x && limit.InRange x

namespace CInt

variable {s t : IntType}

@[ext] theorem ext {a b : CInt t} (h : a.value = b.value) : a = b := by
  cases a
  cases b
  cases h
  rfl

def of (t : IntType) (x : Int) : CInt t := ⟨t.convert x, t.inRange_convert x⟩

/-- Conversion to another type. -/
def cast (t : IntType) (a : CInt s) : CInt t := of t a.value

/-- An operation of type `t` whose exact value is `x`. -/
def result (rule : ArithRule) (t : IntType) (x : Int) : Exec Overflow (CInt t) :=
  if rule t x then .ok (of t x) else .throw .overflow

/-- An operation of the common type of its operands. -/
def binary (op : Int → Int → Int) (rule : ArithRule) (a : CInt s) (b : CInt t) :
    Exec Overflow (CInt (s.common t)) :=
  result rule (s.common t) (op (a.cast (s.common t)).value (b.cast (s.common t)).value)

def add : ArithRule → CInt s → CInt t → Exec Overflow (CInt (s.common t)) := binary (· + ·)
def sub : ArithRule → CInt s → CInt t → Exec Overflow (CInt (s.common t)) := binary (· - ·)
def mul : ArithRule → CInt s → CInt t → Exec Overflow (CInt (s.common t)) := binary (· * ·)

/-- `++a` in a type of at least the rank of `int`. -/
def increment (a : CInt t) : Exec Overflow (CInt t) := result .language t (a.value + 1)

/-- `a >= b`. -/
def ge (a : CInt s) (b : CInt t) : Bool :=
  (b.cast (s.common t)).value ≤ (a.cast (s.common t)).value

/-! ### Where nothing is lost -/

variable {x : Int}

@[simp] theorem value_of (h : t.InRange x) : (of t x).value = x := t.convert_of_inRange h

@[simp] theorem value_cast {a : CInt s} (h : t.InRange a.value) : (a.cast t).value = a.value :=
  t.convert_of_inRange h

theorem language_of_inRange (h : t.InRange x) : ArithRule.language t x = true := by
  simp [ArithRule.language, h]

theorem within_of_inRange {limit : IntType} (h : t.InRange x) (hlimit : limit.InRange x) :
    ArithRule.within limit t x = true := by
  simp [ArithRule.within, h, hlimit]

/-- An operation whose operands and whose exact value are in the range of the common type. -/
theorem exists_binary {op : Int → Int → Int} {rule : ArithRule} {a : CInt s} {b : CInt t}
    (heq : op a.value b.value = x) (ha : (s.common t).InRange a.value)
    (hb : (s.common t).InRange b.value) (hx : (s.common t).InRange x)
    (hrule : rule (s.common t) x = true) :
    ∃ c, binary op rule a b = .ok c ∧ c.value = x := by
  subst heq
  refine ⟨_, ?_, value_of hx⟩
  rw [binary, value_cast ha, value_cast hb, result, if_pos hrule]

theorem exists_add {rule : ArithRule} {a : CInt s} {b : CInt t} (heq : a.value + b.value = x)
    (ha : (s.common t).InRange a.value) (hb : (s.common t).InRange b.value)
    (hx : (s.common t).InRange x) (hrule : rule (s.common t) x = true) :
    ∃ c, a.add rule b = .ok c ∧ c.value = x :=
  exists_binary heq ha hb hx hrule

theorem exists_sub {rule : ArithRule} {a : CInt s} {b : CInt t} (heq : a.value - b.value = x)
    (ha : (s.common t).InRange a.value) (hb : (s.common t).InRange b.value)
    (hx : (s.common t).InRange x) (hrule : rule (s.common t) x = true) :
    ∃ c, a.sub rule b = .ok c ∧ c.value = x :=
  exists_binary heq ha hb hx hrule

theorem exists_mul {rule : ArithRule} {a : CInt s} {b : CInt t} (heq : a.value * b.value = x)
    (ha : (s.common t).InRange a.value) (hb : (s.common t).InRange b.value)
    (hx : (s.common t).InRange x) (hrule : rule (s.common t) x = true) :
    ∃ c, a.mul rule b = .ok c ∧ c.value = x :=
  exists_binary heq ha hb hx hrule

theorem exists_increment {a : CInt t} (h : t.InRange (a.value + 1)) :
    ∃ c, a.increment = .ok c ∧ c.value = a.value + 1 :=
  ⟨_, by rw [increment, result, if_pos (language_of_inRange h)], value_of h⟩

theorem ge_eq {a : CInt s} {b : CInt t} (ha : (s.common t).InRange a.value)
    (hb : (s.common t).InRange b.value) : a.ge b = decide (b.value ≤ a.value) := by
  rw [ge, value_cast ha, value_cast hb]

end CInt
