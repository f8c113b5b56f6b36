import Mathlib.Tactic.Ring
import Ultrabus.Connection.TimerList
import Ultrabus.Lib.CInteger

/-! # Time stamps in the integer types of the platform

`inc_abs_time` as it is computed: `msec` is an `unsigned`, the constants and `tv_nsec` are
`long`, and on a platform with a 32-bit `long` the common type of the two is unsigned. -/

namespace Ultrabus.TimeStamps

/-- The widths that `long` and `time_t` can have. -/
inductive Width where
  | w32
  | w64
deriving DecidableEq, Repr

def Width.bits : Width → Nat
  | .w32 => 32
  | .w64 => 64

structure Platform where
  longWidth : Width
  timeWidth : Width
deriving DecidableEq, Repr

/-- `unsigned`. -/
def unsignedInt : IntType := ⟨1, 32, false⟩

namespace Platform

/-- `long`. -/
def long (p : Platform) : IntType := ⟨2, p.longWidth.bits, true⟩

/-- `time_t`: a `long`, or a `long long` where that is the wider one. -/
def timeT (p : Platform) : IntType :=
  ⟨if p.timeWidth = p.longWidth then 2 else 3, p.timeWidth.bits, true⟩

end Platform

variable {p : Platform}

/-- The constants of `inc_abs_time`. -/
def constant (p : Platform) (x : Int) : CInt p.long := .of p.long x

def millisecondsInASecond (p : Platform) : CInt p.long := constant p 1000
def nanosecondsInASecond (p : Platform) : CInt p.long := constant p 1000000000
def nanosecondsInAMilliseconds (p : Platform) : CInt p.long := constant p 1000000

/-- `struct timespec`. -/
structure Timespec (p : Platform) where
  tvSec : CInt p.timeT
  tvNsec : CInt p.long
deriving DecidableEq, Repr

/-- `while (msec >= milliseconds_in_a_second)`. -/
def incSeconds :
    Nat → CInt p.timeT → CInt unsignedInt → Exec Overflow (CInt p.timeT × CInt unsignedInt)
  | 0, _, _ => .timeout
  | fuel + 1, tvSec, msec =>
    if msec.ge (millisecondsInASecond p) then do
      let tvSec ← tvSec.increment
      let rest ← msec.sub .language (millisecondsInASecond p)
      incSeconds fuel tvSec (rest.cast unsignedInt)
    else return (tvSec, msec)

/-- `rule` is for the operations that `tv_nsec` is computed with. -/
def incAbsTime (rule : ArithRule) (fuel : Nat) (abs : Timespec p) (msec : CInt unsignedInt) :
    Exec Overflow (Timespec p) := do
  let (tvSec, msec) ← incSeconds fuel abs.tvSec msec
  let product ← msec.mul rule (nanosecondsInAMilliseconds p)
  let sum ← abs.tvNsec.add rule product
  let tvNsec := sum.cast p.long
  if tvNsec.ge (nanosecondsInASecond p) then
    let tvSec ← tvSec.increment
    let rest ← tvNsec.sub rule (nanosecondsInASecond p)
    return ⟨tvSec, rest.cast p.long⟩
  else return ⟨tvSec, tvNsec⟩

/-- What `on_timerfd_event` does to the time of an entry, several times in a row. -/
def reschedule (rule : ArithRule) (fuel : Nat) (msec : CInt unsignedInt) :
    Nat → Timespec p → Exec Overflow (Timespec p)
  | 0, abs => return abs
  | times + 1, abs => do
    let abs ← incAbsTime rule fuel abs msec
    reschedule rule fuel msec times abs

namespace Timespec

def Normalized (t : Timespec p) : Prop := 0 ≤ t.tvNsec.value ∧ t.tvNsec.value < 1000000000

instance (t : Timespec p) : Decidable t.Normalized := inferInstanceAs (Decidable (_ ∧ _))

/-- The time since the origin of the clock. -/
def nanoseconds (t : Timespec p) : Int := t.tvSec.value * 1000000000 + t.tvNsec.value

/-- `tv_sec` does not overflow: it can hold the seconds of the time that is `msec` later. -/
def HasRoom (t : Timespec p) (msec : Int) : Prop :=
  p.timeT.InRange ((t.nanoseconds + msec * 1000000) / 1000000000)

end Timespec

/-! ## Ranges -/

theorem inRange_long (p : Platform) {x : Int} (hlow : -2147483648 ≤ x) (hhigh : x ≤ 2147483647) :
    p.long.InRange x := by
  cases hwidth : p.longWidth with
  | w32 => simp only [Platform.long, hwidth, Width.bits, IntType.inRange_signed]; omega
  | w64 => simp only [Platform.long, hwidth, Width.bits, IntType.inRange_signed]; omega

/-- The common type of `unsigned` and `long` has all values of `unsigned`. -/
theorem inRange_common (p : Platform) {x : Int} (hlow : 0 ≤ x) (hhigh : x ≤ 4294967295) :
    (unsignedInt.common p.long).InRange x := by
  cases hwidth : p.longWidth with
  | w32 =>
    have htype : unsignedInt.common p.long = ⟨2, 32, false⟩ := by
      simp only [Platform.long, hwidth]; rfl
    simp only [htype, IntType.inRange_unsigned]
    omega
  | w64 =>
    have htype : unsignedInt.common p.long = ⟨2, 64, true⟩ := by
      simp only [Platform.long, hwidth]; rfl
    simp only [htype, IntType.inRange_signed]
    omega

/-- So has the type that the product is added to `tv_nsec` in. -/
theorem inRange_sum (p : Platform) {x : Int} (hlow : 0 ≤ x) (hhigh : x ≤ 4294967295) :
    (p.long.common (unsignedInt.common p.long)).InRange x := by
  cases hwidth : p.longWidth with
  | w32 =>
    have htype : p.long.common (unsignedInt.common p.long) = ⟨2, 32, false⟩ := by
      simp only [Platform.long, hwidth]; rfl
    simp only [htype, IntType.inRange_unsigned]
    omega
  | w64 =>
    have htype : p.long.common (unsignedInt.common p.long) = ⟨2, 64, true⟩ := by
      simp only [Platform.long, hwidth]; rfl
    simp only [htype, IntType.inRange_signed]
    omega

theorem unsignedInt_bounds (msec : CInt unsignedInt) :
    0 ≤ msec.value ∧ msec.value ≤ 4294967295 := msec.inRange

theorem inRange_unsignedInt {x : Int} (hlow : 0 ≤ x) (hhigh : x ≤ 4294967295) :
    unsignedInt.InRange x := ⟨hlow, hhigh⟩

theorem value_constant (p : Platform) {x : Int} (hlow : -2147483648 ≤ x)
    (hhigh : x ≤ 2147483647) : (constant p x).value = x :=
  CInt.value_of (inRange_long p hlow hhigh)

@[simp] theorem value_millisecondsInASecond (p : Platform) :
    (millisecondsInASecond p).value = 1000 :=
  value_constant p (by omega) (by omega)

@[simp] theorem value_nanosecondsInASecond (p : Platform) :
    (nanosecondsInASecond p).value = 1000000000 :=
  value_constant p (by omega) (by omega)

@[simp] theorem value_nanosecondsInAMilliseconds (p : Platform) :
    (nanosecondsInAMilliseconds p).value = 1000000 :=
  value_constant p (by omega) (by omega)

/-- What lies between two values of a type is one. -/
theorem inRange_between {t : IntType} {x y z : Int} (hx : t.InRange x) (hz : t.InRange z)
    (hlow : x ≤ y) (hhigh : y ≤ z) : t.InRange y :=
  ⟨hx.1.trans hlow, hhigh.trans hz.2⟩

/-! ## The seconds -/

theorem incSeconds_eq {fuel : Nat} {tvSec : CInt p.timeT} {msec : CInt unsignedInt}
    (hfuel : msec.value / 1000 < fuel)
    (hroom : p.timeT.InRange (tvSec.value + msec.value / 1000)) :
    ∃ sec rest, incSeconds fuel tvSec msec = .ok (sec, rest) ∧
      sec.value = tvSec.value + msec.value / 1000 ∧ rest.value = msec.value % 1000 := by
  have hthousand := value_millisecondsInASecond p
  induction fuel generalizing tvSec msec with
  | zero =>
    have hmsec := unsignedInt_bounds msec
    omega
  | succ fuel ih =>
    have hmsec := unsignedInt_bounds msec
    have hvalue := inRange_common p hmsec.1 hmsec.2
    have hconstant : (unsignedInt.common p.long).InRange (millisecondsInASecond p).value :=
      inRange_common p (by omega) (by omega)
    rw [incSeconds, CInt.ge_eq hvalue hconstant, hthousand]
    by_cases hge : 1000 ≤ msec.value
    case pos =>
      have hnext : p.timeT.InRange (tvSec.value + 1) :=
        inRange_between tvSec.inRange hroom (by omega) (by omega)
      have hdiff := inRange_common p (x := msec.value - 1000) (by omega) (by omega)
      have hrest := inRange_unsignedInt (x := msec.value - 1000) (by omega) (by omega)
      obtain ⟨sec, hinc, hsec⟩ := CInt.exists_increment hnext
      obtain ⟨diff, hsub, hdiff'⟩ := CInt.exists_sub (by rw [hthousand]) hvalue hconstant hdiff
        (CInt.language_of_inRange hdiff)
      have hcast : (diff.cast unsignedInt).value = msec.value - 1000 :=
        (CInt.value_cast (hdiff' ▸ hrest)).trans hdiff'
      -- One turn moves a second from `msec` to `tv_sec`.
      have hturn : sec.value + (diff.cast unsignedInt).value / 1000 =
          tvSec.value + msec.value / 1000 := by omega
      obtain ⟨sec', rest, hloop, hsec', hrem⟩ := ih (by omega) (hturn ▸ hroom)
      refine ⟨sec', rest, ?_, by omega, by omega⟩
      rw [if_pos (decide_eq_true hge), hinc, Exec.ok_bind, hsub, Exec.ok_bind, hloop]
    case neg =>
      refine ⟨tvSec, msec, ?_, by omega, by omega⟩
      rw [if_neg (by simpa using hge)]
      rfl

/-! ## The nanoseconds -/

/-- A rule that lets pass what is neither out of its type nor out of `long`. -/
def Lenient (p : Platform) (rule : ArithRule) : Prop :=
  ∀ t x, IntType.InRange t x → p.long.InRange x → rule t x = true

theorem lenient_language (p : Platform) : Lenient p .language :=
  fun _ _ h _ => CInt.language_of_inRange h

theorem lenient_within (p : Platform) : Lenient p (.within p.long) :=
  fun _ _ h hlong => CInt.within_of_inRange h hlong

/-- A normalized time is determined by its nanoseconds. -/
theorem Timespec.ext_nanoseconds {t t' : Timespec p} (h : t.Normalized) (h' : t'.Normalized)
    (heq : t.nanoseconds = t'.nanoseconds) : t = t' := by
  obtain ⟨sec, nsec⟩ := t
  obtain ⟨sec', nsec'⟩ := t'
  simp only [Normalized, nanoseconds] at h h' heq
  have hsec : sec = sec' := CInt.ext (by omega)
  have hnsec : nsec = nsec' := CInt.ext (by omega)
  rw [hsec, hnsec]

section Nanoseconds

variable {rule : ArithRule} (hrule : Lenient p rule)
include hrule

/-- At most 999 milliseconds are left of `msec`, so that the product has 30 bits. -/
theorem exists_product {msec : CInt unsignedInt} (hmsec : msec.value < 1000) :
    ∃ product, msec.mul rule (nanosecondsInAMilliseconds p) = .ok product ∧
      product.value = msec.value * 1000000 := by
  have hnonneg := (unsignedInt_bounds msec).1
  have hmillion := value_nanosecondsInAMilliseconds p
  have hrange := inRange_common p (x := msec.value * 1000000) (by omega) (by omega)
  exact CInt.exists_mul (by rw [hmillion]) (inRange_common p (by omega) (by omega))
    (inRange_common p (by omega) (by omega)) hrange
    (hrule _ _ hrange (inRange_long p (by omega) (by omega)))

/-- The sum has 31 bits: it is a `long` although it may be computed in `unsigned long`. -/
theorem exists_sum {tvNsec : CInt p.long} {product : CInt (unsignedInt.common p.long)}
    (hnsec : 0 ≤ tvNsec.value ∧ tvNsec.value < 1000000000)
    (hproduct : 0 ≤ product.value ∧ product.value < 1000000000) :
    ∃ sum, tvNsec.add rule product = .ok sum ∧
      (sum.cast p.long).value = tvNsec.value + product.value := by
  have hrange := inRange_sum p (x := tvNsec.value + product.value) (by omega) (by omega)
  have hlong := inRange_long p (x := tvNsec.value + product.value) (by omega) (by omega)
  obtain ⟨sum, hadd, hsum⟩ := CInt.exists_add rfl (inRange_sum p (by omega) (by omega))
    (inRange_sum p (by omega) (by omega)) hrange (hrule _ _ hrange hlong)
  exact ⟨sum, hadd, (CInt.value_cast (hsum ▸ hlong)).trans hsum⟩

/-- The carry, both of whose operands are `long`. -/
theorem exists_carry {tvNsec : CInt p.long}
    (hnsec : 1000000000 ≤ tvNsec.value ∧ tvNsec.value < 2000000000) :
    ∃ rest, tvNsec.sub rule (nanosecondsInASecond p) = .ok rest ∧
      (rest.cast p.long).value = tvNsec.value - 1000000000 := by
  have hbillion := value_nanosecondsInASecond p
  have hlong := inRange_long p (x := tvNsec.value - 1000000000) (by omega) (by omega)
  have heq : tvNsec.value - (nanosecondsInASecond p).value = tvNsec.value - 1000000000 := by
    rw [hbillion]
  obtain ⟨rest, hsub, hrest⟩ := CInt.exists_sub heq (IntType.inRange_common_self tvNsec.inRange)
    (IntType.inRange_common_self (nanosecondsInASecond p).inRange)
    (IntType.inRange_common_self hlong)
    (hrule _ _ (IntType.inRange_common_self hlong) hlong)
  exact ⟨rest, hsub, (CInt.value_cast (hrest ▸ hlong)).trans hrest⟩

theorem incAbsTime_eq {fuel : Nat} {abs : Timespec p} {msec : CInt unsignedInt}
    (habs : abs.Normalized) (hroom : abs.HasRoom msec.value) (hfuel : msec.value / 1000 < fuel) :
    ∃ t, incAbsTime rule fuel abs msec = .ok t ∧ t.Normalized ∧
      t.nanoseconds = abs.nanoseconds + msec.value * 1000000 := by
  obtain ⟨tvSec, tvNsec⟩ := abs
  simp only [Timespec.Normalized, Timespec.HasRoom, Timespec.nanoseconds] at habs hroom ⊢
  have hmsec := unsignedInt_bounds msec
  have hbillion := value_nanosecondsInASecond p
  have hseconds : p.timeT.InRange (tvSec.value + msec.value / 1000) :=
    inRange_between tvSec.inRange hroom (by omega) (by omega)
  obtain ⟨sec, rest, hloop, hsec, hrest⟩ := incSeconds_eq hfuel hseconds
  obtain ⟨product, hmul, hproduct⟩ := exists_product hrule (by omega : rest.value < 1000)
  obtain ⟨sum, hadd, hsum⟩ := exists_sum hrule habs (by omega : 0 ≤ product.value ∧
    product.value < 1000000000)
  have hge := CInt.ge_eq (IntType.inRange_common_self (sum.cast p.long).inRange)
    (IntType.inRange_common_self (nanosecondsInASecond p).inRange)
  rw [incAbsTime, hloop, Exec.ok_bind]
  dsimp only
  rw [hmul, Exec.ok_bind, hadd, Exec.ok_bind, hge, hbillion]
  by_cases hcarry : 1000000000 ≤ (sum.cast p.long).value
  case pos =>
    have hnext : p.timeT.InRange (sec.value + 1) :=
      inRange_between sec.inRange hroom (by omega) (by omega)
    obtain ⟨sec', hinc, hsec'⟩ := CInt.exists_increment hnext
    obtain ⟨nsec, hsub, hnsec⟩ := exists_carry hrule
      (by omega : 1000000000 ≤ (sum.cast p.long).value ∧ (sum.cast p.long).value < 2000000000)
    rw [if_pos (decide_eq_true hcarry), hinc, Exec.ok_bind, hsub, Exec.ok_bind]
    exact ⟨_, rfl, by dsimp only; omega, by dsimp only; omega⟩
  case neg =>
    rw [if_neg (by simpa using hcarry)]
    exact ⟨_, rfl, by dsimp only; omega, by dsimp only; omega⟩

theorem reschedule_eq {fuel : Nat} {abs : Timespec p} {msec : CInt unsignedInt} {times : Nat}
    (habs : abs.Normalized) (hroom : abs.HasRoom (times * msec.value))
    (hfuel : msec.value / 1000 < fuel) :
    ∃ t, reschedule rule fuel msec times abs = .ok t ∧ t.Normalized ∧
      t.nanoseconds = abs.nanoseconds + times * (msec.value * 1000000) := by
  induction times generalizing abs with
  | zero => exact ⟨abs, rfl, habs, by simp⟩
  | succ times ih =>
    have hmsec := unsignedInt_bounds msec
    have hlater : 0 ≤ times * msec.value := Int.mul_nonneg (by omega) hmsec.1
    have hsplit : (times + 1 : Nat) * msec.value = msec.value + times * msec.value := by
      push_cast
      ring
    rw [Timespec.HasRoom, hsplit] at hroom
    have hfirst : abs.HasRoom msec.value :=
      inRange_between abs.tvSec.inRange hroom
        (by simp only [Timespec.nanoseconds, Timespec.Normalized] at *; omega) (by omega)
    obtain ⟨t, hinc, ht, hnano⟩ := incAbsTime_eq hrule habs hfirst hfuel
    have hrest : t.HasRoom (times * msec.value) := by
      rw [Timespec.HasRoom, hnano]
      convert hroom using 2
      ring
    obtain ⟨t', hreschedule, ht', hnano'⟩ := ih ht hrest
    refine ⟨t', ?_, ht', ?_⟩
    · rw [reschedule, hinc, Exec.ok_bind, hreschedule]
    · rw [hnano', hnano]
      push_cast
      ring

end Nanoseconds

/-! ## The whole function -/

/-- A computation on a budget for the turns of the loop comes to `t` whenever the budget is more
    than the seconds in `msec`, and nothing it stores or computes for `tv_nsec` is out of the
    range of `long`. -/
def EndsWith (msec : CInt unsignedInt) (t : Timespec p)
    (run : ArithRule → Nat → Exec Overflow (Timespec p)) : Prop :=
  ∀ fuel : Nat, msec.value / 1000 < fuel →
    run .language fuel = .ok t ∧ run (.within p.long) fuel = .ok t

theorem endsWith_of_eq {msec : CInt unsignedInt} {nano : Int}
    {run : ArithRule → Nat → Exec Overflow (Timespec p)}
    (h : ∀ rule, Lenient p rule → ∀ fuel : Nat, msec.value / 1000 < fuel →
      ∃ t, run rule fuel = .ok t ∧ t.Normalized ∧ t.nanoseconds = nano) :
    ∃ t, EndsWith msec t run ∧ t.Normalized ∧ t.nanoseconds = nano := by
  have hmsec := unsignedInt_bounds msec
  obtain ⟨t, -, ht, hnano⟩ := h _ (lenient_language p) ((msec.value / 1000).toNat + 1) (by omega)
  have hsame : ∀ rule, Lenient p rule → ∀ fuel : Nat, msec.value / 1000 < fuel →
      run rule fuel = .ok t := by
    intro rule hrule fuel hfuel
    obtain ⟨t', hrun, ht', hnano'⟩ := h rule hrule fuel hfuel
    rw [hrun, Timespec.ext_nanoseconds ht' ht (hnano'.trans hnano.symm)]
  exact ⟨t, fun fuel hfuel => ⟨hsame _ (lenient_language p) fuel hfuel,
    hsame _ (lenient_within p) fuel hfuel⟩, ht, hnano⟩

/-- `inc_abs_time` ends and adds exactly the milliseconds, whichever widths `long` and `time_t`
    have; so do several calls in a row with one interval. -/
theorem incAbsTime_exact (abs : Timespec p) (msec : CInt unsignedInt) (habs : abs.Normalized) :
    (abs.HasRoom msec.value →
      ∃ t, EndsWith msec t (fun rule fuel => incAbsTime rule fuel abs msec) ∧ t.Normalized ∧
        t.nanoseconds = abs.nanoseconds + msec.value * 1000000) ∧
    ∀ times : Nat, abs.HasRoom (times * msec.value) →
      ∃ t, EndsWith msec t (fun rule fuel => reschedule rule fuel msec times abs) ∧
        t.Normalized ∧ t.nanoseconds = abs.nanoseconds + times * (msec.value * 1000000) := by
  constructor
  · intro hroom
    exact endsWith_of_eq fun rule hrule fuel hfuel => incAbsTime_eq hrule habs hroom hfuel
  · intro times hroom
    exact endsWith_of_eq fun rule hrule fuel hfuel => reschedule_eq hrule habs hroom hfuel

/-- The longest interval, from a time right before a full second, where both types have 32 bits. -/
def lateTime : Timespec ⟨.w32, .w32⟩ := ⟨⟨86400, by decide⟩, ⟨999999999, by decide⟩⟩

def longestInterval : CInt unsignedInt := ⟨4294967295, by decide⟩

theorem lateTime_exact :
    (∃ t, EndsWith longestInterval t
        (fun rule fuel => incAbsTime rule fuel lateTime longestInterval) ∧ t.Normalized ∧
      t.nanoseconds = lateTime.nanoseconds + 4294967295 * 1000000) ∧
    ∃ t, EndsWith longestInterval t
        (fun rule fuel => reschedule rule fuel longestInterval 3 lateTime) ∧ t.Normalized ∧
      t.nanoseconds = lateTime.nanoseconds + 3 * (4294967295 * 1000000) := by
  have hexact := incAbsTime_exact lateTime longestInterval (by decide)
  exact ⟨hexact.1 (by unfold Timespec.HasRoom; decide),
    hexact.2 3 (by unfold Timespec.HasRoom; decide)⟩

/-! ## Timeouts of a connection -/

/-- The time stamp as a pair of unbounded numbers. -/
def Timespec.unbounded (t : Timespec p) : Timers.Timespec := ⟨t.tvSec.value, t.tvNsec.value⟩

/-- `inc_abs_time` in the types of the platform does what it does on unbounded numbers. -/
theorem incAbsTime_refines {fuel : Nat} {abs : Timespec p} {msec : CInt unsignedInt}
    (habs : abs.Normalized) (hroom : abs.HasRoom msec.value) (hfuel : msec.value / 1000 < fuel) :
    ∃ t, incAbsTime .language fuel abs msec = .ok t ∧
      t.unbounded = Timers.incAbsTime abs.unbounded msec.value.toNat := by
  have hmsec := unsignedInt_bounds msec
  obtain ⟨t, hinc, ht, hnano⟩ := incAbsTime_eq (lenient_language p) habs hroom hfuel
  have habs' : 0 ≤ abs.unbounded.nsec ∧ abs.unbounded.nsec < Timers.nanosecondsInASecond := habs
  obtain ⟨hnsec, hnano'⟩ := Timers.incAbsTime_nanoseconds habs' msec.value.toNat
  refine ⟨t, hinc, ?_⟩
  generalize Timers.incAbsTime abs.unbounded msec.value.toNat = result at *
  obtain ⟨sec, nsec⟩ := result
  simp only [Timespec.unbounded, Timespec.nanoseconds, Timespec.Normalized,
    Timers.Timespec.nanoseconds, Timers.nanosecondsInASecond,
    Timers.nanosecondsInAMilliseconds, Timers.Timespec.mk.injEq] at *
  omega

section Runs

open TimerList (Label State)
open Timers (TimerEntry)

variable {η : Type} [DecidableEq η]

/-- The steps that leave the entry of a timeout to `on_timerfd_event`. -/
def LeavesEntry (timeout : η) : Label η → Prop
  | .removeTimeout other | .toggledTimeout other _ _ => other ≠ timeout
  | .addTimeout _ _ _ _ | .timerfdEvent _ => True

/-- How often a step reschedules the entry of a timeout. -/
def fires (timeout : η) (s : State η) : Label η → Nat
  | .timerfdEvent true => if s.conn.timers.head?.map (·.handle) = some timeout then 1 else 0
  | _ => 0

/-- How often the steps of a run do. -/
def firings (timeout : η) : State η → List (Label η) → Nat
  | _, [] => 0
  | s, a :: rest =>
    fires timeout s a +
      match TimerList.step s a with
      | some s' => firings timeout s' rest
      | none => 0

/-- `e'` is the entry `e` after it has been rescheduled some times. -/
structure Rescheduled (times : Nat) (e e' : TimerEntry η) : Prop where
  handle : e'.handle = e.handle
  repeatMsec : e'.repeatMsec = e.repeatMsec
  nanoseconds : e'.absTime.nanoseconds =
    e.absTime.nanoseconds + times * (e.repeatMsec * Timers.nanosecondsInAMilliseconds)

omit [DecidableEq η] in
theorem Rescheduled.refl (e : TimerEntry η) : Rescheduled 0 e e := ⟨rfl, rfl, by simp⟩

omit [DecidableEq η] in
theorem Rescheduled.trans {times times' : Nat} {e e' e'' : TimerEntry η}
    (h : Rescheduled times e e') (h' : Rescheduled times' e' e'') :
    Rescheduled (times + times') e e'' := by
  refine ⟨h'.handle.trans h.handle, h'.repeatMsec.trans h.repeatMsec, ?_⟩
  rw [h'.nanoseconds, h.nanoseconds, h.repeatMsec]
  push_cast
  ring

/-- Erasing the entry of one timeout leaves those of the others. -/
theorem mem_onRemoveTimeout {c : Timers.State η} {timeout : η} {e : TimerEntry η}
    (he : e ∈ c.timers) (hne : timeout ≠ e.handle) :
    e ∈ (Timers.onRemoveTimeout c timeout).timers := by
  obtain ⟨-, heq⟩ | ⟨pos, hpos, htimers, -⟩ := Timers.onRemoveTimeout_cases c timeout
  · rwa [heq]
  · obtain ⟨hlt, hhandle, -⟩ := List.findIdx?_eq_some_iff_getElem.mp hpos
    have hperm := List.getElem_cons_eraseIdx_perm hlt
    rw [htimers]
    obtain rfl | hmem := List.mem_cons.mp (hperm.mem_iff.mpr he)
    · exact absurd (by simpa using hhandle) (Ne.symm hne)
    · exact hmem

omit [DecidableEq η] in
theorem mem_onAddTimeout {c : Timers.State η} {e : TimerEntry η} (he : e ∈ c.timers)
    (timeout : η) (interval : Nat) (enabled : Bool) (now : Timers.Timespec) :
    e ∈ (Timers.onAddTimeout c timeout interval enabled now).timers := by
  unfold Timers.onAddTimeout
  cases enabled with
  | false => exact he
  | true =>
    have hperm := Timers.emplaceTimer_perm ⟨timeout, Timers.incAbsTime now
      (if interval = 0 then 1 else interval), if interval = 0 then 1 else interval⟩ c.timers
    exact hperm.mem_iff.mpr (List.mem_cons_of_mem _ he)

/-- The entry of a timeout is the only one with its handle. -/
theorem eq_of_handle_eq {s : State η} (hinv : TimerList.Inv s) {e e' : TimerEntry η}
    (he : e ∈ s.conn.timers) (he' : e' ∈ s.conn.timers) (hhandle : e'.handle = e.handle) :
    e' = e := by
  have hcount := hinv.entries e.handle
  have hfilter : (s.conn.timers.filter fun t => t.handle = e.handle).length ≤ 1 := by
    rw [← List.countP_eq_length_filter, hcount]
    split <;> omega
  have hmem : e ∈ s.conn.timers.filter fun t => t.handle = e.handle := by
    simpa using he
  have hmem' : e' ∈ s.conn.timers.filter fun t => t.handle = e.handle := by
    simpa using ⟨he', hhandle⟩
  generalize s.conn.timers.filter (fun t => t.handle = e.handle) = l at *
  match l, hfilter with
  | [t], _ => rw [List.mem_singleton.mp hmem, List.mem_singleton.mp hmem']

theorem rescheduled_onTimerfdEvent {s : State η} (hinv : TimerList.Inv s) {e : TimerEntry η}
    (he : e ∈ s.conn.timers) (epollin : Bool) :
    ∃ e' ∈ (Timers.onTimerfdEvent s.conn epollin).timers,
      Rescheduled (fires e.handle s (.timerfdEvent epollin)) e e' := by
  cases epollin with
  | false => exact ⟨e, he, .refl e⟩
  | true =>
    unfold Timers.onTimerfdEvent
    cases htimers : s.conn.timers with
    | nil =>
      rw [htimers] at he
      cases he
    | cons t rest =>
      have hfires :
          fires e.handle s (.timerfdEvent true) = if t.handle = e.handle then 1 else 0 := by
        simp [fires, htimers]
      simp only [Bool.not_true, Bool.false_eq_true, if_false, hfires]
      by_cases hhandle : t.handle = e.handle
      case pos =>
        -- The front entry is the one that is rescheduled.
        obtain rfl := eq_of_handle_eq hinv he (htimers ▸ List.mem_cons_self) hhandle
        have hnormal := (hinv.list.due t he).1.1
        refine ⟨_, (Timers.sortTimers_perm _).mem_iff.mpr List.mem_cons_self, rfl, rfl, ?_⟩
        rw [if_pos rfl, (Timers.incAbsTime_spec hnormal _).2]
        simp
      case neg =>
        obtain rfl | hmem := List.mem_cons.mp (htimers ▸ he)
        · exact absurd rfl hhandle
        · rw [if_neg hhandle]
          exact ⟨e, (Timers.sortTimers_perm _).mem_iff.mpr (List.mem_cons_of_mem _ hmem), .refl e⟩

theorem rescheduled_step {s s' : State η} {a : Label η} (hinv : TimerList.Inv s)
    {e : TimerEntry η} (he : e ∈ s.conn.timers) (ha : LeavesEntry e.handle a)
    (hstep : TimerList.step s a = some s') :
    ∃ e' ∈ s'.conn.timers, Rescheduled (fires e.handle s a) e e' := by
  cases a with
  | addTimeout timeout interval enabled now =>
    simp only [TimerList.step, Option.ite_none_right_eq_some, Option.some.injEq] at hstep
    obtain ⟨-, rfl⟩ := hstep
    exact ⟨e, mem_onAddTimeout he timeout interval enabled now, .refl e⟩
  | removeTimeout timeout =>
    simp only [TimerList.step, Option.ite_none_right_eq_some, Option.some.injEq] at hstep
    obtain ⟨-, rfl⟩ := hstep
    exact ⟨e, mem_onRemoveTimeout he ha, .refl e⟩
  | toggledTimeout timeout interval now =>
    simp only [TimerList.step] at hstep
    split at hstep
    case h_1 enabled _ =>
      simp only [Option.ite_none_right_eq_some, Option.some.injEq] at hstep
      obtain ⟨-, rfl⟩ := hstep
      cases enabled with
      | false => exact ⟨e, mem_onAddTimeout he timeout interval true now, .refl e⟩
      | true => exact ⟨e, mem_onRemoveTimeout he ha, .refl e⟩
    case h_2 => cases hstep
  | timerfdEvent epollin =>
    obtain rfl := Option.some.inj hstep
    exact rescheduled_onTimerfdEvent hinv he epollin

/-- Rescheduling does not drift: after any steps that leave its entry alone a timeout is due at
    the time it was due at first and one interval for each time it has been rescheduled. -/
theorem rescheduled_run {s s' : State η} (hinv : TimerList.Inv s) {e : TimerEntry η}
    (he : e ∈ s.conn.timers) {labels : List (Label η)}
    (hleaves : ∀ a ∈ labels, LeavesEntry e.handle a)
    (hrun : (TimerList.system η).run s labels = some s') :
    ∃ e' ∈ s'.conn.timers, Rescheduled (firings e.handle s labels) e e' := by
  induction labels generalizing s e with
  | nil =>
    obtain rfl := Option.some.inj hrun
    exact ⟨e, he, .refl e⟩
  | cons a rest ih =>
    obtain ⟨next, hstep, hrest⟩ := Option.bind_eq_some_iff.mp hrun
    have hstep' : TimerList.step s a = some next := hstep
    obtain ⟨e₁, he₁, hfirst⟩ := rescheduled_step hinv he (hleaves a List.mem_cons_self) hstep'
    have hleaves' : ∀ b ∈ rest, LeavesEntry e₁.handle b := fun b hb =>
      hfirst.handle ▸ hleaves b (List.mem_cons_of_mem _ hb)
    obtain ⟨e₂, he₂, hlater⟩ := ih (TimerList.inv_step hinv hstep') he₁ hleaves' hrest
    refine ⟨e₂, he₂, ?_⟩
    rw [hfirst.handle] at hlater
    simp only [firings, hstep']
    exact hfirst.trans hlater

end Runs

end Ultrabus.TimeStamps
