import Mathlib.Logic.Basic

/-! # Flags in a machine word

A flag is a word with a single bit.  That a word has a flag is written as C++ writes it,
`word &&& flag ≠ 0`; the lemmas tell what the bitwise operations do to it. -/

namespace UInt32

/-- A word with exactly one bit. -/
def IsFlag (flag : UInt32) : Prop := ∃ i < 32, flag.toBitVec = BitVec.twoPow 32 i

variable {flag : UInt32}

theorem IsFlag.and_ne_zero_iff (h : flag.IsFlag) :
    ∃ i < 32, ∀ word : UInt32, word &&& flag ≠ 0 ↔ word.toBitVec.getLsbD i = true := by
  obtain ⟨i, hi, hflag⟩ := h
  refine ⟨i, hi, fun word => ?_⟩
  rw [Ne, ← UInt32.toBitVec_inj, UInt32.toBitVec_and, hflag, BitVec.and_twoPow]
  cases word.toBitVec.getLsbD i with
  | false => simp
  | true =>
    simp only [if_true, iff_true]
    intro hzero
    have hbit := congrArg (BitVec.getLsbD · i) hzero
    simp [hi] at hbit

theorem IsFlag.and_iff (h : flag.IsFlag) (x y : UInt32) :
    (x &&& y) &&& flag ≠ 0 ↔ x &&& flag ≠ 0 ∧ y &&& flag ≠ 0 := by
  obtain ⟨i, -, hbit⟩ := h.and_ne_zero_iff
  simp only [hbit, UInt32.toBitVec_and, BitVec.getLsbD_and, Bool.and_eq_true]

theorem IsFlag.or_iff (h : flag.IsFlag) (x y : UInt32) :
    (x ||| y) &&& flag ≠ 0 ↔ x &&& flag ≠ 0 ∨ y &&& flag ≠ 0 := by
  obtain ⟨i, -, hbit⟩ := h.and_ne_zero_iff
  simp only [hbit, UInt32.toBitVec_or, BitVec.getLsbD_or, Bool.or_eq_true]

/-- What is left of a word when the flags of another one are taken out of it. -/
theorem IsFlag.sdiff_iff (h : flag.IsFlag) (x y : UInt32) :
    (x &&& ~~~y) &&& flag ≠ 0 ↔ x &&& flag ≠ 0 ∧ ¬ y &&& flag ≠ 0 := by
  obtain ⟨i, hi, hbit⟩ := h.and_ne_zero_iff
  simp only [hbit, UInt32.toBitVec_and, UInt32.toBitVec_not, BitVec.getLsbD_and,
    BitVec.getLsbD_not, hi, decide_true, Bool.true_and, Bool.and_eq_true, Bool.not_eq_true']
  rw [Bool.not_eq_true]

end UInt32
