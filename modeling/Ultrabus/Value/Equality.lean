import Ultrabus.Value.Shape

/-! # Equality of D-Bus values

When the operators return, and what `operator==` decides.

The operands are two objects.  Where the source first asks whether they are one
(`this == &rhs`), it answers what the comparison of a value with itself comes to:
`DbusType.equal_self`, for values without doubles. -/

namespace Ultrabus

/-! ## The first place that decides -/

/-- Places that are all ties, and then one that `p` holds of. -/
inductive Reaches (tie p : Step → Prop) : List Step → Prop where
  | here {s : Step} {steps : List Step} : p s → Reaches tie p (s :: steps)
  | there {s : Step} {steps : List Step} : tie s → Reaches tie p steps →
      Reaches tie p (s :: steps)

theorem reaches_nil (tie p : Step → Prop) : ¬ Reaches tie p [] := by
  intro h
  cases h

theorem reaches_cons {tie p : Step → Prop} {s : Step} {steps : List Step} :
    Reaches tie p (s :: steps) ↔ p s ∨ tie s ∧ Reaches tie p steps := by
  constructor
  · intro h
    cases h with
    | here hp => exact .inl hp
    | there htie hrest => exact .inr ⟨htie, hrest⟩
  · rintro (hp | ⟨htie, hrest⟩)
    · exact .here hp
    · exact .there htie hrest

theorem reaches_map {tie p : Step → Prop} (f : Step → Step) (steps : List Step) :
    Reaches tie p (steps.map f) ↔ Reaches (fun s => tie (f s)) (fun s => p (f s)) steps := by
  induction steps with
  | nil => exact iff_of_false (reaches_nil _ _) (reaches_nil _ _)
  | cons s steps ih => simp only [List.map_cons, reaches_cons, ih]

theorem reaches_and_const {tie p : Step → Prop} (q : Prop) (steps : List Step) :
    Reaches tie (fun s => p s ∧ q) steps ↔ Reaches tie p steps ∧ q := by
  induction steps with
  | nil => simp [reaches_nil]
  | cons s steps ih =>
    rw [reaches_cons, reaches_cons, ih, or_and_right, and_assoc]

theorem reaches_congr {tie tie' p p' : Step → Prop} (htie : ∀ s, tie s ↔ tie' s)
    (hp : ∀ s, p s ↔ p' s) (steps : List Step) : Reaches tie p steps ↔ Reaches tie' p' steps := by
  rw [funext fun s => propext (htie s), funext fun s => propext (hp s)]

section FirstVerdict

variable {α : Type} {verdict : Step → Option α} {tie : α}

theorem firstVerdict_eq_iff {value : α} (hvalue : value ≠ tie) (steps : List Step) :
    firstVerdict verdict tie steps = value ↔
      Reaches (fun s => verdict s = none) (fun s => verdict s = some value) steps := by
  induction steps with
  | nil => exact iff_of_false (fun h => hvalue h.symm) (reaches_nil _ _)
  | cons s steps ih =>
    rw [firstVerdict_cons, reaches_cons, ← ih]
    cases h : verdict s <;> simp

theorem firstVerdict_eq_tie_iff (hverdict : ∀ s, verdict s ≠ some tie) (steps : List Step) :
    firstVerdict verdict tie steps = tie ↔ ∀ s ∈ steps, verdict s = none := by
  induction steps with
  | nil => exact iff_of_true rfl fun s hs => absurd hs List.not_mem_nil
  | cons s steps ih =>
    rw [firstVerdict_cons, List.forall_mem_cons, ← ih]
    have hs := hverdict s
    cases h : verdict s with
    | none => simp
    | some value => simpa [h] using hs

end FirstVerdict

/-! ## When the operators throw -/

/-- Two basic values between which the operator goes on to the next place. -/
def Step.Tied (op : Operator) : Step → Prop
  | .basics lhs rhs =>
    match op with
    | .equality => lhs.stored.equal rhs.stored = true
    | .threeWay =>
      lhs.type.ordersWith rhs.type = true ∧ lhs.stored.threeWay rhs.stored = some .eq
  | _ => False

theorem Step.Tied.isBasics {op : Operator} {s : Step} (h : s.Tied op) : s.IsBasics := by
  cases s with
  | basics lhs rhs => exact ⟨lhs, rhs, rfl⟩
  | _ => cases h

theorem Step.equal?_eq_none (s : Step) : s.equal? = none ↔ s.Tied .equality := by
  cases s with
  | basics lhs rhs =>
    by_cases h : lhs.stored.equal rhs.stored <;> simp [Step.equal?, Step.Tied, Basic.equal, h]
  | _ => simp [Step.equal?, Step.Tied]

theorem Step.threeWay?_eq_none (s : Step) : s.threeWay? = none ↔ s.Tied .threeWay := by
  cases s with
  | basics lhs rhs => simp [Step.threeWay?, Step.Tied, Basic.threeWay]
  | _ => simp [Step.threeWay?, Step.Tied]

theorem Step.equal?_eq_error (s : Step) (e : Exception) :
    s.equal? = some (.error e) ↔ s = .clash ∧ e = .badCast := by
  cases s with
  | basics lhs rhs => by_cases h : lhs.equal rhs <;> simp [Step.equal?, h]
  | _ => simp [Step.equal?, eq_comm]

theorem Step.threeWay?_eq_error (s : Step) (e : Exception) :
    s.threeWay? = some (.error e) ↔ s = .clash ∧ e = .badCast := by
  cases s with
  | basics lhs rhs => by_cases h : lhs.threeWay rhs = some .eq <;> simp [Step.threeWay?, h]
  | _ => simp [Step.threeWay?, eq_comm]

/-- Two dicts of different key classes face each other, at a place to which the operator
    comes because all basic values before it are ties. -/
def MeetsClash (op : Operator) (a b : DbusType) : Prop :=
  Reaches (Step.Tied op) (· = .clash) (a.steps op b)

theorem DbusType.equal_eq_error (a b : DbusType) (e : Exception) :
    a.equal b = .error e ↔ MeetsClash .equality a b ∧ e = .badCast := by
  rw [DbusType.equal_eq, firstVerdict_eq_iff (by simp), MeetsClash, ← reaches_and_const]
  exact reaches_congr Step.equal?_eq_none (fun s => s.equal?_eq_error e) _

theorem DbusType.threeWay_eq_error (a b : DbusType) (e : Exception) :
    a.threeWay b = .error e ↔ MeetsClash .threeWay a b ∧ e = .badCast := by
  rw [DbusType.threeWay_eq, firstVerdict_eq_iff (by simp), MeetsClash, ← reaches_and_const]
  exact reaches_congr Step.threeWay?_eq_none (fun s => s.threeWay?_eq_error e) _

theorem returns_iff {α : Type} {result : Except Exception α} {throws : Prop}
    (h : ∀ e, result = .error e ↔ throws ∧ e = .badCast) : (∃ r, result = .ok r) ↔ ¬ throws := by
  cases result with
  | ok r => simpa using h .badCast
  | error e =>
    have hthrows := ((h e).mp rfl).1
    simp [hthrows]

theorem Stored.equal_comm (x y : Stored) : x.equal y = y.equal x := by
  cases x <;> cases y <;>
    simp only [Stored.equal, IntType.common_comm, Binary64.equal_comm, eq_comm]

theorem Step.tied_equality_swap (s : Step) : s.swap.Tied .equality ↔ s.Tied .equality := by
  cases s with
  | basics lhs rhs => simp only [Step.swap, Step.Tied, Stored.equal_comm]
  | _ => simp [Step.swap, Step.Tied]

theorem Step.swap_eq_clash (s : Step) : s.swap = .clash ↔ s = .clash := by
  cases s <;> simp [Step.swap]

theorem meetsClash_equality_comm (a b : DbusType) :
    MeetsClash .equality b a ↔ MeetsClash .equality a b := by
  rw [MeetsClash, DbusType.steps_swap, reaches_map]
  exact reaches_congr Step.tied_equality_swap Step.swap_eq_clash _

/-! ## Values that cannot be compared -/

def Stored.isText : Stored → Bool
  | .text _ => true
  | _ => false

/-- Contents of two kinds, a number and a text, or containers of two signatures. -/
def Incomparable (a b : DbusType) : Prop :=
  match a.content, b.content with
  | .basic lhs, .basic rhs => lhs.stored.isText ≠ rhs.stored.isText
  | .array sig _, .array sig' _ => sig ≠ sig'
  | .struct sig _, .struct sig' _ => sig ≠ sig'
  | .dict key sig _, .dict key' sig' _ => key ≠ key' ∨ sig ≠ sig'
  | _, _ => True

theorem Stored.equal_of_isText_ne {x y : Stored} (h : x.isText ≠ y.isText) :
    x.equal y = false := by
  cases x <;> cases y <;> simp [Stored.isText] at h <;> rfl

theorem Basic.threeWay_of_isText_ne {x y : Basic} (h : x.stored.isText ≠ y.stored.isText) :
    x.threeWay y = none := by
  cases x <;> cases y <;> simp [Basic.stored, Stored.isText] at h <;> rfl

/-- Two values that cannot be compared have one place, and it decides. -/
theorem Incomparable.steps {a b : DbusType} (h : Incomparable a b) (op : Operator) :
    a.steps op b = [.unlike] ∨ a.steps op b = [.clash] ∨
      ∃ x y, a.steps op b = [.basics x y] ∧ x.stored.isText ≠ y.stored.isText := by
  rw [← DbusType.steps_content_left, ← DbusType.steps_content_right]
  have ha := a.content_ne_variant
  have hb := b.content_ne_variant
  unfold Incomparable at h
  generalize a.content = a at h ha
  generalize b.content = b at h hb
  cases b with
  | variant value => exact absurd rfl (hb value)
  | basic rhs =>
    cases a with
    | variant value => exact absurd rfl (ha value)
    | basic lhs => exact .inr (.inr ⟨lhs, rhs, rfl, h⟩)
    | _ => exact .inl rfl
  | array sig' items' =>
    cases a with
    | variant value => exact absurd rfl (ha value)
    | array sig items => exact .inl (if_neg fun hsig => h hsig.1)
    | _ => exact .inl rfl
  | struct sig' items' =>
    cases a with
    | variant value => exact absurd rfl (ha value)
    | struct sig items => exact .inl (if_neg fun hsig => h hsig.1)
    | _ => exact .inl rfl
  | dict key' sig' items' =>
    cases a with
    | variant value => exact absurd rfl (ha value)
    | dict key sig items =>
      simp only [DbusType.steps, DbusType.content]
      by_cases hkey : key = key'
      · have hsig : sig ≠ sig' := h.resolve_left (not_not_intro hkey)
        exact .inl (by rw [if_neg (not_not_intro hkey), if_neg hsig])
      · exact .inr (.inl (if_pos hkey))
    | _ => exact .inl rfl

theorem Incomparable.equal {a b : DbusType} (h : Incomparable a b) {r : Bool}
    (hr : a.equal b = .ok r) : r = false := by
  rw [DbusType.equal_eq] at hr
  obtain hsteps | hsteps | ⟨x, y, hsteps, htext⟩ := h.steps .equality
  case inl => simpa [hsteps, firstVerdict, Step.equal?] using hr.symm
  case inr.inl => simp [hsteps, firstVerdict, Step.equal?] at hr
  case inr.inr =>
    simpa [hsteps, firstVerdict, Step.equal?, Basic.equal, Stored.equal_of_isText_ne htext]
      using hr.symm

theorem Incomparable.threeWay {a b : DbusType} (h : Incomparable a b) {r : Option Ordering}
    (hr : a.threeWay b = .ok r) : r = none := by
  rw [DbusType.threeWay_eq] at hr
  obtain hsteps | hsteps | ⟨x, y, hsteps, htext⟩ := h.steps .threeWay
  case inl => simpa [hsteps, firstVerdict, Step.threeWay?] using hr.symm
  case inr.inl => simp [hsteps, firstVerdict, Step.threeWay?] at hr
  case inr.inr =>
    simpa [hsteps, firstVerdict, Step.threeWay?, Basic.threeWay_of_isText_ne htext]
      using hr.symm

theorem Incomparable.symm {a b : DbusType} (h : Incomparable a b) : Incomparable b a := by
  unfold Incomparable at h ⊢
  generalize a.content = a at h
  generalize b.content = b at h
  cases a <;> cases b <;> first | exact h.symm | exact h | trivial | skip
  exact h.imp Ne.symm Ne.symm

/-- Both operators return in both operand orders, and answer `false` and `unordered` where
    the values cannot be compared. -/
structure ComparesCleanly (a b : DbusType) : Prop where
  equal : ∃ r, a.equal b = .ok r ∧ (Incomparable a b → r = false)
  equal_swapped : ∃ r, b.equal a = .ok r ∧ (Incomparable a b → r = false)
  threeWay : ∃ r, a.threeWay b = .ok r ∧ (Incomparable a b → r = none)
  threeWay_swapped : ∃ r, b.threeWay a = .ok r ∧ (Incomparable a b → r = none)

/-- Two values compare without an exception exactly when no operator comes to a place where
    dicts of two key classes face each other. -/
theorem comparesCleanly_iff (a b : DbusType) :
    ComparesCleanly a b ↔
      ¬ MeetsClash .equality a b ∧ ¬ MeetsClash .threeWay a b ∧ ¬ MeetsClash .threeWay b a := by
  have hequal := returns_iff (DbusType.equal_eq_error a b)
  have hswapped := returns_iff (DbusType.equal_eq_error b a)
  have hthreeWay := returns_iff (DbusType.threeWay_eq_error a b)
  have hthreeWay' := returns_iff (DbusType.threeWay_eq_error b a)
  rw [meetsClash_equality_comm] at hswapped
  constructor
  · intro h
    exact ⟨hequal.mp (h.equal.imp fun _ => And.left),
      hthreeWay.mp (h.threeWay.imp fun _ => And.left),
      hthreeWay'.mp (h.threeWay_swapped.imp fun _ => And.left)⟩
  · rintro ⟨hnoEqual, hnoThreeWay, hnoThreeWay'⟩
    obtain ⟨r₁, h₁⟩ := hequal.mpr hnoEqual
    obtain ⟨r₂, h₂⟩ := hswapped.mpr hnoEqual
    obtain ⟨r₃, h₃⟩ := hthreeWay.mpr hnoThreeWay
    obtain ⟨r₄, h₄⟩ := hthreeWay'.mpr hnoThreeWay'
    exact {
      equal := ⟨r₁, h₁, fun h => h.equal h₁⟩
      equal_swapped := ⟨r₂, h₂, fun h => h.symm.equal h₂⟩
      threeWay := ⟨r₃, h₃, fun h => h.threeWay h₃⟩
      threeWay_swapped := ⟨r₄, h₄, fun h => h.symm.threeWay h₄⟩ }

/-- Two empty dicts, keyed by strings and by integers, throw. -/
theorem emptyDicts_not_comparesCleanly :
    (DbusType.dict .string (text "a{sv}") []).Coherent ∧
      (DbusType.dict .int32 (text "a{iv}") []).Coherent ∧
      ¬ ComparesCleanly (.dict .string (text "a{sv}") []) (.dict .int32 (text "a{iv}") []) := by
  have hcoherent : ∀ {key : BasicType},
      dbusSignatureValidateSingle (dictSignature key (text "v")) = true →
      key ≠ .double → key ≠ .unixFd →
      (DbusType.dict key (dictSignature key (text "v")) []).Coherent :=
    fun hsig hdouble hfd => .dict hsig hdouble hfd (by simp) .nil (by simp) (by simp)
  refine ⟨hcoherent (by decide) (by decide) (by decide),
    hcoherent (by decide) (by decide) (by decide), ?_⟩
  · intro h
    obtain ⟨r, hr, -⟩ := h.equal
    cases hr

/-! ## What equality decides -/

/-- No basic value in the value is a double. -/
def DbusType.DoubleFree (v : DbusType) : Prop := ∀ x ∈ v.leaves, x.NotDouble

/-- The same number or text, or a negative number and the unsigned one with its low bits. -/
def Linked (x y : Basic) : Prop := x.exact = y.exact ∨ x.WrapsTo y ∨ y.WrapsTo x

theorem linked_iff (x y : Basic) : Linked x y ↔ x.exact = y.exact ∨ x.wrapped y = true :=
  or_congr Iff.rfl (x.wrapped_iff y).symm

theorem forall_mem_pairSteps {xs ys : List Basic} (hlength : xs.length = ys.length)
    (p : Step → Prop) :
    (∀ s ∈ pairSteps xs ys, p s) ↔ List.Forall₂ (fun x y => p (.basics x y)) xs ys := by
  induction xs generalizing ys with
  | nil =>
    cases ys with
    | nil => simp [pairSteps]
    | cons y ys => cases hlength
  | cons x xs ih =>
    cases ys with
    | nil => cases hlength
    | cons y ys =>
      rw [List.forall₂_cons, ← ih (Nat.succ.inj hlength), pairSteps, List.zipWith_cons_cons,
        List.forall_mem_cons, pairSteps]

/-- Equal values have one shape, and `==` holds leaf by leaf. -/
theorem DbusType.equal_iff (a b : DbusType) :
    a.equal b = .ok true ↔
      a.shape = b.shape ∧ List.Forall₂ (fun x y => x.equal y = true) a.leaves b.leaves := by
  have htie : ∀ x y : Basic, (Step.basics x y).equal? = none ↔ x.equal y = true := by
    intro x y
    rw [Step.equal?_eq_none]
    rfl
  rw [DbusType.equal_eq,
    firstVerdict_eq_tie_iff (fun s => s.equal?_ne_true)]
  constructor
  · intro h
    have hshape : a.shape = b.shape :=
      DbusType.shape_of_steps fun s hs => (s.equal?_eq_none.mp (h s hs)).isBasics
    obtain ⟨hlength, hsteps⟩ := DbusType.steps_of_shape .equality hshape
    rw [hsteps, forall_mem_pairSteps hlength] at h
    exact ⟨hshape, h.imp fun x y => (htie x y).mp⟩
  · rintro ⟨hshape, hleaves⟩
    obtain ⟨hlength, hsteps⟩ := DbusType.steps_of_shape .equality hshape
    rw [hsteps, forall_mem_pairSteps hlength]
    exact hleaves.imp fun x y => (htie x y).mpr

/-- Without doubles, equality is sameness of shape and a link between the leaves. -/
theorem DbusType.equal_iff_linked {a b : DbusType} (ha : a.DoubleFree) (hb : b.DoubleFree) :
    a.equal b = .ok true ↔
      a.shape = b.shape ∧ List.Forall₂ Linked a.leaves b.leaves := by
  rw [DbusType.equal_iff]
  refine and_congr_right fun _ => ?_
  unfold DbusType.DoubleFree at ha hb
  generalize a.leaves = xs at ha
  generalize b.leaves = ys at hb
  induction xs generalizing ys with
  | nil => cases ys <;> simp
  | cons x xs ih =>
    cases ys with
    | nil => simp
    | cons y ys =>
      obtain ⟨hx, hxs⟩ := List.forall_mem_cons.mp ha
      obtain ⟨hy, hys⟩ := List.forall_mem_cons.mp hb
      rw [List.forall₂_cons, List.forall₂_cons, ih hxs ys hys, Basic.equal_iff hx hy, linked_iff]

theorem Linked.refl (x : Basic) : Linked x x := .inl rfl

theorem Linked.symm {x y : Basic} (h : Linked x y) : Linked y x := h.imp Eq.symm Or.symm

theorem DbusType.equal_self {a : DbusType} (ha : a.DoubleFree) : a.equal a = .ok true :=
  (DbusType.equal_iff_linked ha ha).mpr ⟨rfl, List.forall₂_same.mpr fun x _ => Linked.refl x⟩

theorem DbusType.equal_symm {a b : DbusType} (ha : a.DoubleFree) (hb : b.DoubleFree)
    (h : a.equal b = .ok true) : b.equal a = .ok true := by
  obtain ⟨hshape, hlinked⟩ := (DbusType.equal_iff_linked ha hb).mp h
  exact (DbusType.equal_iff_linked hb ha).mpr
    ⟨hshape.symm, (hlinked.imp fun _ _ => Linked.symm).flip⟩

/-! ## Where equality is an equivalence -/

/-- The number that an integer-like value or a variant around one stands for; `true` is 1. -/
def DbusType.number? (v : DbusType) : Option Int :=
  match v.content with
  | .basic x =>
    match x.exact with
    | .number n => some n
    | _ => none
  | _ => none

theorem DbusType.number?_eq_some {v : DbusType} {n : Int} (h : v.number? = some n) :
    ∃ x, v.content = .basic x ∧ x.exact = .number n := by
  unfold DbusType.number? at h
  split at h
  case h_1 x hx =>
    split at h
    case h_1 m hm => exact ⟨x, hx, by rw [hm, Option.some.inj h]⟩
    case h_2 => cases h
  case h_2 => cases h

/-- What an equivalence that knows numbers by their value says of three values. -/
structure EqualityLaws (a b c : DbusType) : Prop where
  refl : a.equal a = .ok true
  symm : a.equal b = .ok true → b.equal a = .ok true
  trans : a.equal b = .ok true → b.equal c = .ok true → a.equal c = .ok true
  numbers : ∀ m n, a.number? = some m → b.number? = some n → (a.equal b = .ok true ↔ m = n)

/-- A negative number and an unsigned one that it is converted to. -/
def WrappedNumbers (a b : DbusType) : Prop :=
  ∃ x y, a.content = .basic x ∧ b.content = .basic y ∧ (x.WrapsTo y ∨ y.WrapsTo x)

/-- A negative number of 32 bits and the unsigned one with the same 32 bits. -/
def NarrowPair : Stored → Stored → Prop
  | .integer .int32 m, .integer .uint32 n => m < 0 ∧ n = m + 2 ^ 32
  | .integer .uint32 m, .integer .int32 n => n < 0 ∧ m = n + 2 ^ 32
  | _, _ => False

/-- A number, and the same one in 64 bits; without a sign, modulo the 64 bits. -/
def Widened : Stored → Stored → Prop
  | .integer _ m, .integer .int64 n => n = m
  | .integer _ m, .integer .uint64 n => n = m % 2 ^ 64
  | _, _ => False

/-- The number in the middle has 32 bits: one end has the same bits and the other sign, the other
    end has the same number in 64 bits. -/
def BreaksAt (x y z : Basic) : Prop :=
  (NarrowPair x.stored y.stored ∧ Widened y.stored z.stored) ∨
    (NarrowPair z.stored y.stored ∧ Widened y.stored x.stored)

/-- Three values of one shape, the same numbers and texts leaf by leaf but for signs that wrap,
    where at one leaf the chain breaks. -/
def BrokenChain (a b c : DbusType) : Prop :=
  a.shape = b.shape ∧ b.shape = c.shape ∧
    List.Forall₂ Linked a.leaves b.leaves ∧ List.Forall₂ Linked b.leaves c.leaves ∧
    ∃ (i : Nat) (x y z : Basic),
      a.leaves[i]? = some x ∧ b.leaves[i]? = some y ∧ c.leaves[i]? = some z ∧ BreaksAt x y z

theorem linked_integers {x y : Basic} {s t : IntType} {m n : Int} (hx : x.stored = .integer s m)
    (hy : y.stored = .integer t n) :
    Linked x y ↔ (s.common t).convert m = (s.common t).convert n := by
  rw [linked_iff]
  unfold Basic.exact Basic.wrapped
  simp only [hx, hy, Stored.exact, Exact.number.injEq, Bool.and_eq_true, decide_eq_true_eq]
  by_cases hmn : m = n
  · simp [hmn]
  · simp [hmn]

theorem breaks_numbers_iff {s t u : IntType} {m n k : Int} (hm : s.InRange m) (hn : t.InRange n)
    (hk : u.InRange k) :
    ((NarrowPair (.integer s m) (.integer t n) ∧ Widened (.integer t n) (.integer u k)) ∨
        (NarrowPair (.integer u k) (.integer t n) ∧ Widened (.integer t n) (.integer s m))) ↔
      (s.common t).convert m = (s.common t).convert n ∧
        (t.common u).convert n = (t.common u).convert k ∧
          ¬ (s.common u).convert m = (s.common u).convert k := by
  cases s <;> cases t <;> cases u <;>
    simp only [IntType.InRange, NarrowPair, Widened, IntType.common, IntType.convert, and_false,
      false_and, or_false, false_or, false_iff] at hm hn hk ⊢ <;>
    omega

/-- A chain of two links breaks only between numbers of 32 and of 64 bits. -/
theorem breaksAt_iff (x y z : Basic) :
    BreaksAt x y z ↔ Linked x y ∧ Linked y z ∧ ¬ Linked x z := by
  by_cases hintegers : ∃ s m t n u k, x.stored = .integer s m ∧ y.stored = .integer t n ∧
      z.stored = .integer u k
  · obtain ⟨s, m, t, n, u, k, hx, hy, hz⟩ := hintegers
    rw [linked_integers hx hy, linked_integers hy hz, linked_integers hx hz, BreaksAt, hx, hy, hz]
    exact breaks_numbers_iff (Basic.stored_inRange hx) (Basic.stored_inRange hy)
      (Basic.stored_inRange hz)
  · -- Without integers all three say the same.
    rw [linked_iff, linked_iff, linked_iff]
    unfold BreaksAt Basic.exact Basic.wrapped
    cases hx : x.stored <;> cases hy : y.stored <;> cases hz : z.stored <;>
      simp only [Stored.exact, NarrowPair, Widened, reduceCtorEq, Exact.text.injEq,
        Exact.double.injEq, Bool.false_eq_true, or_false, and_false, false_and, or_self,
        false_iff, not_and, not_not]
    case integer.integer.integer =>
      exact absurd ⟨_, _, _, _, _, _, hx, hy, hz⟩ hintegers
    case double.double.double => exact Eq.trans
    case text.text.text => exact Eq.trans

/-- Where the links do not carry over, some leaf is to blame. -/
theorem exists_unlinked {xs ys zs : List Basic} (hxy : List.Forall₂ Linked xs ys)
    (hyz : List.Forall₂ Linked ys zs) (hxz : ¬ List.Forall₂ Linked xs zs) :
    ∃ (i : Nat) (x y z : Basic), xs[i]? = some x ∧ ys[i]? = some y ∧ zs[i]? = some z ∧
      BreaksAt x y z := by
  induction hxy generalizing zs with
  | nil =>
    cases hyz
    exact absurd .nil hxz
  | @cons x y xs ys hlinkedXY hrestXY ih =>
    cases hyz with
    | @cons _ z _ zs hlinkedYZ hrestYZ =>
      by_cases hlinkedXZ : Linked x z
      · have hrestXZ : ¬ List.Forall₂ Linked xs zs := fun h => hxz (.cons hlinkedXZ h)
        obtain ⟨i, x', y', z', hx, hy, hz, hfound⟩ := ih hrestYZ hrestXZ
        exact ⟨i + 1, x', y', z', by simpa using hx, by simpa using hy, by simpa using hz, hfound⟩
      · exact ⟨0, x, y, z, rfl, rfl, rfl,
          (breaksAt_iff x y z).mpr ⟨hlinkedXY, hlinkedYZ, hlinkedXZ⟩⟩

theorem Linked.of_getElem? {xs zs : List Basic} (h : List.Forall₂ Linked xs zs) {i : Nat}
    {x z : Basic} (hx : xs[i]? = some x) (hz : zs[i]? = some z) : Linked x z := by
  induction h generalizing i with
  | nil => cases hx
  | cons hlinked _ ih =>
    cases i with
    | zero =>
      obtain rfl := Option.some.inj hx
      obtain rfl := Option.some.inj hz
      exact hlinked
    | succ i => exact ih hx hz

/-- Equality carries over from `a`, `b` and from `b`, `c`, unless the chain is broken. -/
theorem DbusType.equal_trans_iff {a b c : DbusType} (ha : a.DoubleFree) (hb : b.DoubleFree)
    (hc : c.DoubleFree) :
    (a.equal b = .ok true → b.equal c = .ok true → a.equal c = .ok true) ↔
      ¬ BrokenChain a b c := by
  rw [DbusType.equal_iff_linked ha hb, DbusType.equal_iff_linked hb hc,
    DbusType.equal_iff_linked ha hc]
  constructor
  · rintro htrans ⟨hshapeAB, hshapeBC, hlinkedAB, hlinkedBC, i, x, y, z, hx, -, hz, hbreaks⟩
    have hlinkedAC := (htrans ⟨hshapeAB, hlinkedAB⟩ ⟨hshapeBC, hlinkedBC⟩).2
    exact ((breaksAt_iff x y z).mp hbreaks).2.2 (Linked.of_getElem? hlinkedAC hx hz)
  · rintro hchain ⟨hshapeAB, hlinkedAB⟩ ⟨hshapeBC, hlinkedBC⟩
    refine ⟨hshapeAB.trans hshapeBC, ?_⟩
    by_contra hnot
    exact hchain ⟨hshapeAB, hshapeBC, hlinkedAB, hlinkedBC,
      exists_unlinked hlinkedAB hlinkedBC hnot⟩

theorem DbusType.equal_of_contents {a b : DbusType} {x y : Basic} (ha : a.content = .basic x)
    (hb : b.content = .basic y) : a.equal b = .ok true ↔ x.equal y = true := by
  rw [DbusType.equal_iff, ← a.shape_content, ← b.shape_content, ← a.leaves_content,
    ← b.leaves_content, ha, hb]
  simp [DbusType.shape, DbusType.leaves]

theorem Basic.notDouble_of_number {x : Basic} {n : Int} (h : x.exact = .number n) :
    x.NotDouble := by
  cases x <;> simp [Basic.exact, Basic.stored, Stored.exact] at h <;>
    simp [Basic.NotDouble, Basic.type]

theorem Basic.wrapped_numbers {x y : Basic} (h : x.wrapped y = true) :
    ∃ m n, x.exact = .number m ∧ y.exact = .number n ∧ m ≠ n := by
  unfold Basic.wrapped at h
  split at h
  case h_1 s m t n hx hy =>
    simp only [Bool.and_eq_true, decide_eq_true_eq] at h
    exact ⟨m, n, by rw [Basic.exact, hx, Stored.exact], by rw [Basic.exact, hy, Stored.exact], h.1⟩
  case h_2 => cases h

/-- Two integer-like values are equal exactly when they are the same number, unless one is
    converted to the other. -/
theorem DbusType.equal_numbers_iff (a b : DbusType) :
    (∀ m n, a.number? = some m → b.number? = some n → (a.equal b = .ok true ↔ m = n)) ↔
      ¬ WrappedNumbers a b := by
  constructor
  · rintro hnumbers ⟨x, y, ha, hb, hwrapped⟩
    have hwrapped := (x.wrapped_iff y).mpr hwrapped
    obtain ⟨m, n, hm, hn, hne⟩ := Basic.wrapped_numbers hwrapped
    have hequal : x.equal y = true :=
      (Basic.equal_iff (Basic.notDouble_of_number hm) (Basic.notDouble_of_number hn)).mpr
        (.inr hwrapped)
    have ham : a.number? = some m := by simp only [DbusType.number?, ha, hm]
    have hbn : b.number? = some n := by simp only [DbusType.number?, hb, hn]
    exact hne ((hnumbers m n ham hbn).mp ((DbusType.equal_of_contents ha hb).mpr hequal))
  · intro hnot m n ham hbn
    obtain ⟨x, ha, hm⟩ := DbusType.number?_eq_some ham
    obtain ⟨y, hb, hn⟩ := DbusType.number?_eq_some hbn
    have hunwrapped : ¬ x.wrapped y = true := fun h =>
      hnot ⟨x, y, ha, hb, (x.wrapped_iff y).mp h⟩
    rw [DbusType.equal_of_contents ha hb,
      Basic.equal_iff (Basic.notDouble_of_number hm) (Basic.notDouble_of_number hn), hm, hn,
      Exact.number.injEq]
    exact or_iff_left hunwrapped

/-- `operator==` is an equivalence that knows numbers by their value, on three values
    among which conversion makes no two numbers equal that differ. -/
theorem equalityLaws_iff {a b c : DbusType} (ha : a.DoubleFree) (hb : b.DoubleFree)
    (hc : c.DoubleFree) :
    EqualityLaws a b c ↔ ¬ WrappedNumbers a b ∧ ¬ BrokenChain a b c := by
  constructor
  · intro h
    exact ⟨(DbusType.equal_numbers_iff a b).mp h.numbers,
      (DbusType.equal_trans_iff ha hb hc).mp h.trans⟩
  · rintro ⟨hnumbers, hchain⟩
    exact {
      refl := DbusType.equal_self ha
      symm := DbusType.equal_symm ha hb
      trans := (DbusType.equal_trans_iff ha hb hc).mpr hchain
      numbers := (DbusType.equal_numbers_iff a b).mpr hnumbers }

theorem equalityLaws_five :
    EqualityLaws (.variant (.basic (.int32 5))) (.basic (.byte 5)) (.basic (.uint64 5)) := by
  refine (equalityLaws_iff ?_ ?_ ?_).mpr ⟨?_, ?_⟩
  case refine_1 => simp [DbusType.DoubleFree, DbusType.leaves, Basic.NotDouble, Basic.type]
  case refine_2 => simp [DbusType.DoubleFree, DbusType.leaves, Basic.NotDouble, Basic.type]
  case refine_3 => simp [DbusType.DoubleFree, DbusType.leaves, Basic.NotDouble, Basic.type]
  case refine_4 =>
    rintro ⟨x, y, hx, hy, hwrapped⟩
    cases hx
    cases hy
    exact absurd ((Basic.wrapped_iff _ _).mpr hwrapped) (by decide)
  case refine_5 =>
    rintro ⟨-, -, -, -, i, x, y, z, hx, hy, hz, hbreaks⟩
    cases i with
    | zero =>
      cases hx
      cases hy
      cases hz
      exact hbreaks.elim And.left And.left
    | succ i => cases hx

/-- A number of 32 bits without sign equals -1 in 32 bits, which equals -1 in 64 bits. -/
theorem wrapped_not_equalityLaws :
    (DbusType.basic (.uint32 4294967295)).Coherent ∧ (DbusType.basic (.int32 (-1))).Coherent ∧
      (DbusType.basic (.int64 (-1))).Coherent ∧
      ¬ EqualityLaws (.basic (.uint32 4294967295)) (.basic (.int32 (-1)))
        (.basic (.int64 (-1))) := by
  refine ⟨.basic trivial trivial (by decide), .basic trivial trivial (by decide),
    .basic trivial trivial (by decide), ?_⟩
  intro h
  have htrans := h.trans rfl rfl
  cases htrans

end Ultrabus
