import Mathlib.Data.List.AList
import Mathlib.Data.Multiset.AddSub
import Mathlib.Data.Multiset.Count

/-! # Objects with reference counts

A heap of objects that count their references.  The operations are undefined on an address where
no object lives; an address is used again once its object has been freed.

`Counted h holders` says that every count is the number of references in `holders`.  From a
counted heap, whoever uses only references that it holds never meets a freed object, and an object
lives as long as somebody holds it. -/

/-- A living object and the count of its references. -/
structure RefHeap.Cell (α : Type*) where
  refs : Nat
  content : α

/-- What lives at each address. -/
def RefHeap (α : Type*) := Nat → Option (RefHeap.Cell α)

namespace RefHeap

variable {α : Type*}

def empty : RefHeap α := fun _ => none

def put (h : RefHeap α) (r : Nat) (cell : Option (Cell α)) : RefHeap α := Function.update h r cell

def read (h : RefHeap α) (r : Nat) : Option α := (h r).map Cell.content

/-- The references to what lives at the address. -/
def refs (h : RefHeap α) (r : Nat) : Nat := ((h r).map Cell.refs).getD 0

/-- A new object with one reference, at an address that is free. -/
def alloc (h : RefHeap α) (r : Nat) (a : α) : RefHeap α := h.put r (some ⟨1, a⟩)

def ref (h : RefHeap α) (r : Nat) : Option (RefHeap α) :=
  (h r).map fun cell => h.put r (some { cell with refs := cell.refs + 1 })

/-- The object is freed with its last reference. -/
def unref (h : RefHeap α) (r : Nat) : Option (RefHeap α) :=
  (h r).map fun cell =>
    h.put r (if cell.refs ≤ 1 then none else some { cell with refs := cell.refs - 1 })

def modify (h : RefHeap α) (r : Nat) (f : α → α) : Option (RefHeap α) :=
  (h r).map fun cell => h.put r (some { cell with content := f cell.content })

@[simp]
theorem put_self (h : RefHeap α) (r : Nat) (cell : Option (Cell α)) : h.put r cell r = cell :=
  Function.update_self ..

theorem put_of_ne {h : RefHeap α} {r r' : Nat} {cell : Option (Cell α)} (hne : r' ≠ r) :
    h.put r cell r' = h r' :=
  Function.update_of_ne hne ..

theorem read_put_of_ne {h : RefHeap α} {r r' : Nat} {cell : Option (Cell α)} (hne : r' ≠ r) :
    (h.put r cell).read r' = h.read r' := by
  rw [read, put_of_ne hne, read]

/-- Every count is the number of references in `holders`, and only what is held lives. -/
structure Counted (h : RefHeap α) (holders : Multiset Nat) : Prop where
  refs : ∀ r, h.refs r = holders.count r
  held : ∀ r, h r ≠ none → r ∈ holders

theorem counted_empty : Counted (empty : RefHeap α) 0 :=
  ⟨fun _ => rfl, fun _ h => absurd rfl h⟩

section Rules

variable {h : RefHeap α} {holders : Multiset Nat} {r : Nat}

/-- What is held lives. -/
theorem Counted.exists_cell (hcount : Counted h holders) (hheld : r ∈ holders) :
    ∃ cell, h r = some cell ∧ cell.refs = holders.count r := by
  have hpos : 0 < h.refs r := hcount.refs r ▸ Multiset.count_pos.mpr hheld
  cases hcell : h r with
  | none => simp [RefHeap.refs, hcell] at hpos
  | some cell => exact ⟨cell, rfl, by simpa [RefHeap.refs, hcell] using hcount.refs r⟩

theorem Counted.eq_none_iff (hcount : Counted h holders) : h r = none ↔ r ∉ holders := by
  constructor
  · intro hfree hheld
    obtain ⟨cell, hcell, -⟩ := hcount.exists_cell hheld
    cases hfree.symm.trans hcell
  · exact fun hnot => not_not.mp fun hlives => hnot (hcount.held r hlives)

/-- The counts after a change at one address. -/
theorem Counted.put (hcount : Counted h holders) {holders' : Multiset Nat} {cell : Option (Cell α)}
    (hother : ∀ r', r' ≠ r → holders'.count r' = holders.count r')
    (hrefs : (cell.map Cell.refs).getD 0 = holders'.count r) (hheld : cell ≠ none → r ∈ holders') :
    Counted (h.put r cell) holders' := by
  constructor
  · intro r'
    by_cases heq : r' = r
    · rw [heq, RefHeap.refs, put_self, hrefs]
    · rw [RefHeap.refs, put_of_ne heq, hother r' heq]
      exact hcount.refs r'
  · intro r' hlives
    by_cases heq : r' = r
    · rw [heq, put_self] at hlives
      exact heq ▸ hheld hlives
    · rw [put_of_ne heq] at hlives
      rw [← Multiset.count_pos, hother r' heq]
      exact Multiset.count_pos.mpr (hcount.held r' hlives)

theorem Counted.alloc (hcount : Counted h holders) (hfree : h r = none) (a : α) :
    Counted (h.alloc r a) (r ::ₘ holders) := by
  refine hcount.put (fun r' hne => Multiset.count_cons_of_ne hne _) ?_
    fun _ => Multiset.mem_cons_self r holders
  have hnone : holders.count r = 0 :=
    Multiset.count_eq_zero_of_notMem (hcount.eq_none_iff.mp hfree)
  rw [Multiset.count_cons_self, hnone]
  rfl

theorem Counted.ref (hcount : Counted h holders) (hheld : r ∈ holders) :
    ∃ h', h.ref r = some h' ∧ Counted h' (r ::ₘ holders) ∧ ∀ r', h'.read r' = h.read r' := by
  obtain ⟨cell, hcell, hrefs⟩ := hcount.exists_cell hheld
  refine ⟨_, by rw [RefHeap.ref, hcell]; rfl, hcount.put (fun r' hne =>
    Multiset.count_cons_of_ne hne _) ?_ fun _ => Multiset.mem_cons_self r holders, fun r' => ?_⟩
  · rw [Multiset.count_cons_self, ← hrefs]
    rfl
  · by_cases heq : r' = r
    · rw [heq, read, put_self, read, hcell]
      rfl
    · exact read_put_of_ne heq

theorem Counted.unref (hcount : Counted h (r ::ₘ holders)) :
    ∃ h', h.unref r = some h' ∧ Counted h' holders ∧ ∀ r' ∈ holders, h'.read r' = h.read r' := by
  obtain ⟨cell, hcell, hrefs⟩ := hcount.exists_cell (Multiset.mem_cons_self r holders)
  rw [Multiset.count_cons_self] at hrefs
  refine ⟨_, by rw [RefHeap.unref, hcell]; rfl, hcount.put (fun r' hne =>
    (Multiset.count_cons_of_ne hne _).symm) ?_ ?_, fun r' hstays => ?_⟩
  · split
    case isTrue hlast =>
      have hnone : holders.count r = 0 := by omega
      rw [hnone]
      rfl
    case isFalse hmore =>
      show cell.refs - 1 = holders.count r
      omega
  · intro hlives
    split at hlives
    case isTrue hlast => exact absurd rfl hlives
    case isFalse hmore => exact Multiset.count_pos.mp (by omega)
  · by_cases heq : r' = r
    · -- The object stays because somebody else holds it.
      have hmore : ¬ cell.refs ≤ 1 := by
        have hpos := Multiset.count_pos.mpr (heq ▸ hstays)
        omega
      rw [heq, read, put_self, if_neg hmore, read, hcell]
      rfl
    · exact read_put_of_ne heq

theorem Counted.modify (hcount : Counted h holders) (hheld : r ∈ holders) (f : α → α) :
    ∃ h', h.modify r f = some h' ∧ Counted h' holders ∧ h'.read r = (h.read r).map f ∧
      ∀ r', r' ≠ r → h'.read r' = h.read r' := by
  obtain ⟨cell, hcell, hrefs⟩ := hcount.exists_cell hheld
  have hkept : ((some { cell with content := f cell.content }).map Cell.refs).getD 0 =
      holders.count r := hrefs
  refine ⟨_, by rw [RefHeap.modify, hcell]; rfl, hcount.put (fun _ _ => rfl) hkept
    fun _ => hheld, ?_, fun r' hne => read_put_of_ne hne⟩
  rw [read, put_self, read, hcell]
  rfl

theorem Counted.read (hcount : Counted h holders) (hheld : r ∈ holders) :
    ∃ a, h.read r = some a := by
  obtain ⟨cell, hcell, -⟩ := hcount.exists_cell hheld
  exact ⟨cell.content, by rw [RefHeap.read, hcell]; rfl⟩

theorem read_alloc_self (h : RefHeap α) (r : Nat) (a : α) : (h.alloc r a).read r = some a := by
  rw [RefHeap.read, RefHeap.alloc, put_self]
  rfl

/-- A new object is none that somebody holds. -/
theorem Counted.read_alloc (hcount : Counted h holders) (hfree : h r = none) (a : α) {r' : Nat}
    (hheld : r' ∈ holders) : (h.alloc r a).read r' = h.read r' := by
  refine read_put_of_ne fun heq => ?_
  exact hcount.eq_none_iff.mp hfree (heq ▸ hheld)

end Rules

/-! ## Variables -/

/-- Variables with at most one reference each. -/
abbrev Variables := AList (fun _ : Nat => Option Nat)

namespace Variables

variable {vars : Variables} {o r : Nat} {ctx : Option Nat}

/-- The references in the variables. -/
def held (vars : Variables) : Multiset Nat := (vars.entries.filterMap Sigma.snd : List Nat)

theorem held_insert (vars : Variables) (o : Nat) (ctx : Option Nat) :
    held (vars.insert o ctx) = ctx.toList + held (vars.erase o) := by
  cases ctx <;> rfl

theorem held_of_lookup (h : vars.lookup o = some ctx) :
    held vars = ctx.toList + held (vars.erase o) := by
  have hmem : o ∈ vars.entries.keys := AList.mem_keys.mp (AList.lookup_isSome.mp (by simp [h]))
  obtain ⟨found, before, after, -, hentries, herase⟩ := List.exists_of_kerase hmem
  obtain rfl : found = ctx := by
    have hfound : (⟨o, found⟩ : Sigma fun _ : Nat => Option Nat) ∈ vars.entries := by
      simp [hentries]
    exact Option.some.inj ((AList.mem_lookup_iff.mpr hfound).symm.trans h)
  have hheld : held (vars.erase o) = ((before ++ after).filterMap Sigma.snd : List Nat) := by
    show (((List.kerase o vars.entries).filterMap Sigma.snd : List Nat) : Multiset Nat) = _
    rw [herase]
  rw [hheld, held, hentries]
  cases found with
  | none => simp
  | some r => simp

theorem erase_of_lookup (h : vars.lookup o = none) : vars.erase o = vars := by
  have hmem : o ∉ vars.entries.keys := fun hmem => by
    simpa [h] using AList.lookup_isSome.mpr (AList.mem_keys.mpr hmem)
  exact AList.ext (List.kerase_of_notMem_keys hmem)

theorem mem_held_iff : r ∈ held vars ↔ ∃ o, vars.lookup o = some (some r) := by
  simp only [held, Multiset.mem_coe, List.mem_filterMap, Sigma.exists]
  refine exists_congr fun o => ⟨?_, fun h => ⟨some r, AList.mem_lookup_iff.mp h, rfl⟩⟩
  rintro ⟨ctx, hmem, rfl⟩
  exact AList.mem_lookup_iff.mpr hmem

/-- The reference of another variable. -/
theorem mem_held_erase {o' : Nat} (h : vars.lookup o' = some (some r)) (hne : o' ≠ o) :
    r ∈ held (vars.erase o) :=
  mem_held_iff.mpr ⟨o', by rw [AList.lookup_erase_ne hne, h]⟩

/-- One variable takes the reference of another one. -/
theorem held_move {source : Nat} (hne : source ≠ o) (h : vars.lookup source = some ctx) :
    held ((vars.insert o ctx).insert source none) = held (vars.erase o) := by
  have hsource : (vars.erase o).lookup source = some ctx := by rw [AList.lookup_erase_ne hne, h]
  have hentries : ((vars.insert o ctx).erase source).entries =
      ⟨o, ctx⟩ :: ((vars.erase o).erase source).entries := by
    show List.kerase source (⟨o, ctx⟩ :: List.kerase o vars.entries) = _
    rw [List.kerase_cons_ne hne]
    rfl
  rw [held_insert, held_of_lookup hsource, held, hentries]
  cases ctx <;> simp [held]

end Variables

end RefHeap
