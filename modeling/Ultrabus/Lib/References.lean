import Ultrabus.Lib.Places

/-! # A value and a reference that may lead into it

A procedure that changes a value and reads another one through a reference, which may be a part
of the value.  What replaces the content of the value ends the life of its parts, and nothing is
read or written through a reference to one of them any more. -/

inductive Reference (V A : Type*) where
  | inside (place : List A)
  | outside (value : V)
  | dangling

/-- The value that is changed, and the reference. -/
structure Aliased (V A : Type*) where
  target : V
  reference : Reference V A

namespace Aliased

variable {V A : Type*} (T : Accessors V A)

/-- What the reference refers to, as long as it lives. -/
def read (m : Aliased V A) : Option V :=
  match m.reference with
  | .inside place => T.at? m.target place
  | .outside value => some value
  | .dangling => none

def write (m : Aliased V A) (new : V) : Option (Aliased V A) :=
  match m.reference with
  | .inside place => some { m with target := T.put new m.target place }
  | .outside _ => some { m with reference := .outside new }
  | .dangling => none

/-- A change that leaves the parts of the value where they are. -/
def update (m : Aliased V A) (f : V → V) : Aliased V A := { m with target := f m.target }

/-- The whole content of the value is replaced. -/
def replace (m : Aliased V A) (new : V) : Aliased V A where
  target := new
  reference :=
    match m.reference with
    | .outside value => .outside value
    | _ => .dangling

variable {T}

@[simp] theorem update_mk (v : V) (reference : Reference V A) (f : V → V) :
    update ⟨v, reference⟩ f = ⟨f v, reference⟩ := rfl

@[simp] theorem replace_inside (v new : V) (place : List A) :
    replace ⟨v, .inside place⟩ new = ⟨new, .dangling⟩ := rfl

@[simp] theorem replace_outside (v value new : V) :
    replace (A := A) ⟨v, .outside value⟩ new = ⟨new, .outside value⟩ := rfl

@[simp] theorem read_inside (v : V) (place : List A) :
    read T ⟨v, .inside place⟩ = T.at? v place := rfl

@[simp] theorem read_outside (v value : V) : read T ⟨v, .outside value⟩ = some value := rfl

@[simp] theorem read_dangling (v : V) : read T ⟨v, .dangling⟩ = none := rfl

@[simp] theorem write_inside (v new : V) (place : List A) :
    write T ⟨v, .inside place⟩ new = some ⟨T.put new v place, .inside place⟩ := rfl

@[simp] theorem write_outside (v value new : V) :
    write T ⟨v, .outside value⟩ new = some ⟨v, .outside new⟩ := rfl

end Aliased
