import Ultrabus.Lib.Exec

/-! # Computations that ask their surroundings

A computation that puts questions to its surroundings, such as a peer that replies or data that
other threads may have changed, and goes on with the answers.  A property of its results is
stated over all answers, so it holds however the surroundings behave. -/

/-- `Answer q` is the type of the answers to `q`; a computation may also stop with an error. -/
inductive Dialog (ε : Type) {Q : Type} (Answer : Q → Type) (α : Type) where
  | done (value : α)
  | stop (error : ε)
  | ask (q : Q) (next : Answer q → Dialog ε Answer α)

namespace Dialog

variable {ε Q : Type} {Answer : Q → Type} {α β : Type}

protected def bind : Dialog ε Answer α → (α → Dialog ε Answer β) → Dialog ε Answer β
  | .done value, f => f value
  | .stop error, _ => .stop error
  | .ask q next, f => .ask q fun answer => (next answer).bind f

instance : Monad (Dialog ε Answer) where
  pure := Dialog.done
  bind := Dialog.bind

/-- A question as a computation, which returns the answer. -/
def question (q : Q) : Dialog ε Answer (Answer q) := .ask q .done

/-- A computation that asks nothing and has a budget; it stops without an error when the budget
    is spent. -/
def ofExec : Exec ε α → Dialog (Option ε) Answer α
  | .ok value => .done value
  | .throw error => .stop (some error)
  | .timeout => .stop none

/-! ## Results -/

/-- With some answers the computation returns the value. -/
inductive MayReturn : Dialog ε Answer α → α → Prop where
  | done {value : α} : MayReturn (.done value) value
  | ask {q : Q} {next : Answer q → Dialog ε Answer α} {value : α} (answer : Answer q) :
      MayReturn (next answer) value → MayReturn (.ask q next) value

/-- Whatever the answers are, what the computation returns has the property. -/
def Ensures (d : Dialog ε Answer α) (P : α → Prop) : Prop := ∀ value, d.MayReturn value → P value

@[simp] theorem mayReturn_done_iff {value result : α} :
    MayReturn (.done value : Dialog ε Answer α) result ↔ result = value := by
  constructor
  · intro h
    cases h
    rfl
  · rintro rfl
    exact .done

@[simp] theorem not_mayReturn_stop (error : ε) (result : α) :
    ¬ MayReturn (.stop error : Dialog ε Answer α) result := by
  intro h
  cases h

@[simp] theorem mayReturn_ask_iff {q : Q} {next : Answer q → Dialog ε Answer α} {result : α} :
    MayReturn (.ask q next) result ↔ ∃ answer, (next answer).MayReturn result := by
  constructor
  · intro h
    cases h with
    | ask answer h => exact ⟨answer, h⟩
  · rintro ⟨answer, h⟩
    exact .ask answer h

theorem mayReturn_bind_iff {d : Dialog ε Answer α} {f : α → Dialog ε Answer β} {result : β} :
    (d >>= f).MayReturn result ↔ ∃ value, d.MayReturn value ∧ (f value).MayReturn result := by
  induction d with
  | done value =>
    have hbind : (Dialog.done value >>= f) = f value := rfl
    simp [hbind]
  | stop error =>
    have hbind : (Dialog.stop error >>= f) = .stop error := rfl
    simp [hbind]
  | ask q next ih =>
    have hbind : (Dialog.ask q next >>= f) = .ask q fun answer => next answer >>= f := rfl
    simp only [hbind, mayReturn_ask_iff, ih]
    constructor
    · rintro ⟨answer, value, hvalue, h⟩
      exact ⟨value, ⟨answer, hvalue⟩, h⟩
    · rintro ⟨value, ⟨answer, hvalue⟩, h⟩
      exact ⟨answer, value, hvalue, h⟩

/-! ## Rules -/

section Rules

variable {P : α → Prop}

theorem ensures_done {value : α} : Ensures (.done value : Dialog ε Answer α) P ↔ P value := by
  constructor
  · intro h
    exact h value .done
  · intro h result hresult
    cases hresult
    exact h

@[simp] theorem ensures_pure {value : α} :
    Ensures (pure value : Dialog ε Answer α) P ↔ P value := ensures_done

@[simp] theorem ensures_stop (error : ε) : Ensures (.stop error : Dialog ε Answer α) P := by
  intro result hresult
  cases hresult

/-- What is known of the first result is all that the rest relies on. -/
theorem Ensures.bind {d : Dialog ε Answer α} {f : α → Dialog ε Answer β} {P : β → Prop}
    {R : α → Prop} (h : d.Ensures R) (hf : ∀ value, R value → (f value).Ensures P) :
    (d >>= f).Ensures P := by
  intro result hresult
  obtain ⟨value, hvalue, hresult⟩ := mayReturn_bind_iff.mp hresult
  exact hf value (h value hvalue) result hresult

theorem ensures_bind_of_forall {d : Dialog ε Answer α} {f : α → Dialog ε Answer β} {P : β → Prop}
    (hf : ∀ value, (f value).Ensures P) : (d >>= f).Ensures P := by
  intro result hresult
  obtain ⟨value, -, hresult⟩ := mayReturn_bind_iff.mp hresult
  exact hf value result hresult

theorem ensures_ite {c : Prop} [Decidable c] {d d' : Dialog ε Answer α}
    (hthen : c → d.Ensures P) (helse : ¬ c → d'.Ensures P) :
    (if c then d else d').Ensures P := by
  split
  · exact hthen ‹_›
  · exact helse ‹_›

theorem ensures_ofExec {x : Exec ε α} :
    Ensures (ofExec x : Dialog (Option ε) Answer α) P ↔ ∀ value, x = .ok value → P value := by
  cases x with
  | ok value => simp [ofExec, ensures_done]
  | throw error => simp [ofExec]
  | timeout => simp [ofExec]

end Rules

end Dialog
