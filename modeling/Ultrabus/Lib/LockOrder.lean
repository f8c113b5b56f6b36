import Mathlib.Data.List.Nodup
import Mathlib.Logic.Function.Basic
import Mathlib.Logic.Relation
import Mathlib.Order.Nat

/-! # Threads that lock mutexes in order

Threads run programs that lock and unlock mutexes, wait for something outside and join other
threads.  If every program locks mutexes in the order of a rank and gives them back, and holds
none while it waits or joins, then nobody waits for himself: whoever is blocked waits, directly
or through others, for a thread that can go on. -/

namespace LockOrder

inductive Instr (τ μ : Type) where
  | lock (m : μ)
  | unlock (m : μ)
  -- for something that none of the threads has to do
  | wait
  | join (t : τ)
deriving DecidableEq, Repr

structure State (τ μ : Type) where
  -- what a thread has still to do
  program : τ → List (Instr τ μ)
  holder : μ → Option τ

variable {τ μ : Type}

section Steps

variable [DecidableEq τ] [DecidableEq μ]

/-- A thread that has nothing left to do takes up a program. -/
def State.start (s : State τ μ) (t : τ) (program : List (Instr τ μ)) : Option (State τ μ) :=
  if s.program t = [] then
    some { s with program := Function.update s.program t program }
  else none

/-- The next instruction of a thread. -/
def State.go (s : State τ μ) (t : τ) : Option (State τ μ) :=
  match s.program t with
  | [] => none
  | .lock m :: rest =>
    if s.holder m = none then
      some ⟨Function.update s.program t rest, Function.update s.holder m (some t)⟩
    else none
  | .unlock m :: rest =>
    some ⟨Function.update s.program t rest, Function.update s.holder m none⟩
  | .wait :: rest => some { s with program := Function.update s.program t rest }
  | .join u :: rest =>
    if s.program u = [] then
      some { s with program := Function.update s.program t rest }
    else none

end Steps

/-- A thread cannot go on before the other has. -/
inductive State.WaitsFor (s : State τ μ) (t u : τ) : Prop where
  | lock {m : μ} {rest : List (Instr τ μ)} :
    s.program t = .lock m :: rest → s.holder m = some u → WaitsFor s t u
  | join {rest : List (Instr τ μ)} :
    s.program t = .join u :: rest → s.program u ≠ [] → WaitsFor s t u

/-! ## Programs -/

/-- A mutex around a program. -/
def guarded (m : μ) (body : List (Instr τ μ)) : List (Instr τ μ) :=
  .lock m :: (body ++ [.unlock m])

/-- The program only locks and unlocks. -/
def NeverWaits (p : List (Instr τ μ)) : Prop :=
  ∀ i ∈ p, i ≠ .wait ∧ ∀ u, i ≠ .join u

section

variable {p q : List (Instr τ μ)} {m : μ}

theorem NeverWaits.nil : NeverWaits ([] : List (Instr τ μ)) := nofun

theorem NeverWaits.lock (h : NeverWaits p) : NeverWaits (.lock m :: p) :=
  List.forall_mem_cons.mpr ⟨⟨nofun, nofun⟩, h⟩

theorem NeverWaits.unlock (h : NeverWaits p) : NeverWaits (.unlock m :: p) :=
  List.forall_mem_cons.mpr ⟨⟨nofun, nofun⟩, h⟩

theorem NeverWaits.append (hp : NeverWaits p) (hq : NeverWaits q) : NeverWaits (p ++ q) :=
  List.forall_mem_append.mpr ⟨hp, hq⟩

theorem NeverWaits.flatMap {α : Type} {xs : List α} {f : α → List (Instr τ μ)}
    (h : ∀ x ∈ xs, NeverWaits (f x)) : NeverWaits (xs.flatMap f) := by
  intro i hi
  obtain ⟨x, hx, hmem⟩ := List.mem_flatMap.mp hi
  exact h x hx i hmem

theorem NeverWaits.guarded (h : NeverWaits p) : NeverWaits (guarded m p) :=
  .lock (h.append (.unlock .nil))

end

section Programs

variable [DecidableEq μ]

/-- The mutexes that are held after a program. -/
def heldAfter : List μ → List (Instr τ μ) → List μ
  | held, [] => held
  | held, .lock m :: rest => heldAfter (m :: held) rest
  | held, .unlock m :: rest => heldAfter (held.erase m) rest
  | held, .wait :: rest => heldAfter held rest
  | held, .join _ :: rest => heldAfter held rest

/-- Mutexes are locked in order on top of those that are held, and unlocked by who holds them. -/
def Ordered (rank : μ → Nat) : List μ → List (Instr τ μ) → Prop
  | _, [] => True
  | held, .lock m :: rest => (∀ m' ∈ held, rank m' < rank m) ∧ Ordered rank (m :: held) rest
  | held, .unlock m :: rest => m ∈ held ∧ Ordered rank (held.erase m) rest
  | held, .wait :: rest => Ordered rank held rest
  | held, .join _ :: rest => Ordered rank held rest

/-- No mutex is held where the program waits or joins. -/
def waitsUnlocked : List μ → List (Instr τ μ) → Bool
  | _, [] => true
  | held, .lock m :: rest => waitsUnlocked (m :: held) rest
  | held, .unlock m :: rest => waitsUnlocked (held.erase m) rest
  | held, .wait :: rest => held.isEmpty && waitsUnlocked held rest
  | held, .join _ :: rest => held.isEmpty && waitsUnlocked held rest

variable {rank : μ → Nat} {p q : List (Instr τ μ)} {held : List μ} {m : μ}

theorem heldAfter_append : heldAfter held (p ++ q) = heldAfter (heldAfter held p) q := by
  induction p generalizing held with
  | nil => rfl
  | cons i rest ih => cases i <;> exact ih

theorem ordered_append :
    Ordered rank held (p ++ q) ↔ Ordered rank held p ∧ Ordered rank (heldAfter held p) q := by
  induction p generalizing held with
  | nil => simp [Ordered, heldAfter]
  | cons i rest ih => cases i <;> simp [Ordered, heldAfter, ih, and_assoc]

theorem waitsUnlocked_append :
    waitsUnlocked held (p ++ q) = (waitsUnlocked held p && waitsUnlocked (heldAfter held p) q) := by
  induction p generalizing held with
  | nil => simp [waitsUnlocked, heldAfter]
  | cons i rest ih => cases i <;> simp [waitsUnlocked, heldAfter, ih, Bool.and_assoc]

theorem NeverWaits.waitsUnlocked (h : NeverWaits p) : waitsUnlocked held p = true := by
  induction p generalizing held with
  | nil => rfl
  | cons i rest ih =>
    obtain ⟨⟨hwait, hjoin⟩, hrest⟩ := List.forall_mem_cons.mp h
    cases i with
    | lock m | unlock m => exact ih hrest
    | wait => exact absurd rfl hwait
    | join u => exact absurd rfl (hjoin u)

/-- A mutex that is held throughout keeps a program from joining. -/
theorem join_notMem (h : waitsUnlocked held p = true) (hheld : m ∈ held)
    (hkept : .unlock m ∉ p) (u : τ) : .join u ∉ p := by
  induction p generalizing held with
  | nil => exact List.not_mem_nil
  | cons i rest ih =>
    rw [List.mem_cons, not_or] at hkept ⊢
    cases i with
    | lock m' => exact ⟨nofun, ih h (List.mem_cons_of_mem _ hheld) hkept.2⟩
    | unlock m' =>
      have hne : m ≠ m' := fun heq => hkept.1 (by rw [heq])
      exact ⟨nofun, ih h ((List.mem_erase_of_ne hne).mpr hheld) hkept.2⟩
    | wait | join =>
      simp only [waitsUnlocked, Bool.and_eq_true, List.isEmpty_iff] at h
      rw [h.1] at hheld
      cases hheld

/-! ### Programs that are put together -/

/-- On top of mutexes that come before `lo` and of `top`, a program locks mutexes in order and
    gives them back; it uses none that comes before `lo`, and joins workers only. -/
structure Fits (rank : μ → Nat) (worker : τ → Prop) (lo : Nat) (top : List μ)
    (p : List (Instr τ μ)) : Prop where
  ordered : ∀ held, (∀ m ∈ held, rank m < lo) → Ordered rank (top ++ held) p
  heldAfter : ∀ held, (∀ m ∈ held, rank m < lo) → heldAfter (top ++ held) p = top ++ held
  above : ∀ m, .unlock m ∈ p → lo ≤ rank m
  joins : ∀ t, .join t ∈ p → worker t

variable {worker : τ → Prop} {lo : Nat} {top : List μ}

theorem Fits.nil : Fits rank worker lo top [] :=
  ⟨fun _ _ => trivial, fun _ _ => rfl, nofun, nofun⟩

theorem Fits.wait : Fits rank worker lo top [.wait] :=
  ⟨fun _ _ => trivial, fun _ _ => rfl, by simp, by simp⟩

theorem Fits.join {t : τ} (ht : worker t) : Fits rank worker lo top [.join t] :=
  ⟨fun _ _ => trivial, fun _ _ => rfl, by simp, by simpa using ht⟩

theorem Fits.append (hp : Fits rank worker lo top p) (hq : Fits rank worker lo top q) :
    Fits rank worker lo top (p ++ q) where
  ordered held hheld := by
    rw [ordered_append, hp.heldAfter held hheld]
    exact ⟨hp.ordered held hheld, hq.ordered held hheld⟩
  heldAfter held hheld := by
    rw [heldAfter_append, hp.heldAfter held hheld, hq.heldAfter held hheld]
  above m' hm := (List.mem_append.mp hm).elim (hp.above m') (hq.above m')
  joins t ht := (List.mem_append.mp ht).elim (hp.joins t) (hq.joins t)

theorem Fits.flatMap {α : Type} {xs : List α} {f : α → List (Instr τ μ)}
    (h : ∀ x ∈ xs, Fits rank worker lo top (f x)) : Fits rank worker lo top (xs.flatMap f) := by
  induction xs with
  | nil => exact .nil
  | cons x xs ih =>
    rw [List.flatMap_cons]
    exact (h x List.mem_cons_self).append (ih fun y hy => h y (List.mem_cons_of_mem x hy))

theorem Fits.mono {lo' : Nat} (hp : Fits rank worker lo top p) (hle : lo' ≤ lo) :
    Fits rank worker lo' top p where
  ordered held hheld := hp.ordered held fun m hm => (hheld m hm).trans_le hle
  heldAfter held hheld := hp.heldAfter held fun m hm => (hheld m hm).trans_le hle
  above m hm := hle.trans (hp.above m hm)
  joins := hp.joins

/-- The body may use the mutexes that come after the one that is locked. -/
theorem Fits.under (hm : lo ≤ rank m) (hp : Fits rank worker (rank m + 1) [] p) :
    Fits rank worker lo [m] p := by
  have hbelow : ∀ held, (∀ m' ∈ held, rank m' < lo) → ∀ m' ∈ m :: held, rank m' < rank m + 1 := by
    intro held hheld
    refine List.forall_mem_cons.mpr ⟨Nat.lt_succ_self _, fun m' hm' => ?_⟩
    have hlow := hheld m' hm'
    omega
  refine ⟨fun held hheld => hp.ordered (m :: held) (hbelow held hheld),
    fun held hheld => hp.heldAfter (m :: held) (hbelow held hheld), fun m' hm' => ?_, hp.joins⟩
  have habove := hp.above m' hm'
  omega

theorem Fits.closed (hm : lo ≤ rank m) (hp : Fits rank worker lo [m] p) :
    Fits rank worker lo [] (guarded m p) where
  ordered held hheld := by
    refine ⟨fun m' hm' => (hheld m' hm').trans_le hm, ?_⟩
    refine ordered_append.mpr ⟨hp.ordered held hheld, ?_⟩
    have hafter : LockOrder.heldAfter (m :: held) p = m :: held := hp.heldAfter held hheld
    rw [List.nil_append, hafter]
    exact ⟨List.mem_cons_self, trivial⟩
  heldAfter held hheld := by
    have hafter : LockOrder.heldAfter (m :: held) p = m :: held := hp.heldAfter held hheld
    rw [LockOrder.guarded, LockOrder.heldAfter, List.nil_append, heldAfter_append, hafter]
    simp [LockOrder.heldAfter]
  above m' hm' := by
    simp only [LockOrder.guarded, List.mem_cons, List.mem_append, Instr.unlock.injEq, reduceCtorEq,
      List.not_mem_nil, or_false, false_or] at hm'
    obtain hm' | rfl := hm'
    · exact hp.above m' hm'
    · exact hm
  joins t ht := hp.joins t (by simpa [LockOrder.guarded] using ht)

theorem Fits.guarded (hm : lo ≤ rank m) (hp : Fits rank worker (rank m + 1) [] p) :
    Fits rank worker lo [] (guarded m p) :=
  (hp.under hm).closed hm

/-- The mutex is given back for a while. -/
theorem Fits.reopened (hm : lo ≤ rank m) (hp : Fits rank worker lo [] p) :
    Fits rank worker lo [m] (.unlock m :: (p ++ [.lock m])) where
  ordered held hheld := by
    refine ⟨List.mem_cons_self, ?_⟩
    have hafter : LockOrder.heldAfter held p = held := hp.heldAfter held hheld
    rw [List.singleton_append, List.erase_cons_head, ordered_append, hafter]
    exact ⟨hp.ordered held hheld, fun m' hm' => (hheld m' hm').trans_le hm, trivial⟩
  heldAfter held hheld := by
    have hafter : LockOrder.heldAfter held p = held := hp.heldAfter held hheld
    rw [LockOrder.heldAfter, List.singleton_append, List.erase_cons_head, heldAfter_append, hafter]
    rfl
  above m' hm' := by
    simp only [List.mem_cons, List.mem_append, Instr.unlock.injEq, reduceCtorEq, List.not_mem_nil,
      or_false] at hm'
    obtain rfl | hm' := hm'
    · exact hm
    · exact hp.above m' hm'
  joins t ht := hp.joins t (by simpa using ht)

end Programs

/-! ## Runs -/

section Runs

variable [DecidableEq τ] [DecidableEq μ] {rank : μ → Nat} {worker : τ → Prop} {s s' : State τ μ}

/-- What a program may do when mutexes are held by its thread: it locks in order, gives back all,
    waits and joins with no mutex, and only threads that are no workers join, and join workers. -/
structure Runs (rank : μ → Nat) (worker : τ → Prop) (t : τ) (held : List μ)
    (p : List (Instr τ μ)) : Prop where
  ordered : Ordered rank held p
  givesBack : heldAfter held p = []
  waits : waitsUnlocked held p = true
  joins : ∀ u, .join u ∈ p → worker u ∧ ¬ worker t

/-- What a thread holds, and that the rest of its program may be run with it. -/
structure Safe (rank : μ → Nat) (worker : τ → Prop) (s : State τ μ) (t : τ) (held : List μ) :
    Prop where
  holds : ∀ m, m ∈ held ↔ s.holder m = some t
  nodup : held.Nodup
  runs : Runs rank worker t held (s.program t)

def Inv (rank : μ → Nat) (worker : τ → Prop) (s : State τ μ) : Prop :=
  ∀ t, ∃ held, Safe rank worker s t held

omit [DecidableEq τ] in
theorem Fits.runs {p : List (Instr τ μ)} {t : τ} (hp : Fits rank worker 0 [] p)
    (hwaits : waitsUnlocked [] p = true) (hjoins : worker t → ∀ u, .join u ∉ p) :
    Runs rank worker t [] p where
  ordered := hp.ordered [] nofun
  givesBack := hp.heldAfter [] nofun
  waits := hwaits
  joins u hu := ⟨hp.joins u hu, fun ht => hjoins ht u hu⟩

/-- One thread goes on and the others have what they had. -/
theorem inv_of_safe (h : Inv rank worker s) {t : τ} {held : List μ}
    (hsafe : Safe rank worker s' t held)
    (hprogram : ∀ t', t' ≠ t → s'.program t' = s.program t')
    (hholder : ∀ t' m, t' ≠ t → (s'.holder m = some t' ↔ s.holder m = some t')) :
    Inv rank worker s' := by
  intro t'
  by_cases heq : t' = t
  · exact ⟨held, heq ▸ hsafe⟩
  · obtain ⟨held', hholds, hnodup, hruns⟩ := h t'
    exact ⟨held', fun m => (hholds m).trans (hholder t' m heq).symm, hnodup,
      hprogram t' heq ▸ hruns⟩

theorem inv_start (h : Inv rank worker s) {t : τ} {p : List (Instr τ μ)}
    (hp : Runs rank worker t [] p) (hstart : s.start t p = some s') : Inv rank worker s' := by
  simp only [State.start, Option.ite_none_right_eq_some, Option.some.injEq] at hstart
  obtain ⟨hdone, rfl⟩ := hstart
  obtain ⟨held, hholds, hnodup, hruns⟩ := h t
  rw [hdone] at hruns
  obtain rfl : held = [] := hruns.givesBack
  exact inv_of_safe h ⟨hholds, hnodup, by simpa using hp⟩
    (fun t' ht => Function.update_of_ne ht _ _) fun _ _ _ => Iff.rfl

theorem inv_lock (h : Inv rank worker s) {t : τ} {m : μ} {rest : List (Instr τ μ)}
    (hprogram : s.program t = .lock m :: rest) (hfree : s.holder m = none) :
    Inv rank worker
      ⟨Function.update s.program t rest, Function.update s.holder m (some t)⟩ := by
  obtain ⟨held, hholds, hnodup, hruns⟩ := h t
  rw [hprogram] at hruns
  obtain ⟨⟨horder, hordered⟩, hback, hwaits, hjoins⟩ := hruns
  have hnot : m ∉ held := fun hm => Nat.lt_irrefl _ (horder m hm)
  have hrest : Runs rank worker t (m :: held) rest :=
    ⟨hordered, hback, hwaits, fun u hu => hjoins u (List.mem_cons_of_mem _ hu)⟩
  refine inv_of_safe h ⟨fun m' => ?_, List.nodup_cons.mpr ⟨hnot, hnodup⟩, by simpa using hrest⟩
    (fun t' ht => Function.update_of_ne ht _ _) fun t' m' ht => ?_
  · by_cases hm : m' = m
    · simp [hm]
    · simp [hm, hholds m']
  · by_cases hm : m' = m
    · simp [hm, hfree, Ne.symm ht]
    · simp [hm]

theorem inv_unlock (h : Inv rank worker s) {t : τ} {m : μ} {rest : List (Instr τ μ)}
    (hprogram : s.program t = .unlock m :: rest) :
    Inv rank worker ⟨Function.update s.program t rest, Function.update s.holder m none⟩ := by
  obtain ⟨held, hholds, hnodup, hruns⟩ := h t
  rw [hprogram] at hruns
  obtain ⟨⟨hm, hordered⟩, hback, hwaits, hjoins⟩ := hruns
  have hholder := (hholds m).mp hm
  have hrest : Runs rank worker t (held.erase m) rest :=
    ⟨hordered, hback, hwaits, fun u hu => hjoins u (List.mem_cons_of_mem _ hu)⟩
  refine inv_of_safe h ⟨fun m' => ?_, hnodup.erase m, by simpa using hrest⟩
    (fun t' ht => Function.update_of_ne ht _ _) fun t' m' ht => ?_
  · by_cases hm' : m' = m
    · simp [hm', hnodup.mem_erase_iff]
    · simp [hm', List.mem_erase_of_ne hm', hholds m']
  · by_cases hm' : m' = m
    · simp [hm', hholder, Ne.symm ht]
    · simp [hm']

/-- A thread gets past where it has waited or joined. -/
theorem inv_pass (h : Inv rank worker s) {t : τ} {i : Instr τ μ} {rest : List (Instr τ μ)}
    (hprogram : s.program t = i :: rest) (hi : i = .wait ∨ ∃ u, i = .join u) :
    Inv rank worker { s with program := Function.update s.program t rest } := by
  obtain ⟨held, hholds, hnodup, hruns⟩ := h t
  rw [hprogram] at hruns
  obtain ⟨hordered, hback, hwaits, hjoins⟩ := hruns
  have hrest : Runs rank worker t held rest := by
    obtain rfl | ⟨u, rfl⟩ := hi
    all_goals
      simp only [waitsUnlocked, Bool.and_eq_true] at hwaits
      exact ⟨hordered, hback, hwaits.2, fun u hu => hjoins u (List.mem_cons_of_mem _ hu)⟩
  exact inv_of_safe h ⟨hholds, hnodup, by simpa using hrest⟩
    (fun t' ht => Function.update_of_ne ht _ _) fun _ _ _ => Iff.rfl

theorem inv_go (h : Inv rank worker s) {t : τ} (hgo : s.go t = some s') : Inv rank worker s' := by
  simp only [State.go] at hgo
  split at hgo
  case h_1 => cases hgo
  case h_2 m rest hprogram =>
    simp only [Option.ite_none_right_eq_some, Option.some.injEq] at hgo
    obtain ⟨hfree, rfl⟩ := hgo
    exact inv_lock h hprogram hfree
  case h_3 m rest hprogram =>
    obtain rfl := Option.some.inj hgo
    exact inv_unlock h hprogram
  case h_4 rest hprogram =>
    obtain rfl := Option.some.inj hgo
    exact inv_pass h hprogram (.inl rfl)
  case h_5 u rest hprogram =>
    simp only [Option.ite_none_right_eq_some, Option.some.injEq] at hgo
    obtain ⟨-, rfl⟩ := hgo
    exact inv_pass h hprogram (.inr ⟨u, rfl⟩)

omit [DecidableEq τ] in
/-- Nobody has anything to do and no mutex is locked. -/
theorem inv_idle : Inv rank worker (⟨fun _ => [], fun _ => none⟩ : State τ μ) :=
  fun _ => ⟨[], by simp, List.nodup_nil, ⟨trivial, rfl, rfl, nofun⟩⟩

/-! ### Who can go on -/

/-- A thread can go on, or waits, directly or through others, for one that can. -/
def State.Moves (s : State τ μ) (t : τ) : Prop :=
  ∃ u, Relation.ReflTransGen s.WaitsFor t u ∧ (s.go u).isSome = true

theorem State.Moves.self {t : τ} (h : (s.go t).isSome = true) : s.Moves t :=
  ⟨t, .refl, h⟩

theorem State.Moves.head {t u : τ} (h : s.WaitsFor t u) (hu : s.Moves u) : s.Moves t := by
  obtain ⟨v, hwaits, hgo⟩ := hu
  exact ⟨v, .head h hwaits, hgo⟩

/-- Who holds a mutex waits at most for mutexes that come later in the order. -/
theorem Inv.moves_of_holder (h : Inv rank worker s) {bound : Nat} (hbound : ∀ m, rank m ≤ bound)
    {m : μ} {t : τ} (hholder : s.holder m = some t) : s.Moves t := by
  induction hn : bound - rank m using Nat.strong_induction_on generalizing m t with
  | _ n ih =>
    obtain ⟨held, hholds, -, hruns⟩ := h t
    have hheld := (hholds m).mpr hholder
    cases hprogram : s.program t with
    | nil =>
      rw [hprogram] at hruns
      obtain rfl : held = [] := hruns.givesBack
      cases hheld
    | cons i rest =>
      rw [hprogram] at hruns
      have hwaits := hruns.waits
      cases i with
      | lock m' =>
        cases hholder' : s.holder m' with
        | none => exact .self (by simp [State.go, hprogram, hholder'])
        | some u =>
          have horder := hruns.ordered.1 m hheld
          have hle := hbound m'
          exact .head (.lock hprogram hholder') (ih (bound - rank m') (by omega) hholder' rfl)
      | unlock m' => exact .self (by simp [State.go, hprogram])
      | wait | join =>
        simp only [waitsUnlocked, Bool.and_eq_true, List.isEmpty_iff] at hwaits
        rw [hwaits.1] at hheld
        cases hheld

/-- Who does not join next goes on or waits for a mutex. -/
theorem Inv.moves_of_notJoin (h : Inv rank worker s) {bound : Nat} (hbound : ∀ m, rank m ≤ bound)
    {t : τ} (ht : s.program t ≠ []) (hjoin : ∀ u rest, s.program t ≠ .join u :: rest) :
    s.Moves t := by
  cases hprogram : s.program t with
  | nil => exact absurd hprogram ht
  | cons i rest =>
    cases i with
    | lock m =>
      cases hholder : s.holder m with
      | none => exact .self (by simp [State.go, hprogram, hholder])
      | some u => exact .head (.lock hprogram hholder) (h.moves_of_holder hbound hholder)
    | unlock m => exact .self (by simp [State.go, hprogram])
    | wait => exact .self (by simp [State.go, hprogram])
    | join u => exact absurd hprogram (hjoin u rest)

/-- Nobody waits for himself: whoever has something left to do can go on or waits, directly or
    through others, for a thread that can. -/
theorem Inv.moves (h : Inv rank worker s) {bound : Nat} (hbound : ∀ m, rank m ≤ bound) {t : τ}
    (ht : s.program t ≠ []) : s.Moves t := by
  by_cases hjoin : ∃ u rest, s.program t = .join u :: rest
  · obtain ⟨u, rest, hprogram⟩ := hjoin
    by_cases hu : s.program u = []
    · exact .self (by simp [State.go, hprogram, hu])
    · obtain ⟨held, -, -, hruns⟩ := h t
      have hworker := (hruns.joins u (hprogram ▸ List.mem_cons_self)).1
      obtain ⟨held', -, -, hruns'⟩ := h u
      refine .head (.join hprogram hu) (h.moves_of_notJoin hbound hu fun v rest' hprogram' => ?_)
      exact (hruns'.joins v (hprogram' ▸ List.mem_cons_self)).2 hworker
  · exact h.moves_of_notJoin hbound ht fun u rest hprogram => hjoin ⟨u, rest, hprogram⟩

end Runs

end LockOrder
