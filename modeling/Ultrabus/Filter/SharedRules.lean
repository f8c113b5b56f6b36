import Mathlib.Data.Multiset.Bind
import Ultrabus.Filter.MatchRules

/-! # The rules of all filters of a connection

Any number of `message_filter` objects on one connection that stays up, whose synchronous calls
of `add_match` and `remove_match` run at the same time, and their destructors, which ask the bus
to remove the rules that are left and do not wait.  The bus answers every request before its
timeout, may take those of different filters in any order, and does not refuse those of the
destructors.  It gets a rule up to its first NUL.

The bus has what it gets of each rule as many times as there are filters with the rule: what one
filter does, and that it goes away, takes no signal from another. -/

namespace Ultrabus.SharedRules

open MatchRules (Op Request Reply Outcome Whole busAnswer callSync)

/-- Where a synchronous call is, under the `match_rule_mutex` of its filter. -/
inductive Phase where
  | idle
  | waits (op : Op) (rule : Bytes)
  | answered (op : Op) (rule : Bytes) (ok : Bool)
deriving DecidableEq

structure Filter where
  matchRules : Finset Bytes
  phase : Phase
deriving DecidableEq

structure State where
  filters : Multiset Filter
  -- the rules of the destructors' requests that the bus has not taken
  leaving : Multiset Bytes
  bus : Multiset Bytes

/-! ## Steps -/

/-- A synchronous function up to `send_and_wait`. -/
def Filter.call (f : Filter) (op : Op) (rule : Bytes) (sent : Bool) : Filter :=
  match (callSync op ⟨f.matchRules, none, [], [], 0⟩ rule sent).2 with
  | .returned _ => f
  | .waits => { f with phase := .waits op rule }

inductive Label where
  | construct
  | call (f : Filter) (op : Op) (rule : Bytes) (sent : Bool)
  | answer (f : Filter) (accept : Bool)
  | finish (f : Filter)
  | destroy (f : Filter)
  | leave (rule : Bytes)

def State.replace (s : State) (f f' : Filter) : State :=
  { s with filters := f' ::ₘ s.filters.erase f }

/-- Filters are told apart by what they have; of two that have the same any one may step. -/
def step (s : State) : Label → Option State
  | .construct => some { s with filters := ⟨∅, .idle⟩ ::ₘ s.filters }
  | .call f op rule sent =>
    if f ∈ s.filters ∧ f.phase = .idle then some (s.replace f (f.call op rule sent)) else none
  | .answer f accept =>
    if f ∈ s.filters then
      match f.phase with
      | .waits op rule =>
        let (bus, ok) := busAnswer s.bus ⟨op, rule, .waiter, false⟩ accept
        some { s.replace f { f with phase := .answered op rule ok } with bus := bus }
      | _ => none
    else none
  | .finish f =>
    if f ∈ s.filters then
      match f.phase with
      | .answered op rule ok =>
        some (s.replace f ⟨Reply.handle ⟨⟨op, rule, .waiter, false⟩, ok⟩ f.matchRules, .idle⟩)
      | _ => none
    else none
  | .destroy f =>
    if f ∈ s.filters ∧ f.phase = .idle then
      some { s with filters := s.filters.erase f, leaving := s.leaving + f.matchRules.val }
    else none
  | .leave rule =>
    if rule ∈ s.leaving then
      some { s with
        leaving := s.leaving.erase rule
        bus := (busAnswer s.bus ⟨.removeMatch, rule, .nobody, false⟩ true).1 }
    else none

def system : TransitionSystem State Label where
  init s := s = ⟨0, 0, 0⟩
  step := step

/-! ## Copies on the bus -/

/-- The rules of the filter that the bus has been made to have, whether or not the reply has been
    handled. -/
def Filter.tracked (f : Filter) : Finset Bytes :=
  match f.phase with
  | .answered op rule ok => Reply.handle ⟨⟨op, rule, .waiter, false⟩, ok⟩ f.matchRules
  | _ => f.matchRules

/-- A call waits only for what changes the set. -/
def Filter.Works (f : Filter) : Prop :=
  ∀ op rule, f.phase = .waits op rule → op.nothingToDo f.matchRules rule = false

/-- What the bus gets of some rules. -/
def texts (rules : Finset Bytes) : Multiset Bytes := rules.val.map cStr

/-- The bus has one copy of each rule for each filter that has it, and the rules of destroyed
    filters that it has not removed yet. -/
structure Mirrored (s : State) : Prop where
  works : ∀ f ∈ s.filters, f.Works
  bus : s.bus = s.filters.bind (fun f => texts f.tracked) + s.leaving.map cStr

theorem texts_insert {rules : Finset Bytes} {rule : Bytes} (h : rule ∉ rules) :
    texts (insert rule rules) = cStr rule ::ₘ texts rules := by
  rw [texts, Finset.insert_val_of_notMem h, Multiset.map_cons]
  rfl

theorem cons_texts_erase {rules : Finset Bytes} {rule : Bytes} (h : rule ∈ rules) :
    cStr rule ::ₘ texts (rules.erase rule) = texts rules := by
  rw [← texts_insert (Finset.notMem_erase rule rules), Finset.insert_erase h]

theorem bind_erase {filters : Multiset Filter} {f : Filter} (h : f ∈ filters) :
    filters.bind (fun f => texts f.tracked) =
      texts f.tracked + (filters.erase f).bind fun f => texts f.tracked := by
  conv_lhs => rw [← Multiset.cons_erase h]
  exact Multiset.cons_bind _ _ _

theorem Filter.tracked_of_idle (f : Filter) (h : f.phase = .idle) : f.tracked = f.matchRules := by
  simp [Filter.tracked, h]

theorem tracked_answered (f : Filter) (op : Op) (rule : Bytes) (ok : Bool) :
    Filter.tracked { f with phase := .answered op rule ok } =
      Reply.handle ⟨⟨op, rule, .waiter, false⟩, ok⟩ f.matchRules :=
  rfl

theorem call_cases (f : Filter) (op : Op) (rule : Bytes) (sent : Bool) :
    f.call op rule sent = f ∨
      (op.nothingToDo f.matchRules rule = false ∧
        f.call op rule sent = { f with phase := .waits op rule }) := by
  unfold Filter.call callSync
  cases hwork : op.nothingToDo f.matchRules rule with
  | true => exact .inl (by simp)
  | false =>
    cases sent with
    | true => exact .inr (by simp)
    | false => exact .inl (by simp)

section Steps

variable {s : State} {f : Filter}

/-- One filter takes a step that leaves the bus as it is. -/
theorem Mirrored.replace (hs : Mirrored s) (hf : f ∈ s.filters) {f' : Filter} (hworks : f'.Works)
    (htracked : f'.tracked = f.tracked) : Mirrored (s.replace f f') where
  works f'' hf'' := by
    obtain rfl | hold := Multiset.mem_cons.mp hf''
    · exact hworks
    · exact hs.works f'' (Multiset.mem_of_mem_erase hold)
  bus := by
    have hbus := hs.bus
    rw [bind_erase hf, ← htracked] at hbus
    rw [State.replace, Multiset.cons_bind]
    exact hbus

/-- The bus answers a filter that waits. -/
theorem Mirrored.answer (hs : Mirrored s) (hf : f ∈ s.filters) {op : Op} {rule : Bytes}
    (hphase : f.phase = .waits op rule) (accept : Bool) :
    Mirrored { s.replace f { f with
        phase := .answered op rule (busAnswer s.bus ⟨op, rule, .waiter, false⟩ accept).2 } with
      bus := (busAnswer s.bus ⟨op, rule, .waiter, false⟩ accept).1 } := by
  have hwork := hs.works f hf op rule hphase
  have htracked : f.tracked = f.matchRules := by simp [Filter.tracked, hphase]
  have hbus := hs.bus
  rw [bind_erase hf, htracked] at hbus
  constructor
  case works =>
    intro f' hf'
    obtain rfl | hold := Multiset.mem_cons.mp hf'
    · exact nofun
    · exact hs.works f' (Multiset.mem_of_mem_erase hold)
  case bus =>
    rw [State.replace, Multiset.cons_bind, tracked_answered]
    cases op with
    | addMatch =>
      have hnot : rule ∉ f.matchRules := by simpa [Op.nothingToDo] using hwork
      cases accept with
      | true =>
        simp only [busAnswer, if_true, Reply.handle, Op.update, texts_insert hnot, Request.text]
        rw [hbus, Multiset.cons_add, Multiset.cons_add]
      | false => simpa [busAnswer, Reply.handle] using hbus
    | removeMatch =>
      have hmem : rule ∈ f.matchRules := by simpa [Op.nothingToDo] using hwork
      cases accept with
      | true =>
        rw [← cons_texts_erase hmem, Multiset.cons_add, Multiset.cons_add] at hbus
        have hmem' : cStr rule ∈ s.bus := hbus ▸ Multiset.mem_cons_self _ _
        simp only [busAnswer, Request.text, true_and, if_pos hmem', if_true, Reply.handle,
          Op.update]
        rw [hbus, Multiset.erase_cons_head]
      | false => simpa [busAnswer, Reply.handle] using hbus

theorem Mirrored.destroy (hs : Mirrored s) (hf : f ∈ s.filters) (hphase : f.phase = .idle) :
    Mirrored { s with filters := s.filters.erase f, leaving := s.leaving + f.matchRules.val } where
  works f' hf' := hs.works f' (Multiset.mem_of_mem_erase hf')
  bus := by
    rw [hs.bus, bind_erase hf, f.tracked_of_idle hphase, Multiset.add_comm (texts f.matchRules),
      Multiset.add_assoc, Multiset.add_comm (texts f.matchRules), Multiset.map_add]
    rfl

/-- The bus has every rule that a destructor asks it to remove. -/
theorem Mirrored.leave (hs : Mirrored s) {rule : Bytes} (hrule : rule ∈ s.leaving) :
    Mirrored { s with
      leaving := s.leaving.erase rule
      bus := (busAnswer s.bus ⟨.removeMatch, rule, .nobody, false⟩ true).1 } where
  works := hs.works
  bus := by
    have hbus := hs.bus
    rw [← Multiset.cons_erase hrule, Multiset.map_cons, Multiset.add_cons] at hbus
    have hmem : cStr rule ∈ s.bus := hbus ▸ Multiset.mem_cons_self _ _
    simp only [busAnswer, Request.text, true_and, if_pos hmem]
    rw [hbus, Multiset.erase_cons_head]

theorem Mirrored.step {s' : State} {label : Label} (hs : Mirrored s)
    (hstep : step s label = some s') : Mirrored s' := by
  cases label with
  | construct =>
    obtain rfl := Option.some.inj hstep
    refine ⟨fun f hf => ?_, ?_⟩
    · obtain rfl | hold := Multiset.mem_cons.mp hf
      · exact nofun
      · exact hs.works f hold
    · rw [Multiset.cons_bind, hs.bus]
      simp [Filter.tracked, texts]
  | call f op rule sent =>
    simp only [SharedRules.step] at hstep
    split at hstep
    case isFalse => cases hstep
    case isTrue h =>
      obtain rfl := Option.some.inj hstep
      obtain hcall | ⟨hwork, hcall⟩ := call_cases f op rule sent
      · rw [hcall]
        exact hs.replace h.1 (hs.works f h.1) rfl
      · rw [hcall]
        refine hs.replace h.1 ?_ ?_
        · intro op' rule' hphase
          obtain ⟨rfl, rfl⟩ := Phase.waits.inj hphase
          exact hwork
        · simp [Filter.tracked, h.2]
  | answer f accept =>
    simp only [SharedRules.step] at hstep
    split at hstep
    case isFalse => cases hstep
    case isTrue hf =>
      split at hstep
      case h_1 op rule hphase =>
        obtain rfl := Option.some.inj hstep
        exact hs.answer hf hphase accept
      case h_2 => cases hstep
  | finish f =>
    simp only [SharedRules.step] at hstep
    split at hstep
    case isFalse => cases hstep
    case isTrue hf =>
      split at hstep
      case h_1 op rule ok hphase =>
        obtain rfl := Option.some.inj hstep
        refine hs.replace hf nofun ?_
        simp [Filter.tracked, hphase]
      case h_2 => cases hstep
  | destroy f =>
    simp only [SharedRules.step] at hstep
    split at hstep
    case isFalse => cases hstep
    case isTrue h =>
      obtain rfl := Option.some.inj hstep
      exact hs.destroy h.1 h.2
  | leave rule =>
    simp only [SharedRules.step] at hstep
    split at hstep
    case isFalse => cases hstep
    case isTrue hrule =>
      obtain rfl := Option.some.inj hstep
      exact hs.leave hrule

end Steps

theorem mirrored_of_reachable {s : State} (h : system.Reachable s) : Mirrored s := by
  apply h.invariant
  case initial =>
    rintro _ rfl
    exact ⟨fun f hf => absurd hf (Multiset.notMem_zero f), by simp⟩
  case preserved => exact fun _ _ _ => Mirrored.step

theorem texts_of_whole {rules : Finset Bytes} (h : ∀ rule ∈ rules, Whole rule) :
    texts rules = rules.val :=
  (Multiset.map_congr rfl fun rule hrule => cStr_eq_self (h rule hrule)).trans (Multiset.map_id _)

theorem count_bind (filters : Multiset Filter)
    (hwhole : ∀ f ∈ filters, ∀ rule ∈ f.matchRules, Whole rule) (rule : Bytes) :
    (filters.bind fun f => texts f.matchRules).count rule =
      filters.countP fun f => rule ∈ f.matchRules := by
  induction filters using Multiset.induction_on with
  | empty => simp
  | cons f filters ih =>
    have hrest := ih fun f' hf' => hwhole f' (Multiset.mem_cons_of_mem hf')
    have htexts := texts_of_whole (hwhole f (Multiset.mem_cons_self f filters))
    rw [Multiset.cons_bind, Multiset.count_add, hrest, htexts, Multiset.countP_cons,
      Multiset.count_eq_of_nodup f.matchRules.nodup, Nat.add_comm]
    rfl

/-! ## What every filter is served -/

/-- A filter that waits for nothing gets the signals of what the bus got of its rules, whatever
    the others do and whichever of them are gone.  Once no call and no request is under way the
    bus has what it got of every rule of every filter and nothing else: of rules without a NUL,
    each as many times as there are filters that have it. -/
theorem served_of_reachable {s : State} (h : system.Reachable s) :
    (∀ f ∈ s.filters, f.phase = .idle → ∀ rule ∈ f.matchRules, cStr rule ∈ s.bus) ∧
      ((∀ f ∈ s.filters, f.phase = .idle) → s.leaving = 0 →
        s.bus = s.filters.bind (fun f => f.matchRules.val.map cStr) ∧
          ((∀ f ∈ s.filters, ∀ rule ∈ f.matchRules, Whole rule) →
            ∀ rule, s.bus.count rule = s.filters.countP fun f => rule ∈ f.matchRules)) := by
  have hs := mirrored_of_reachable h
  constructor
  case left =>
    intro f hf hphase rule hrule
    rw [hs.bus]
    refine Multiset.mem_add.mpr (.inl (Multiset.mem_bind.mpr ⟨f, hf, ?_⟩))
    exact Multiset.mem_map_of_mem cStr (f.tracked_of_idle hphase ▸ hrule)
  case right =>
    intro hidle hleaving
    have hbus : s.bus = s.filters.bind fun f => texts f.matchRules := by
      rw [hs.bus, hleaving, Multiset.map_zero, Multiset.add_zero]
      exact Multiset.bind_congr fun f hf => by rw [f.tracked_of_idle (hidle f hf)]
    refine ⟨hbus, fun hwhole rule => ?_⟩
    rw [hbus]
    exact count_bind s.filters hwhole rule

/-- Two filters take the same rule, one of them also with a NUL and a byte behind it, and the
    other is destroyed. -/
def sharing : List Label :=
  let add (rules : Finset Bytes) (rule : Bytes) : List Label :=
    [.call ⟨rules, .idle⟩ .addMatch rule true, .answer ⟨rules, .waits .addMatch rule⟩ true,
      .finish ⟨rules, .answered .addMatch rule true⟩]
  [.construct] ++ add ∅ [7] ++ add {[7]} [7, 0, 8] ++ [.construct] ++ add ∅ [7] ++
    [.destroy ⟨{[7]}, .idle⟩, .leave [7]]

def sharingEnd : State := ⟨{⟨{[7, 0, 8], [7]}, .idle⟩}, 0, {[7], [7]}⟩

theorem sharing_run : system.run ⟨0, 0, 0⟩ sharing = some sharingEnd := by
  rfl

theorem sharing_served :
    system.run ⟨0, 0, 0⟩ sharing = some sharingEnd ∧ [7] ∈ sharingEnd.bus ∧
      sharingEnd.bus = sharingEnd.filters.bind fun f => f.matchRules.val.map cStr := by
  have h := served_of_reachable (TransitionSystem.reachable_of_run sharing rfl sharing_run)
  exact ⟨sharing_run, h.1 ⟨{[7, 0, 8], [7]}, .idle⟩ (by decide) rfl [7] (by decide),
    (h.2 (by decide) rfl).1⟩

end Ultrabus.SharedRules
