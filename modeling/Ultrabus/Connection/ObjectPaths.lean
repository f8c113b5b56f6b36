import Mathlib.Data.List.Induction
import Mathlib.Logic.Function.Basic
import Ultrabus.Value.Signature

/-! # Object paths of a handler

The functions `register_object_path` and `unregister_object_path` of one `object_handler` on
one connection, next to the object tree of libdbus.  libdbus holds a pointer to the entry of
the path in `opath_map` and calls the callback that the entry has by then. -/

namespace Ultrabus.ObjectPaths

/-- What libdbus has for a path: whether it stands for the whole subtree, and the user data. -/
structure Registration where
  fallback : Bool
  userData : Nat
deriving DecidableEq, Repr

/-- `κ` is the type of the callbacks, the null one among them. -/
structure State (κ : Type) where
  -- the addresses of the entries
  opathMap : Bytes → Option Nat
  -- the callbacks of the entries at their addresses
  callbacks : Nat → Option κ
  -- the paths that the handler has registered in the object tree
  tree : Bytes → Option Registration
  nextNode : Nat

variable {κ : Type}

/-! ## The functions -/

/-- `opath_map.emplace (opath, std::pair (this, callback))`, for a path that is not there. -/
def State.emplace (s : State κ) (opath : Bytes) (callback : κ) : State κ :=
  { s with
    opathMap := Function.update s.opathMap opath (some s.nextNode)
    callbacks := Function.update s.callbacks s.nextNode (some callback)
    nextNode := s.nextNode + 1 }

/-- `opath_map.erase (entry)`. -/
def State.erase (s : State κ) (opath : Bytes) (node : Nat) : State κ :=
  { s with
    opathMap := Function.update s.opathMap opath none
    callbacks := Function.update s.callbacks node none }

/-- `dbus_connection_try_register_object_path` and `dbus_connection_try_register_fallback`.  A
    path that is taken is refused; `accepts` is false when it is taken by others, is no path, or
    memory runs out. -/
def tryRegister (tree : Bytes → Option Registration) (path : Bytes) (registration : Registration)
    (accepts : Bool) : Option (Bytes → Option Registration) :=
  if accepts && (tree path).isNone then some (Function.update tree path (some registration))
  else none

/-- `object_handler::register_object_path`. -/
def registerObjectPath (s : State κ) (opath : Bytes) (callback : κ) (fallback : Bool)
    (isConnected accepts : Bool) : State κ × Bool :=
  match s.opathMap opath with
  | some node =>
    -- Path already registered, replace callback
    ({ s with callbacks := Function.update s.callbacks node (some callback) }, true)
  | none =>
    if !isConnected then (s, false)
    else
      let node := s.nextNode
      let s := s.emplace opath callback
      match tryRegister s.tree (cStr opath) ⟨fallback, node⟩ accepts with
      | some tree => ({ s with tree := tree }, true)
      | none => (s.erase opath node, false)

/-- `object_handler::unregister_object_path`; `succeeds` is what
    `dbus_connection_unregister_object_path` returns. -/
def unregisterObjectPath (s : State κ) (opath : Bytes) (isConnected succeeds : Bool) :
    State κ × Bool :=
  if !isConnected then (s, false)
  else
    match s.opathMap opath with
    | none => (s, true)
    | some node =>
      if succeeds then
        let s := { s with tree := Function.update s.tree (cStr opath) none }
        (s.erase opath node, true)
      else (s, false)

/-! ## Runs -/

inductive Call (κ : Type) where
  | register (opath : Bytes) (callback : κ) (fallback : Bool) (isConnected accepts : Bool)
  | unregister (opath : Bytes) (isConnected succeeds : Bool)
deriving DecidableEq, Repr

def Call.run (s : State κ) : Call κ → State κ × Bool
  | .register opath callback fallback isConnected accepts =>
    registerObjectPath s opath callback fallback isConnected accepts
  | .unregister opath isConnected succeeds => unregisterObjectPath s opath isConnected succeeds

/-- The handler, and for each path the last `register_object_path` that returned true. -/
structure Session (κ : Type) where
  handler : State κ
  requested : Bytes → Option (Bool × κ)

/-- The requests after a call that has returned `result`. -/
def Call.request (requested : Bytes → Option (Bool × κ)) (result : Bool) :
    Call κ → Bytes → Option (Bool × κ)
  | .register opath callback fallback _ _ =>
    if result then Function.update requested opath (some (fallback, callback)) else requested
  | .unregister _ _ _ => requested

def step (s : Session κ) (call : Call κ) : Session κ where
  handler := (call.run s.handler).1
  requested := call.request s.requested (call.run s.handler).2

def initial : Session κ where
  handler := ⟨fun _ => none, fun _ => none, fun _ => none, 0⟩
  requested _ := none

/-- The session after some calls. -/
def after (calls : List (Call κ)) : Session κ := calls.foldl step initial

/-! ## The promise -/

/-- The mode a path is registered in and the callback that libdbus calls for it. -/
def State.registered (s : State κ) (path : Bytes) : Option (Bool × κ) :=
  (s.tree path).bind fun registration =>
    (s.callbacks registration.userData).map fun callback => (registration.fallback, callback)

/-- The registered paths are the keys of `opath_map`, each as it was requested last. -/
def Agrees (s : Session κ) : Prop :=
  ∀ path, if (s.handler.opathMap path).isSome then
      (s.requested path).isSome ∧ s.handler.registered path = s.requested path
    else s.handler.tree path = none

/-- Nothing is changed but what the next entry will have for an address. -/
def Unchanged (s s' : State κ) : Prop := { s' with nextNode := s.nextNode } = s

/-- A repeated registration asks for the mode the path has, and what libdbus accepts as a new path
    is the path itself, not the part in front of a NUL. -/
def AsRegistered (s : State κ) : Call κ → Prop
  | .register opath _ fallback isConnected accepts =>
    match s.opathMap opath with
    | some _ => (s.tree (cStr opath)).map (·.fallback) = some fallback
    | none => isConnected = true → accepts = true → s.tree (cStr opath) = none → (0 : UInt8) ∉ opath
  | .unregister _ _ _ => True

/-! ## What one call does -/

variable {s : State κ} {opath : Bytes}

/-- An entry that is added and erased again leaves no trace. -/
theorem erase_emplace (habsent : s.opathMap opath = none) (hfresh : s.callbacks s.nextNode = none)
    (callback : κ) :
    (s.emplace opath callback).erase opath s.nextNode = { s with nextNode := s.nextNode + 1 } := by
  have hmap : Function.update s.opathMap opath none = s.opathMap :=
    Function.update_eq_self_iff.mpr habsent.symm
  have hcallbacks : Function.update s.callbacks s.nextNode none = s.callbacks :=
    Function.update_eq_self_iff.mpr hfresh.symm
  simp only [State.erase, State.emplace, Function.update_idem, hmap, hcallbacks]

/-- The entry at an address has a new callback. -/
def State.replace (s : State κ) (node : Nat) (callback : κ) : State κ :=
  { s with callbacks := Function.update s.callbacks node (some callback) }

/-- A new entry that is in the tree. -/
def State.register (s : State κ) (opath : Bytes) (callback : κ) (fallback : Bool) : State κ :=
  { s.emplace opath callback with
    tree := Function.update s.tree (cStr opath) (some ⟨fallback, s.nextNode⟩) }

/-- An entry that was in the tree is gone. -/
def State.unregister (s : State κ) (opath : Bytes) (node : Nat) : State κ :=
  { s with tree := Function.update s.tree (cStr opath) none }.erase opath node

/-- Replacing the callback, a refusal, or a new entry. -/
theorem registerObjectPath_cases (hfresh : s.callbacks s.nextNode = none) (opath : Bytes)
    (callback : κ) (fallback isConnected accepts : Bool) :
    (∃ node, s.opathMap opath = some node ∧
      registerObjectPath s opath callback fallback isConnected accepts =
        (s.replace node callback, true)) ∨
    (s.opathMap opath = none ∧
      ¬ (isConnected = true ∧ accepts = true ∧ s.tree (cStr opath) = none) ∧
      ∃ next, s.nextNode ≤ next ∧
        registerObjectPath s opath callback fallback isConnected accepts =
          ({ s with nextNode := next }, false)) ∨
    (s.opathMap opath = none ∧ isConnected = true ∧ accepts = true ∧
      s.tree (cStr opath) = none ∧
      registerObjectPath s opath callback fallback isConnected accepts =
        (s.register opath callback fallback, true)) := by
  unfold registerObjectPath
  cases hmap : s.opathMap opath with
  | some node => exact .inl ⟨node, rfl, rfl⟩
  | none =>
    right
    cases isConnected with
    | false => exact .inl ⟨rfl, by simp, s.nextNode, Nat.le_refl _, rfl⟩
    | true =>
      have htree : (s.emplace opath callback).tree = s.tree := rfl
      by_cases htaken : accepts = true ∧ s.tree (cStr opath) = none
      case pos =>
        obtain ⟨rfl, hfree⟩ := htaken
        refine .inr ⟨rfl, rfl, rfl, hfree, ?_⟩
        simp [tryRegister, htree, hfree, State.register]
      case neg =>
        have hrefused : tryRegister s.tree (cStr opath) ⟨fallback, s.nextNode⟩ accepts = none := by
          cases haccepts : accepts with
          | false => rfl
          | true =>
            have hne : s.tree (cStr opath) ≠ none := fun hfree => htaken ⟨haccepts, hfree⟩
            simp [tryRegister, hne]
        refine .inl ⟨rfl, fun h => htaken h.2, s.nextNode + 1, Nat.le_succ _, ?_⟩
        simp only [Bool.not_true, Bool.false_eq_true, if_false, htree, hrefused,
          erase_emplace hmap hfresh]

/-- A refusal, a path that is not there, or the end of an entry. -/
theorem unregisterObjectPath_cases (s : State κ) (opath : Bytes) (isConnected succeeds : Bool) :
    (unregisterObjectPath s opath isConnected succeeds).1 = s ∨
    ∃ node, s.opathMap opath = some node ∧
      unregisterObjectPath s opath isConnected succeeds = (s.unregister opath node, true) := by
  unfold unregisterObjectPath
  cases isConnected with
  | false => exact .inl rfl
  | true =>
    cases hmap : s.opathMap opath with
    | none => exact .inl rfl
    | some node =>
      cases succeeds with
      | false => exact .inl rfl
      | true => exact .inr ⟨node, rfl, rfl⟩

/-! ## What holds in all runs -/

section Maps

variable {α β : Type} [DecidableEq α] {f : α → Option β} {a x : α} {b c : β}

theorem update_some_eq_some_iff :
    Function.update f a (some b) x = some c ↔ (x = a ∧ b = c) ∨ (x ≠ a ∧ f x = some c) := by
  by_cases h : x = a
  · subst h
    simp
  · simp [h]

theorem update_none_eq_some_iff :
    Function.update f a none x = some c ↔ x ≠ a ∧ f x = some c := by
  by_cases h : x = a
  · subst h
    simp
  · simp [h]

end Maps

/-- Every entry is registered under its path as a C string, and has the callback that was
    requested last; nothing else is registered. -/
structure Inv (s : Session κ) : Prop where
  entry : ∀ opath node, s.handler.opathMap opath = some node →
    ∃ mode fallback callback, s.handler.tree (cStr opath) = some ⟨mode, node⟩ ∧
      s.handler.callbacks node = some callback ∧ s.requested opath = some (fallback, callback)
  tree : ∀ path registration, s.handler.tree path = some registration →
    ∃ opath, cStr opath = path ∧ s.handler.opathMap opath = some registration.userData
  distinct : ∀ opath opath' node, s.handler.opathMap opath = some node →
    s.handler.opathMap opath' = some node → opath = opath'
  fresh : ∀ node callback, s.handler.callbacks node = some callback → node < s.handler.nextNode

theorem inv_initial : Inv (initial : Session κ) where
  entry _ _ h := by cases h
  tree _ _ h := by cases h
  distinct _ _ _ h := by cases h
  fresh _ _ h := by cases h

section Steps

variable {s : Session κ} (hinv : Inv s)
include hinv

theorem Inv.lt_nextNode {node : Nat} (h : s.handler.opathMap opath = some node) :
    node < s.handler.nextNode := by
  obtain ⟨-, -, callback, -, hcallback, -⟩ := hinv.entry opath node h
  exact hinv.fresh node callback hcallback

theorem Inv.callbacks_nextNode : s.handler.callbacks s.handler.nextNode = none := by
  rw [Option.eq_none_iff_forall_not_mem]
  intro callback h
  exact Nat.lt_irrefl _ (hinv.fresh _ callback h)

/-- Two keys are not the same C string. -/
theorem Inv.eq_of_cStr_eq {opath' : Bytes} {node node' : Nat}
    (h : s.handler.opathMap opath = some node) (h' : s.handler.opathMap opath' = some node')
    (heq : cStr opath = cStr opath') : opath = opath' := by
  obtain ⟨mode, -, -, htree, -⟩ := hinv.entry opath node h
  obtain ⟨mode', -, -, htree', -⟩ := hinv.entry opath' node' h'
  rw [heq, htree', Option.some.injEq, Registration.mk.injEq] at htree
  exact hinv.distinct opath opath' node h (htree.2 ▸ h')

theorem Inv.replace {node : Nat} (hmap : s.handler.opathMap opath = some node) (callback : κ)
    (fallback : Bool) :
    Inv ⟨s.handler.replace node callback,
      Function.update s.requested opath (some (fallback, callback))⟩ where
  entry opath' node' h := by
    obtain ⟨mode, fallback', callback', htree, hcallback, hrequested⟩ := hinv.entry opath' node' h
    by_cases hsame : opath' = opath
    case pos =>
      subst hsame
      obtain rfl := Option.some.inj (hmap.symm.trans h)
      exact ⟨mode, fallback, callback, htree, Function.update_self .., Function.update_self ..⟩
    case neg =>
      have hnode : node' ≠ node := fun heq => hsame (hinv.distinct _ _ node (heq ▸ h) hmap)
      refine ⟨mode, fallback', callback', htree, ?_, ?_⟩
      · exact update_some_eq_some_iff.mpr (.inr ⟨hnode, hcallback⟩)
      · exact update_some_eq_some_iff.mpr (.inr ⟨hsame, hrequested⟩)
  tree := hinv.tree
  distinct := hinv.distinct
  fresh node' callback' h := by
    obtain ⟨rfl, -⟩ | ⟨-, h⟩ := update_some_eq_some_iff.mp h
    · exact hinv.lt_nextNode hmap
    · exact hinv.fresh node' callback' h

theorem Inv.register (hmap : s.handler.opathMap opath = none)
    (htree : s.handler.tree (cStr opath) = none) (callback : κ) (fallback : Bool) :
    Inv ⟨s.handler.register opath callback fallback,
      Function.update s.requested opath (some (fallback, callback))⟩ where
  entry opath' node' h := by
    obtain ⟨rfl, rfl⟩ | ⟨hsame, hold⟩ := update_some_eq_some_iff.mp h
    · exact ⟨fallback, fallback, callback, Function.update_self .., Function.update_self ..,
        Function.update_self ..⟩
    · obtain ⟨mode, fallback', callback', htree', hcallback, hrequested⟩ :=
        hinv.entry opath' node' hold
      have hpath : cStr opath' ≠ cStr opath := by
        intro heq
        rw [heq, htree] at htree'
        cases htree'
      refine ⟨mode, fallback', callback', ?_, ?_, ?_⟩
      · exact update_some_eq_some_iff.mpr (.inr ⟨hpath, htree'⟩)
      · exact update_some_eq_some_iff.mpr (.inr ⟨(hinv.lt_nextNode hold).ne, hcallback⟩)
      · exact update_some_eq_some_iff.mpr (.inr ⟨hsame, hrequested⟩)
  tree path registration h := by
    obtain ⟨rfl, rfl⟩ | ⟨hpath, h⟩ := update_some_eq_some_iff.mp h
    · exact ⟨opath, rfl, Function.update_self ..⟩
    · obtain ⟨opath', rfl, hold⟩ := hinv.tree path registration h
      have hsame : opath' ≠ opath := fun heq => hpath (congrArg cStr heq)
      exact ⟨opath', rfl, update_some_eq_some_iff.mpr (.inr ⟨hsame, hold⟩)⟩
  distinct opath' opath'' node h h' := by
    obtain ⟨rfl, rfl⟩ | ⟨-, hold⟩ := update_some_eq_some_iff.mp h
    · obtain ⟨rfl, -⟩ | ⟨-, hold'⟩ := update_some_eq_some_iff.mp h'
      · rfl
      · exact absurd rfl (hinv.lt_nextNode hold').ne
    · obtain ⟨rfl, rfl⟩ | ⟨-, hold'⟩ := update_some_eq_some_iff.mp h'
      · exact absurd rfl (hinv.lt_nextNode hold).ne
      · exact hinv.distinct opath' opath'' node hold hold'
  fresh node callback' h := by
    obtain ⟨rfl, -⟩ | ⟨-, h⟩ := update_some_eq_some_iff.mp h
    · exact Nat.lt_succ_self _
    · exact Nat.lt_succ_of_lt (hinv.fresh node callback' h)

theorem Inv.unregister {node : Nat} (hmap : s.handler.opathMap opath = some node) :
    Inv ⟨s.handler.unregister opath node, s.requested⟩ where
  entry opath' node' h := by
    obtain ⟨hsame, hold⟩ := update_none_eq_some_iff.mp h
    obtain ⟨mode, fallback, callback, htree, hcallback, hrequested⟩ := hinv.entry opath' node' hold
    have hpath : cStr opath' ≠ cStr opath := fun heq => hsame (hinv.eq_of_cStr_eq hold hmap heq)
    have hnode : node' ≠ node := fun heq => hsame (hinv.distinct _ _ node (heq ▸ hold) hmap)
    exact ⟨mode, fallback, callback, update_none_eq_some_iff.mpr ⟨hpath, htree⟩,
      update_none_eq_some_iff.mpr ⟨hnode, hcallback⟩, hrequested⟩
  tree path registration h := by
    obtain ⟨hpath, h⟩ := update_none_eq_some_iff.mp h
    obtain ⟨opath', rfl, hold⟩ := hinv.tree path registration h
    have hsame : opath' ≠ opath := fun heq => hpath (congrArg cStr heq)
    exact ⟨opath', rfl, update_none_eq_some_iff.mpr ⟨hsame, hold⟩⟩
  distinct opath' opath'' node' h h' :=
    hinv.distinct opath' opath'' node' (update_none_eq_some_iff.mp h).2
      (update_none_eq_some_iff.mp h').2
  fresh node' callback h := hinv.fresh node' callback (update_none_eq_some_iff.mp h).2

theorem Inv.step (call : Call κ) : Inv (step s call) := by
  cases call with
  | register opath callback fallback isConnected accepts =>
    obtain ⟨node, hmap, heq⟩ | ⟨hmap, -, next, hle, heq⟩ | ⟨hmap, -, -, htree, heq⟩ :=
      registerObjectPath_cases hinv.callbacks_nextNode opath callback fallback isConnected accepts
    · simp only [ObjectPaths.step, Call.run, Call.request, heq, if_true]
      exact hinv.replace hmap callback fallback
    · simp only [ObjectPaths.step, Call.run, Call.request, heq, Bool.false_eq_true, if_false]
      exact ⟨hinv.entry, hinv.tree, hinv.distinct,
        fun node callback h => (hinv.fresh node callback h).trans_le hle⟩
    · simp only [ObjectPaths.step, Call.run, Call.request, heq, if_true]
      exact hinv.register hmap htree callback fallback
  | unregister opath isConnected succeeds =>
    obtain heq | ⟨node, hmap, heq⟩ :=
      unregisterObjectPath_cases s.handler opath isConnected succeeds
    · simp only [ObjectPaths.step, Call.run, Call.request, heq]
      exact hinv
    · simp only [ObjectPaths.step, Call.run, Call.request, heq]
      exact hinv.unregister hmap

/-! ## Where the promise holds -/

/-- Every key is a C string and is registered in the mode that was requested last. -/
def Faithful (s : Session κ) : Prop :=
  ∀ opath node, s.handler.opathMap opath = some node → (0 : UInt8) ∉ opath ∧
    (s.handler.tree (cStr opath)).map (·.fallback) = (s.requested opath).map Prod.fst

theorem Inv.agrees_iff_faithful : Agrees s ↔ Faithful s := by
  constructor
  · intro h opath node hmap
    have hpath := h opath
    rw [hmap, Option.isSome_some, if_pos rfl] at hpath
    obtain ⟨hsome, heq⟩ := hpath
    obtain ⟨mode, fallback, callback, htree, hcallback, hrequested⟩ := hinv.entry opath node hmap
    -- The key is a path of the tree, and these are C strings.
    obtain ⟨registration, htree'⟩ : ∃ registration, s.handler.tree opath = some registration := by
      rw [← heq] at hsome
      unfold State.registered at hsome
      cases hpath : s.handler.tree opath with
      | none => simp [hpath] at hsome
      | some registration => exact ⟨registration, rfl⟩
    obtain ⟨opath', rfl, -⟩ := hinv.tree opath registration htree'
    have hself : cStr (cStr opath') = cStr opath' := cStr_eq_self nul_notMem_cStr
    refine ⟨nul_notMem_cStr, ?_⟩
    rw [hself] at htree ⊢
    simp only [State.registered, htree, Option.bind_some, hcallback, Option.map_some] at heq
    rw [htree, ← heq]
    rfl
  · intro h path
    split
    case isTrue hkey =>
      obtain ⟨node, hmap⟩ := Option.isSome_iff_exists.mp hkey
      obtain ⟨hnul, hmode⟩ := h path node hmap
      obtain ⟨mode, fallback, callback, htree, hcallback, hrequested⟩ := hinv.entry path node hmap
      rw [htree, hrequested, Option.map_some, Option.map_some, Option.some.injEq] at hmode
      rw [cStr_eq_self hnul] at htree
      refine ⟨by rw [hrequested]; rfl, ?_⟩
      simp only [State.registered, htree, Option.bind_some, hcallback, Option.map_some, hrequested]
      exact congrArg some (Prod.ext hmode rfl)
    case isFalse hkey =>
      rw [Option.eq_none_iff_forall_not_mem]
      intro registration htree
      obtain ⟨opath, rfl, hmap⟩ := hinv.tree path registration htree
      rw [cStr_eq_self (h opath _ hmap).1, hmap] at hkey
      exact hkey rfl

omit hinv in
theorem faithful_replace_iff (h : Faithful s) {node : Nat}
    (hmap : s.handler.opathMap opath = some node) (callback : κ) (fallback : Bool) :
    Faithful ⟨s.handler.replace node callback,
      Function.update s.requested opath (some (fallback, callback))⟩ ↔
      (s.handler.tree (cStr opath)).map (·.fallback) = some fallback := by
  constructor
  · intro hafter
    have hmode := (hafter opath node hmap).2
    dsimp only [State.replace] at hmode
    rwa [Function.update_self] at hmode
  · intro hmode opath' node' hmap'
    by_cases hsame : opath' = opath
    case pos =>
      subst hsame
      refine ⟨(h opath' node' hmap').1, ?_⟩
      dsimp only [State.replace]
      rw [Function.update_self]
      exact hmode
    case neg =>
      refine ⟨(h opath' node' hmap').1, ?_⟩
      dsimp only [State.replace]
      rw [Function.update_of_ne hsame]
      exact (h opath' node' hmap').2

theorem Inv.faithful_register_iff (h : Faithful s) (hmap : s.handler.opathMap opath = none)
    (htree : s.handler.tree (cStr opath) = none) (callback : κ) (fallback : Bool) :
    Faithful ⟨s.handler.register opath callback fallback,
      Function.update s.requested opath (some (fallback, callback))⟩ ↔ (0 : UInt8) ∉ opath := by
  constructor
  · intro hafter
    exact (hafter opath s.handler.nextNode (Function.update_self ..)).1
  · intro hnul opath' node' hmap'
    obtain ⟨rfl, -⟩ | ⟨hsame, hold⟩ := update_some_eq_some_iff.mp hmap'
    · refine ⟨hnul, ?_⟩
      dsimp only [State.register]
      rw [Function.update_self, Function.update_self]
      rfl
    · obtain ⟨mode, -, -, htree', -⟩ := hinv.entry opath' node' hold
      have hpath : cStr opath' ≠ cStr opath := by
        intro heq
        rw [heq, htree] at htree'
        cases htree'
      refine ⟨(h opath' node' hold).1, ?_⟩
      dsimp only [State.register]
      rw [Function.update_of_ne hpath, Function.update_of_ne hsame]
      exact (h opath' node' hold).2

theorem Inv.faithful_unregister (h : Faithful s) {node : Nat}
    (hmap : s.handler.opathMap opath = some node) :
    Faithful ⟨s.handler.unregister opath node, s.requested⟩ := by
  intro opath' node' hmap'
  obtain ⟨hsame, hold⟩ := update_none_eq_some_iff.mp hmap'
  have hpath : cStr opath' ≠ cStr opath := fun heq => hsame (hinv.eq_of_cStr_eq hold hmap heq)
  refine ⟨(h opath' node' hold).1, ?_⟩
  have htree : Function.update s.handler.tree (cStr opath) none (cStr opath') =
      s.handler.tree (cStr opath') := Function.update_of_ne hpath _ _
  exact (congrArg _ htree).trans (h opath' node' hold).2

/-- A call keeps the promise exactly if it is in the mode of what is registered. -/
theorem Inv.faithful_step_iff (h : Faithful s) (call : Call κ) :
    Faithful (ObjectPaths.step s call) ↔ AsRegistered s.handler call := by
  cases call with
  | register opath callback fallback isConnected accepts =>
    obtain ⟨node, hmap, heq⟩ | ⟨hmap, hrefused, next, -, heq⟩ |
        ⟨hmap, hconnected, haccepts, htree, heq⟩ :=
      registerObjectPath_cases hinv.callbacks_nextNode opath callback fallback isConnected accepts
    · simp only [ObjectPaths.step, Call.run, Call.request, heq, if_true, AsRegistered, hmap]
      exact faithful_replace_iff h hmap callback fallback
    · simp only [ObjectPaths.step, Call.run, Call.request, heq, Bool.false_eq_true, if_false,
        AsRegistered, hmap]
      exact iff_of_true h fun hconnected haccepts htree =>
        absurd ⟨hconnected, haccepts, htree⟩ hrefused
    · simp only [ObjectPaths.step, Call.run, Call.request, heq, if_true]
      rw [hinv.faithful_register_iff h hmap htree callback fallback]
      simp only [AsRegistered, hmap, hconnected, haccepts, htree, forall_const]
  | unregister opath isConnected succeeds =>
    refine iff_of_true ?_ trivial
    obtain heq | ⟨node, hmap, heq⟩ :=
      unregisterObjectPath_cases s.handler opath isConnected succeeds
    · simp only [ObjectPaths.step, Call.run, Call.request, heq]
      exact h
    · simp only [ObjectPaths.step, Call.run, Call.request, heq]
      exact hinv.faithful_unregister h hmap

/-- A call that returns false changes nothing. -/
theorem Inv.unchanged_of_false {call : Call κ} (h : (call.run s.handler).2 = false) :
    Unchanged s.handler (call.run s.handler).1 := by
  cases call with
  | register opath callback fallback isConnected accepts =>
    obtain ⟨node, hmap, heq⟩ | ⟨hmap, -, next, -, heq⟩ | ⟨hmap, -, -, -, heq⟩ :=
      registerObjectPath_cases hinv.callbacks_nextNode opath callback fallback isConnected accepts
    · simp [Call.run, heq] at h
    · simp only [Call.run, heq, Unchanged]
    · simp [Call.run, heq] at h
  | unregister opath isConnected succeeds =>
    obtain heq | ⟨node, hmap, heq⟩ :=
      unregisterObjectPath_cases s.handler opath isConnected succeeds
    · simp only [Call.run, heq, Unchanged]
    · simp [Call.run, heq] at h

end Steps

/-! ## Runs of calls -/

theorem after_concat (calls : List (Call κ)) (call : Call κ) :
    after (calls ++ [call]) = step (after calls) call := by
  simp [after]

theorem inv_after (calls : List (Call κ)) : Inv (after calls) := by
  induction calls using List.reverseRecOn with
  | nil => exact inv_initial
  | append_singleton calls call ih => exact after_concat calls call ▸ ih.step call

/-- In all states of a run the registrations are as requested, and every call that has returned
    false has changed nothing. -/
def FollowsRequests (calls : List (Call κ)) : Prop :=
  (∀ done, done <+: calls → Agrees (after done)) ∧
    ∀ done call, done ++ [call] <+: calls → (call.run (after done).handler).2 = false →
      Unchanged (after done).handler (after (done ++ [call])).handler

/-- Every call of a run is in the mode of what is registered. -/
def AllAsRegistered (calls : List (Call κ)) : Prop :=
  ∀ done call, done ++ [call] <+: calls → AsRegistered (after done).handler call

theorem AllAsRegistered.of_concat {calls : List (Call κ)} {call : Call κ}
    (h : AllAsRegistered (calls ++ [call])) :
    AllAsRegistered calls ∧ AsRegistered (after calls).handler call := by
  constructor
  · intro done c hdone
    exact h done c (hdone.trans (List.prefix_append _ _))
  · exact h calls call (List.prefix_refl _)

theorem faithful_after {calls : List (Call κ)} (h : AllAsRegistered calls) :
    Faithful (after calls) := by
  induction calls using List.reverseRecOn with
  | nil => intro opath node hmap; cases hmap
  | append_singleton calls call ih =>
    obtain ⟨hbefore, hcall⟩ := h.of_concat
    rw [after_concat]
    exact ((inv_after calls).faithful_step_iff (ih hbefore) call).mpr hcall

theorem allAsRegistered_of_agrees {calls : List (Call κ)}
    (h : ∀ done, done <+: calls → Agrees (after done)) : AllAsRegistered calls := by
  intro done call hdone
  have hbefore : Faithful (after done) := (inv_after done).agrees_iff_faithful.mp
    (h done ((List.prefix_append _ _).trans hdone))
  have hafter := (inv_after (done ++ [call])).agrees_iff_faithful.mp (h _ hdone)
  rw [after_concat] at hafter
  exact ((inv_after done).faithful_step_iff hbefore call).mp hafter

/-- The registrations follow the last successful request for each path all along a run exactly if
    every call is in the mode of what is registered. -/
theorem followsRequests_iff (calls : List (Call κ)) :
    FollowsRequests calls ↔ AllAsRegistered calls := by
  constructor
  · rintro ⟨hagrees, -⟩
    exact allAsRegistered_of_agrees hagrees
  · intro h
    constructor
    · intro done hdone
      have hpart : AllAsRegistered done := by
        intro before call hcall
        exact h before call (hcall.trans hdone)
      exact (inv_after done).agrees_iff_faithful.mpr (faithful_after hpart)
    · intro done call _ hfalse
      rw [after_concat]
      exact (inv_after done).unchanged_of_false hfalse

/-- A path that is registered again, for its whole subtree. -/
def repeatedCalls : List (Call Nat) :=
  [.register (text "/a") 1 false true true, .register (text "/a") 2 true true true]

/-- Both calls return true, and the path is still registered for itself only. -/
theorem repeatedCalls_not_followed : ¬ FollowsRequests repeatedCalls := by
  rintro ⟨hagrees, -⟩
  have hpath := hagrees repeatedCalls (List.prefix_refl _) (text "/a")
  have hkey : ((after repeatedCalls).handler.opathMap (text "/a")).isSome = true := rfl
  have hregistered : (after repeatedCalls).handler.registered (text "/a") = some (false, 2) := rfl
  have hrequested : (after repeatedCalls).requested (text "/a") = some (true, 2) := rfl
  rw [if_pos hkey, hregistered, hrequested] at hpath
  exact absurd hpath.2 (by decide)

/-- Whatever the modes, libdbus calls for every path that is registered the callback that was
    requested last. -/
theorem registered_after (calls : List (Call κ)) {opath : Bytes} {node : Nat}
    (h : (after calls).handler.opathMap opath = some node) :
    ∃ mode fallback callback,
      (after calls).handler.registered (cStr opath) = some (mode, callback) ∧
      (after calls).requested opath = some (fallback, callback) := by
  obtain ⟨mode, fallback, callback, htree, hcallback, hrequested⟩ :=
    (inv_after calls).entry opath node h
  refine ⟨mode, fallback, callback, ?_, hrequested⟩
  simp only [State.registered, htree, Option.bind_some, hcallback, Option.map_some]

end Ultrabus.ObjectPaths
