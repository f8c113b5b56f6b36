import Mathlib.Data.List.AList
import Ultrabus.Connection.ObjectPaths
import Ultrabus.Lib.Transition

/-! # Object handlers of one connection

Any number of `object_handler` and `callback_object_handler` objects that share the object tree
of one connection that stays up.  libdbus holds pointers to the entries of their maps.

As long as libdbus lets destructors unregister their paths, every pointer in the tree leads to the
entry of a handler that lives, no handler takes a path from another one, and a method call runs
the callback that was given for its path last. -/

namespace Ultrabus.ObjectTree

open ObjectPaths (Registration tryRegister)

/-- `std::pair<object_handler*, method_call_cb_t>`; a null callback is none. -/
structure Entry (κ : Type) where
  handler : Nat
  callback : Option κ

structure Handler (κ : Type) where
  -- the addresses of the entries
  opathMap : AList (fun _ : Bytes => Nat)
  -- of a `callback_object_handler`
  onMethodCallCb : Option κ

structure State (κ : Type) where
  handlers : Nat → Option (Handler κ)
  entries : Nat → Option (Entry κ)
  tree : Bytes → Option Registration

variable {κ : Type}

/-! ## The functions -/

namespace State

variable (s : State κ) (h : Nat) (handler : Handler κ)

/-- `opath_map.emplace (opath, std::pair (this, callback))`. -/
def emplace (opath : Bytes) (callback : Option κ) (node : Nat) : State κ :=
  { s with
    handlers := Function.update s.handlers h
      (some { handler with opathMap := handler.opathMap.insert opath node })
    entries := Function.update s.entries node (some ⟨h, callback⟩) }

/-- `opath_map.erase (entry)`. -/
def erase (opath : Bytes) (node : Nat) : State κ :=
  { s with
    handlers := Function.update s.handlers h
      (some { handler with opathMap := handler.opathMap.erase opath })
    entries := Function.update s.entries node none }

/-- `register_object_path`; `node` is where a new entry is put. -/
def registerObjectPath (opath : Bytes) (callback : Option κ) (fallback accepts : Bool)
    (node : Nat) : State κ × Bool :=
  match handler.opathMap.lookup opath with
  | some entry =>
    -- Path already registered, replace callback
    let found := (s.entries entry).map fun e => { e with callback := callback }
    ({ s with entries := Function.update s.entries entry found }, true)
  | none =>
    match tryRegister s.tree (cStr opath) ⟨fallback, node⟩ accepts with
    | some tree => ({ s.emplace h handler opath callback node with tree := tree }, true)
    | none =>
      ((s.emplace h handler opath callback node).erase h
        { handler with opathMap := handler.opathMap.insert opath node } opath node, false)

/-- `unregister_object_path`. -/
def unregisterObjectPath (opath : Bytes) (succeeds : Bool) : State κ × Bool :=
  match handler.opathMap.lookup opath with
  | none => (s, true)
  | some node =>
    if succeeds then
      ({ s.erase h handler opath node with
        tree := Function.update s.tree (cStr opath) none }, true)
    else (s, false)

/-- The destructor; `succeeds` is what `dbus_connection_unregister_object_path` returns for each
    path, which is ignored. -/
def destroy (succeeds : Bytes → Bool) : State κ where
  handlers := Function.update s.handlers h none
  entries := handler.opathMap.entries.foldl (fun entries e => Function.update entries e.2 none)
    s.entries
  tree := handler.opathMap.entries.foldl
    (fun tree e => if succeeds e.1 then Function.update tree (cStr e.1) none else tree) s.tree

end State

/-- What comes of a method call. -/
inductive Dispatch (κ : Type) where
  -- the pointer leads to no entry or to no handler
  | dangling
  | notYetHandled
  | calls (callback : κ)
deriving DecidableEq, Repr

/-- `on_method_call` of an `object_handler`, which handles nothing, and of a
    `callback_object_handler`. -/
def Handler.onMethodCall (handler : Handler κ) : Dispatch κ :=
  match handler.onMethodCallCb with
  | none => .notYetHandled
  | some cb => .calls cb

/-- `object_handler::dbus_on_message`, up to what the callback returns. -/
def State.dbusOnMessage (s : State κ) (userData : Nat) : Dispatch κ :=
  match s.entries userData with
  | none => .dangling
  | some entry =>
    match s.handlers entry.handler with
    | none => .dangling
    | some self =>
      match entry.callback with
      | none => self.onMethodCall
      | some callback => .calls callback

/-! ## Runs -/

/-- The handlers, and for each of them the paths that it has registered and not given up, with the
    callback that it has given last. -/
structure Session (κ : Type) where
  system : State κ
  requested : Nat → Bytes → Option (Option κ)

inductive Label (κ : Type) where
  | construct (h : Nat) (onMethodCallCb : Option κ)
  | register (h : Nat) (opath : Bytes) (callback : Option κ) (fallback accepts : Bool) (node : Nat)
  | unregister (h : Nat) (opath : Bytes) (succeeds : Bool)
  | setMethodCallCb (h : Nat) (callback : Option κ)
  | destroy (h : Nat) (succeeds : Bytes → Bool)

def request (requested : Nat → Bytes → Option (Option κ)) (h : Nat) (opath : Bytes)
    (callback : Option (Option κ)) : Nat → Bytes → Option (Option κ) :=
  Function.update requested h (Function.update (requested h) opath callback)

/-- A step is taken by a handler that lives, and new entries are put where none is. -/
def step (s : Session κ) : Label κ → Option (Session κ)
  | .construct h cb =>
    match s.system.handlers h with
    | some _ => none
    | none => some { s with
        system.handlers := Function.update s.system.handlers h (some ⟨∅, cb⟩) }
  | .register h opath callback fallback accepts node =>
    match s.system.handlers h, s.system.entries node with
    | some handler, none =>
      let (system, result) :=
        s.system.registerObjectPath h handler opath callback fallback accepts node
      some ⟨system, if result then request s.requested h opath (some callback) else s.requested⟩
    | _, _ => none
  | .unregister h opath succeeds =>
    (s.system.handlers h).map fun handler =>
      let (system, result) := s.system.unregisterObjectPath h handler opath succeeds
      ⟨system, if result then request s.requested h opath none else s.requested⟩
  | .setMethodCallCb h callback =>
    (s.system.handlers h).map fun handler => { s with
      system.handlers := Function.update s.system.handlers h
        (some { handler with onMethodCallCb := callback }) }
  | .destroy h succeeds =>
    (s.system.handlers h).map fun handler =>
      ⟨s.system.destroy h handler succeeds, Function.update s.requested h fun _ => none⟩

def initial : Session κ := ⟨⟨fun _ => none, fun _ => none, fun _ => none⟩, fun _ _ => none⟩

def system : TransitionSystem (Session κ) (Label κ) where
  init s := s = initial
  step := step

/-- Destructors unregister all their paths. -/
def PathsUnregistered (s : Session κ) : Label κ → Prop
  | .destroy h succeeds => ∀ handler, s.system.handlers h = some handler →
    ∀ e ∈ handler.opathMap.entries, succeeds e.1 = true
  | _ => True

/-! ## Ownership -/

/-- The handler has an entry for the path. -/
def State.Holds (s : State κ) (h : Nat) (opath : Bytes) (node : Nat) : Prop :=
  ∃ handler, s.handlers h = some handler ∧ handler.opathMap.lookup opath = some node

/-- Every entry belongs to one path of one handler, has its place in the tree and the callback
    that has been given last, and nothing else is in the tree. -/
structure Owned (s : Session κ) : Prop where
  registered : ∀ h opath node, s.system.Holds h opath node →
    ∃ fallback, s.system.tree (cStr opath) = some ⟨fallback, node⟩
  entry : ∀ h opath node, s.system.Holds h opath node →
    ∃ callback, s.requested h opath = some callback ∧ s.system.entries node = some ⟨h, callback⟩
  owner : ∀ path registration, s.system.tree path = some registration →
    ∃ h opath, s.system.Holds h opath registration.userData ∧ cStr opath = path
  held : ∀ h opath callback, s.requested h opath = some callback →
    ∃ node, s.system.Holds h opath node
  inj : ∀ h opath h' opath' node, s.system.Holds h opath node → s.system.Holds h' opath' node →
    h = h' ∧ opath = opath'

section Holds

variable {s : State κ} {h : Nat} {handler : Handler κ} {opath : Bytes} {node : Nat}

theorem holds_unique {node' : Nat} (hnode : s.Holds h opath node) (hnode' : s.Holds h opath node') :
    node = node' := by
  obtain ⟨handler, hhandler, hlookup⟩ := hnode
  obtain ⟨handler', hhandler', hlookup'⟩ := hnode'
  obtain rfl := Option.some.inj (hhandler.symm.trans hhandler')
  exact Option.some.inj (hlookup.symm.trans hlookup')

theorem holds_iff_lookup (hhandler : s.handlers h = some handler) :
    s.Holds h opath node ↔ handler.opathMap.lookup opath = some node := by
  constructor
  · rintro ⟨handler', hhandler', hlookup⟩
    obtain rfl := Option.some.inj (hhandler.symm.trans hhandler')
    exact hlookup
  · exact fun hlookup => ⟨handler, hhandler, hlookup⟩

/-- The entries of a handler whose map is replaced. -/
theorem holds_update_iff {entries : Nat → Option (Entry κ)} {tree : Bytes → Option Registration}
    {new : Option (Handler κ)} {h' : Nat} {opath' : Bytes} {node' : Nat} :
    State.Holds ⟨Function.update s.handlers h new, entries, tree⟩ h' opath' node' ↔
      if h' = h then ∃ handler, new = some handler ∧ handler.opathMap.lookup opath' = some node'
      else s.Holds h' opath' node' := by
  split
  case isTrue heq => simp [State.Holds, heq]
  case isFalse hne => simp [State.Holds, Function.update_of_ne hne]

end Holds

/-! ### One step -/

section Steps

variable {s : Session κ} {h : Nat} {handler : Handler κ} {opath : Bytes} {node : Nat}

theorem request_self (requested : Nat → Bytes → Option (Option κ)) (h : Nat) (opath : Bytes)
    (callback : Option (Option κ)) : request requested h opath callback h opath = callback := by
  simp [request]

theorem request_of_ne {requested : Nat → Bytes → Option (Option κ)} {h h' : Nat}
    {opath opath' : Bytes} {callback : Option (Option κ)} (hne : ¬ (h' = h ∧ opath' = opath)) :
    request requested h opath callback h' opath' = requested h' opath' := by
  by_cases hh : h' = h
  · subst hh
    have hpath : opath' ≠ opath := fun heq => hne ⟨rfl, heq⟩
    simp [request, Function.update_of_ne hpath]
  · simp [request, Function.update_of_ne hh]

/-- No handler has an entry where none is. -/
theorem Owned.not_holds (hs : Owned s) (hfree : s.system.entries node = none) (h : Nat)
    (opath : Bytes) : ¬ s.system.Holds h opath node := by
  intro hholds
  obtain ⟨callback, -, hentry⟩ := hs.entry h opath node hholds
  cases hfree.symm.trans hentry

/-- The callback of an entry is replaced. -/
theorem Owned.replace (hs : Owned s) (hholds : s.system.Holds h opath node)
    (callback : Option κ) :
    Owned ⟨{ s.system with entries := Function.update s.system.entries node (some ⟨h, callback⟩) },
      request s.requested h opath (some callback)⟩ where
  registered := hs.registered
  owner := hs.owner
  inj := hs.inj
  entry h' opath' node' hholds' := by
    by_cases heq : h' = h ∧ opath' = opath
    · obtain ⟨rfl, rfl⟩ := heq
      obtain rfl := holds_unique hholds hholds'
      exact ⟨callback, request_self .., Function.update_self ..⟩
    · have hnode : node' ≠ node := fun hnode => heq (hs.inj _ _ _ _ _ (hnode ▸ hholds') hholds)
      obtain ⟨callback', hrequested, hentry⟩ := hs.entry h' opath' node' hholds'
      exact ⟨callback', (request_of_ne heq).trans hrequested,
        (Function.update_of_ne hnode ..).trans hentry⟩
  held h' opath' callback' hrequested := by
    by_cases heq : h' = h ∧ opath' = opath
    · obtain ⟨rfl, rfl⟩ := heq
      exact ⟨node, hholds⟩
    · exact hs.held h' opath' callback' ((request_of_ne heq).symm.trans hrequested)

/-- Whose entries there are after a new one. -/
theorem holds_emplace_iff {s : State κ} (hhandler : s.handlers h = some handler)
    {callback : Option κ} {tree : Bytes → Option Registration} {h' : Nat} {opath' : Bytes}
    {node' : Nat} :
    State.Holds { s.emplace h handler opath callback node with tree := tree } h' opath' node' ↔
      if h' = h ∧ opath' = opath then node' = node else s.Holds h' opath' node' := by
  rw [State.emplace, holds_update_iff]
  by_cases hh : h' = h
  · subst hh
    by_cases hpath : opath' = opath
    · subst hpath
      simp [eq_comm]
    · simp [hpath, AList.lookup_insert_ne hpath, holds_iff_lookup hhandler]
  · simp [hh]

theorem holds_erase_iff {s : State κ} (hhandler : s.handlers h = some handler)
    {tree : Bytes → Option Registration} {h' : Nat} {opath' : Bytes} {node' : Nat} :
    State.Holds { s.erase h handler opath node with tree := tree } h' opath' node' ↔
      ¬ (h' = h ∧ opath' = opath) ∧ s.Holds h' opath' node' := by
  rw [State.erase, holds_update_iff]
  by_cases hh : h' = h
  · subst hh
    by_cases hpath : opath' = opath
    · subst hpath
      simp
    · simp [hpath, AList.lookup_erase_ne hpath, holds_iff_lookup hhandler]
  · simp [hh]

/-- A path is registered, which libdbus does only if nobody has it. -/
theorem Owned.register (hs : Owned s) (hhandler : s.system.handlers h = some handler)
    (hfree : s.system.entries node = none) (htaken : s.system.tree (cStr opath) = none)
    (callback : Option κ) (fallback : Bool) :
    Owned ⟨{ s.system.emplace h handler opath callback node with
        tree := Function.update s.system.tree (cStr opath) (some ⟨fallback, node⟩) },
      request s.requested h opath (some callback)⟩ := by
  have hother : ∀ h' opath' node', s.system.Holds h' opath' node' → cStr opath' ≠ cStr opath := by
    intro h' opath' node' hholds heq
    obtain ⟨fallback', hregistered⟩ := hs.registered h' opath' node' hholds
    rw [heq, htaken] at hregistered
    cases hregistered
  constructor
  case registered =>
    intro h' opath' node' hholds
    rw [holds_emplace_iff hhandler] at hholds
    split at hholds
    case isTrue heq =>
      obtain ⟨rfl, rfl⟩ := heq
      exact ⟨fallback, by rw [hholds]; exact Function.update_self ..⟩
    case isFalse hne =>
      obtain ⟨fallback', hregistered⟩ := hs.registered h' opath' node' hholds
      refine ⟨fallback', ?_⟩
      rw [← hregistered]
      exact Function.update_of_ne (hother h' opath' node' hholds) ..
  case entry =>
    intro h' opath' node' hholds
    rw [holds_emplace_iff hhandler] at hholds
    split at hholds
    case isTrue heq =>
      obtain ⟨rfl, rfl⟩ := heq
      subst hholds
      exact ⟨callback, request_self .., Function.update_self ..⟩
    case isFalse hne =>
      obtain ⟨callback', hrequested, hentry⟩ := hs.entry h' opath' node' hholds
      refine ⟨callback', (request_of_ne hne).trans hrequested, ?_⟩
      have hnode : node' ≠ node := by
        rintro rfl
        cases hfree.symm.trans hentry
      rw [← hentry]
      exact Function.update_of_ne hnode ..
  case owner =>
    intro path registration hregistered
    by_cases hpath : path = cStr opath
    · subst hpath
      have hself : Function.update s.system.tree (cStr opath) (some ⟨fallback, node⟩) (cStr opath) =
          some registration := hregistered
      rw [Function.update_self] at hself
      obtain rfl := Option.some.inj hself
      exact ⟨h, opath, (holds_emplace_iff hhandler).mpr (by simp), rfl⟩
    · have hold : s.system.tree path = some registration :=
        (Function.update_of_ne hpath ..).symm.trans hregistered
      obtain ⟨h', opath', hholds, rfl⟩ := hs.owner path registration hold
      refine ⟨h', opath', (holds_emplace_iff hhandler).mpr ?_, rfl⟩
      rw [if_neg fun heq => hpath (congrArg cStr heq.2)]
      exact hholds
  case held =>
    intro h' opath' callback' hrequested
    by_cases heq : h' = h ∧ opath' = opath
    · exact ⟨node, (holds_emplace_iff hhandler).mpr (by rw [if_pos heq])⟩
    · have hold := (request_of_ne heq).symm.trans hrequested
      obtain ⟨node', hholds⟩ := hs.held h' opath' callback' hold
      exact ⟨node', (holds_emplace_iff hhandler).mpr (by rwa [if_neg heq])⟩
  case inj =>
    intro h₁ opath₁ h₂ opath₂ node' hholds₁ hholds₂
    rw [holds_emplace_iff hhandler] at hholds₁ hholds₂
    split at hholds₁ <;> split at hholds₂
    case isTrue.isTrue heq₁ heq₂ => exact ⟨heq₁.1.trans heq₂.1.symm, heq₁.2.trans heq₂.2.symm⟩
    case isTrue.isFalse => exact absurd (hholds₁ ▸ hholds₂) (hs.not_holds hfree _ _)
    case isFalse.isTrue => exact absurd (hholds₂ ▸ hholds₁) (hs.not_holds hfree _ _)
    case isFalse.isFalse => exact hs.inj _ _ _ _ _ hholds₁ hholds₂

/-- Paths of handlers are given up, with their entries. -/
theorem Owned.remove (hs : Owned s) (gone : Nat → Bytes → Prop) {s' : Session κ}
    (hholds : ∀ h opath node, s'.system.Holds h opath node ↔
      ¬ gone h opath ∧ s.system.Holds h opath node)
    (htree : ∀ h opath node, gone h opath → s.system.Holds h opath node →
      s'.system.tree (cStr opath) = none)
    (htree' : ∀ path, (∀ h opath node, gone h opath → s.system.Holds h opath node →
      cStr opath ≠ path) → s'.system.tree path = s.system.tree path)
    (hentries : ∀ node, (∀ h opath, gone h opath → ¬ s.system.Holds h opath node) →
      s'.system.entries node = s.system.entries node)
    (hrequested : ∀ h opath, gone h opath → s'.requested h opath = none)
    (hrequested' : ∀ h opath, ¬ gone h opath → s'.requested h opath = s.requested h opath) :
    Owned s' := by
  constructor
  case registered =>
    intro h opath node hstays
    obtain ⟨hnot, hold⟩ := (hholds ..).mp hstays
    obtain ⟨fallback, hregistered⟩ := hs.registered h opath node hold
    refine ⟨fallback, (htree' _ fun h' opath' node' hgone hold' heq => ?_).trans hregistered⟩
    obtain ⟨fallback', hregistered'⟩ := hs.registered h' opath' node' hold'
    rw [heq, hregistered] at hregistered'
    obtain ⟨-, rfl⟩ := Registration.mk.inj (Option.some.inj hregistered')
    obtain ⟨rfl, rfl⟩ := hs.inj _ _ _ _ _ hold hold'
    exact hnot hgone
  case entry =>
    intro h opath node hstays
    obtain ⟨hnot, hold⟩ := (hholds ..).mp hstays
    obtain ⟨callback, hcallback, hentry⟩ := hs.entry h opath node hold
    refine ⟨callback, (hrequested' h opath hnot).trans hcallback,
      (hentries node fun h' opath' hgone hold' => ?_).trans hentry⟩
    obtain ⟨rfl, rfl⟩ := hs.inj _ _ _ _ _ hold hold'
    exact hnot hgone
  case owner =>
    intro path registration hregistered
    have hkept : ∀ h opath node, gone h opath → s.system.Holds h opath node →
        cStr opath ≠ path := by
      rintro h opath node hgone hold rfl
      cases (htree h opath node hgone hold).symm.trans hregistered
    obtain ⟨h, opath, hold, rfl⟩ :=
      hs.owner path registration ((htree' path hkept).symm.trans hregistered)
    exact ⟨h, opath, (hholds ..).mpr ⟨fun hgone => hkept _ _ _ hgone hold rfl, hold⟩, rfl⟩
  case held =>
    intro h opath callback hcallback
    have hnot : ¬ gone h opath := by
      intro hgone
      cases (hrequested h opath hgone).symm.trans hcallback
    obtain ⟨node, hold⟩ :=
      hs.held h opath callback ((hrequested' h opath hnot).symm.trans hcallback)
    exact ⟨node, (hholds ..).mpr ⟨hnot, hold⟩⟩
  case inj =>
    intro h opath h' opath' node hstays hstays'
    exact hs.inj _ _ _ _ _ ((hholds ..).mp hstays).2 ((hholds ..).mp hstays').2

/-- Nothing is given up. -/
theorem Owned.keep (hs : Owned s) {s' : Session κ}
    (hholds : ∀ h opath node, s'.system.Holds h opath node ↔ s.system.Holds h opath node)
    (htree : s'.system.tree = s.system.tree) (hentries : s'.system.entries = s.system.entries)
    (hrequested : s'.requested = s.requested) : Owned s' := by
  apply hs.remove fun _ _ => False
  case hholds => simpa using hholds
  case htree => exact nofun
  case htree' => exact fun path _ => congrFun htree path
  case hentries => exact fun node _ => congrFun hentries node
  case hrequested => exact nofun
  case hrequested' => exact fun h opath _ => by rw [hrequested]

theorem Owned.unregister (hs : Owned s) (hhandler : s.system.handlers h = some handler)
    (hlookup : handler.opathMap.lookup opath = some node) :
    Owned ⟨{ s.system.erase h handler opath node with
        tree := Function.update s.system.tree (cStr opath) none },
      request s.requested h opath none⟩ := by
  have hheld : s.system.Holds h opath node := ⟨handler, hhandler, hlookup⟩
  apply hs.remove fun h' opath' => h' = h ∧ opath' = opath
  case hholds => exact fun h' opath' node' => holds_erase_iff hhandler
  case htree =>
    rintro _ _ node' ⟨rfl, rfl⟩ -
    exact Function.update_self ..
  case htree' =>
    intro path hkept
    exact Function.update_of_ne (hkept h opath node ⟨rfl, rfl⟩ hheld).symm ..
  case hentries =>
    intro node' hkept
    refine Function.update_of_ne ?_ ..
    rintro rfl
    exact hkept h opath ⟨rfl, rfl⟩ hheld
  case hrequested =>
    rintro _ _ ⟨rfl, rfl⟩
    exact request_self ..
  case hrequested' => exact fun h' opath' hne => request_of_ne hne

/-- What is left when everything has been given up that the keys of a list stand for. -/
theorem foldl_update_none {α β γ : Type} [DecidableEq β] (key : α → β) (items : List α)
    (f : β → Option γ) (b : β) :
    items.foldl (fun f item => Function.update f (key item) none) f b =
      if b ∈ items.map key then none else f b := by
  induction items generalizing f with
  | nil => simp
  | cons item rest ih =>
    rw [List.foldl_cons, ih]
    by_cases hrest : b ∈ rest.map key
    · simp [hrest]
    · by_cases heq : b = key item
      · simp [heq]
      · simp [hrest, heq]

theorem Owned.destroy (hs : Owned s) (hhandler : s.system.handlers h = some handler)
    {succeeds : Bytes → Bool} (hall : ∀ e ∈ handler.opathMap.entries, succeeds e.1 = true) :
    Owned ⟨s.system.destroy h handler succeeds, Function.update s.requested h fun _ => none⟩ := by
  have htree : (s.system.destroy h handler succeeds).tree = handler.opathMap.entries.foldl
      (fun tree e => Function.update tree (cStr e.1) none) s.system.tree := by
    have hfilter := List.filter_eq_self.mpr hall
    conv_rhs => rw [← hfilter, List.foldl_filter]
    rfl
  have hentry : ∀ {opath' : Bytes} {node' : Nat}, s.system.Holds h opath' node' ↔
      ⟨opath', node'⟩ ∈ handler.opathMap.entries := by
    intro opath' node'
    rw [holds_iff_lookup hhandler]
    exact AList.mem_lookup_iff
  apply hs.remove fun h' _ => h' = h
  case hholds =>
    intro h' opath' node'
    rw [State.destroy, holds_update_iff]
    split
    case isTrue heq => simp [heq]
    case isFalse hne => simp [hne]
  case htree =>
    rintro _ opath' node' rfl hheld
    have hmem : cStr opath' ∈ handler.opathMap.entries.map fun e => cStr e.1 :=
      List.mem_map_of_mem (hentry.mp hheld)
    rw [htree]
    exact (foldl_update_none ..).trans (if_pos hmem)
  case htree' =>
    intro path hkept
    have hmem : path ∉ handler.opathMap.entries.map fun e => cStr e.1 := by
      rintro hmem
      obtain ⟨e, he, rfl⟩ := List.mem_map.mp hmem
      exact hkept h e.1 e.2 rfl (hentry.mpr he) rfl
    rw [htree]
    exact (foldl_update_none ..).trans (if_neg hmem)
  case hentries =>
    intro node' hkept
    have hmem : node' ∉ handler.opathMap.entries.map fun e => e.2 := by
      rintro hmem
      obtain ⟨e, he, rfl⟩ := List.mem_map.mp hmem
      exact hkept h e.1 rfl (hentry.mpr he)
    exact (foldl_update_none ..).trans (if_neg hmem)
  case hrequested =>
    rintro _ opath' rfl
    simp
  case hrequested' =>
    intro h' opath' hne
    simp [Function.update_of_ne hne]

end Steps

/-! ### Runs -/

theorem Owned.registerObjectPath {s : Session κ} {h node : Nat} {handler : Handler κ}
    (hs : Owned s) (hhandler : s.system.handlers h = some handler)
    (hfree : s.system.entries node = none) (opath : Bytes) (callback : Option κ)
    (fallback accepts : Bool) :
    Owned ⟨(s.system.registerObjectPath h handler opath callback fallback accepts node).1,
      if (s.system.registerObjectPath h handler opath callback fallback accepts node).2 then
        request s.requested h opath (some callback) else s.requested⟩ := by
  unfold State.registerObjectPath
  cases hlookup : handler.opathMap.lookup opath with
  | some entry =>
    have hheld : s.system.Holds h opath entry := ⟨handler, hhandler, hlookup⟩
    obtain ⟨old, -, hentry⟩ := hs.entry h opath entry hheld
    simp only [hentry, Option.map_some, if_true]
    exact hs.replace hheld callback
  | none =>
    by_cases htaken : accepts = true ∧ s.system.tree (cStr opath) = none
    · have htry : tryRegister s.system.tree (cStr opath) ⟨fallback, node⟩ accepts =
          some (Function.update s.system.tree (cStr opath) (some ⟨fallback, node⟩)) := by
        simp [tryRegister, htaken]
      simp only [htry, if_true]
      exact hs.register hhandler hfree htaken.2 callback fallback
    · have htry : tryRegister s.system.tree (cStr opath) ⟨fallback, node⟩ accepts = none := by
        simpa [tryRegister] using htaken
      simp only [htry, Bool.false_eq_true, if_false]
      apply hs.keep
      case hholds =>
        intro h' opath' node'
        have hnew : (s.system.emplace h handler opath callback node).handlers h =
            some { handler with opathMap := handler.opathMap.insert opath node } :=
          Function.update_self ..
        refine (holds_erase_iff hnew).trans ?_
        by_cases heq : h' = h ∧ opath' = opath
        · obtain ⟨rfl, rfl⟩ := heq
          simp [holds_iff_lookup hhandler, hlookup]
        · simp only [heq, not_false_eq_true, true_and]
          exact (holds_emplace_iff hhandler).trans (by rw [if_neg heq])
      case htree => rfl
      case hentries =>
        have hkept : Function.update s.system.entries node none = s.system.entries :=
          hfree ▸ Function.update_eq_self node s.system.entries
        exact (Function.update_idem ..).trans hkept
      case hrequested => rfl

theorem Owned.unregisterObjectPath {s : Session κ} {h : Nat} {handler : Handler κ}
    (hs : Owned s) (hhandler : s.system.handlers h = some handler) (opath : Bytes)
    (succeeds : Bool) :
    Owned ⟨(s.system.unregisterObjectPath h handler opath succeeds).1,
      if (s.system.unregisterObjectPath h handler opath succeeds).2 then
        request s.requested h opath none else s.requested⟩ := by
  unfold State.unregisterObjectPath
  cases hlookup : handler.opathMap.lookup opath with
  | none =>
    -- The path has been given up already.
    refine hs.keep (fun _ _ _ => Iff.rfl) rfl rfl ?_
    cases hrequested : s.requested h opath with
    | none =>
      have hsame : request s.requested h opath none = s.requested := by
        rw [request, ← hrequested, Function.update_eq_self, Function.update_eq_self]
      exact hsame
    | some callback =>
      obtain ⟨node, hheld⟩ := hs.held h opath callback hrequested
      rw [holds_iff_lookup hhandler, hlookup] at hheld
      cases hheld
  | some node =>
    cases succeeds with
    | true => exact hs.unregister hhandler hlookup
    | false => exact hs

theorem owned_step {s s' : Session κ} {label : Label κ} (hs : Owned s)
    (hallowed : PathsUnregistered s label) (hstep : step s label = some s') : Owned s' := by
  cases label with
  | construct h cb =>
    simp only [step] at hstep
    split at hstep
    case h_1 => cases hstep
    case h_2 hnone =>
      obtain rfl := Option.some.inj hstep
      refine hs.keep (fun h' opath node => ?_) rfl rfl rfl
      rw [holds_update_iff]
      split
      case isTrue heq => simp [State.Holds, heq, hnone]
      case isFalse => exact Iff.rfl
  | register h opath callback fallback accepts node =>
    simp only [step] at hstep
    split at hstep
    case h_1 handler hhandler hfree =>
      obtain rfl := Option.some.inj hstep
      exact hs.registerObjectPath hhandler hfree opath callback fallback accepts
    case h_2 => cases hstep
  | unregister h opath succeeds =>
    simp only [step, Option.map_eq_some_iff] at hstep
    obtain ⟨handler, hhandler, rfl⟩ := hstep
    exact hs.unregisterObjectPath hhandler opath succeeds
  | setMethodCallCb h callback =>
    simp only [step, Option.map_eq_some_iff] at hstep
    obtain ⟨handler, hhandler, rfl⟩ := hstep
    refine hs.keep (fun h' opath node => ?_) rfl rfl rfl
    rw [holds_update_iff]
    split
    case isTrue heq => simp [heq, holds_iff_lookup hhandler]
    case isFalse => exact Iff.rfl
  | destroy h succeeds =>
    simp only [step, Option.map_eq_some_iff] at hstep
    obtain ⟨handler, hhandler, rfl⟩ := hstep
    exact hs.destroy hhandler (hallowed handler hhandler)

theorem owned_of_reachable {s : Session κ} (h : system.ReachableWhen PathsUnregistered s) :
    Owned s := by
  apply h.invariant
  case initial =>
    rintro _ rfl
    have hnone : ∀ h opath node, ¬ (initial : Session κ).system.Holds h opath node := by
      rintro h opath node ⟨handler, hhandler, -⟩
      cases hhandler
    exact ⟨fun h opath node hheld => absurd hheld (hnone h opath node),
      fun h opath node hheld => absurd hheld (hnone h opath node), nofun, nofun,
      fun h opath _ _ node hheld => absurd hheld (hnone h opath node)⟩
  case preserved => exact fun _ _ _ => owned_step

/-- What a method call for a path comes to that its handler has registered. -/
def Handler.answer (handler : Handler κ) : Option κ → Dispatch κ
  | none => handler.onMethodCall
  | some callback => .calls callback

/-- The entry of a path is used with the handler that it belongs to. -/
theorem Owned.dbusOnMessage_eq {s : Session κ} (hs : Owned s) {h node : Nat}
    {handler : Handler κ} {opath : Bytes} {callback : Option κ}
    (hhandler : s.system.handlers h = some handler) (hheld : s.system.Holds h opath node)
    (hrequested : s.requested h opath = some callback) :
    s.system.dbusOnMessage node = handler.answer callback := by
  obtain ⟨callback', hcallback, hentry⟩ := hs.entry h opath node hheld
  obtain rfl := Option.some.inj (hrequested.symm.trans hcallback)
  simp only [State.dbusOnMessage, hentry, hhandler]
  cases callback <;> rfl

/-- Messages are routed to the handlers that have asked for their paths. -/
structure Routed (s : Session κ) : Prop where
  -- what is in the tree has been asked for, and leads to the callback that was given last
  route : ∀ path registration, s.system.tree path = some registration →
    ∃ h handler opath callback, s.system.handlers h = some handler ∧ cStr opath = path ∧
      s.requested h opath = some callback ∧
      s.system.dbusOnMessage registration.userData = handler.answer callback
  -- what has been asked for is in the tree
  registered : ∀ h opath callback, s.requested h opath = some callback →
    (s.system.tree (cStr opath)).isSome = true
  -- nobody takes a path from another
  alone : ∀ h opath h' opath', (s.requested h opath).isSome = true →
    (s.requested h' opath').isSome = true → cStr opath = cStr opath' → h = h' ∧ opath = opath'

/-- In every run of any number of handlers on one connection in which destructors unregister their
    paths, a method call runs the callback that the handler of its path has given last, or goes to
    `on_method_call` of that handler; a path belongs to one handler at a time, and no pointer is
    left in the tree to what is gone. -/
theorem routed_of_reachable {s : Session κ} (h : system.ReachableWhen PathsUnregistered s) :
    Routed s := by
  have hs := owned_of_reachable h
  constructor
  case route =>
    intro path registration hregistered
    obtain ⟨h, opath, hheld, rfl⟩ := hs.owner path registration hregistered
    have ⟨handler, hhandler, _⟩ := hheld
    obtain ⟨callback, hrequested, -⟩ := hs.entry h opath _ hheld
    exact ⟨h, handler, opath, callback, hhandler, rfl, hrequested,
      hs.dbusOnMessage_eq hhandler hheld hrequested⟩
  case registered =>
    intro h opath callback hrequested
    obtain ⟨node, hheld⟩ := hs.held h opath callback hrequested
    obtain ⟨fallback, hregistered⟩ := hs.registered h opath node hheld
    simp [hregistered]
  case alone =>
    intro h opath h' opath' hrequested hrequested' heq
    obtain ⟨callback, hcallback⟩ := Option.isSome_iff_exists.mp hrequested
    obtain ⟨callback', hcallback'⟩ := Option.isSome_iff_exists.mp hrequested'
    obtain ⟨node, hheld⟩ := hs.held h opath callback hcallback
    obtain ⟨node', hheld'⟩ := hs.held h' opath' callback' hcallback'
    obtain ⟨fallback, hregistered⟩ := hs.registered h opath node hheld
    obtain ⟨fallback', hregistered'⟩ := hs.registered h' opath' node' hheld'
    rw [heq, hregistered'] at hregistered
    obtain ⟨-, rfl⟩ := Registration.mk.inj (Option.some.inj hregistered)
    exact hs.inj h opath h' opath' node' hheld hheld'

/-- Two handlers ask for `/a`; the one that gets it gives another callback and goes away. -/
def twoHandlers : List (Label Nat) :=
  [.construct 0 none, .construct 1 (some 9), .register 0 (text "/a") (some 5) false true 3,
    .register 1 (text "/a") (some 6) false true 4, .register 0 (text "/a") (some 7) false true 4,
    .destroy 0 fun _ => true, .register 1 (text "/a") none true true 3]

def lastHandler : Session Nat := (system.run initial twoHandlers).getD initial

theorem lastHandler_routed : Routed lastHandler :=
  routed_of_reachable (TransitionSystem.reachableWhen_of_run twoHandlers rfl
    ⟨trivial, trivial, trivial, trivial, trivial, fun _ _ _ _ => rfl, trivial, trivial⟩ rfl)

/-- A destructor whose path is not unregistered leaves a pointer to an entry that is gone. -/
theorem destroy_leaves_dangling : ∃ (s : Session Nat) (registration : Registration),
    system.run initial [.construct 0 none, .register 0 (text "/a") (some 5) false true 3,
      .destroy 0 fun _ => false] = some s ∧ s.system.tree (text "/a") = some registration ∧
      s.system.dbusOnMessage registration.userData = .dangling :=
  ⟨_, ⟨false, 3⟩, rfl, by decide, by decide⟩

end Ultrabus.ObjectTree
