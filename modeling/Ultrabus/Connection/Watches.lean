import Mathlib.Logic.Function.Basic
import Mathlib.Order.Basic
import Ultrabus.Lib.OrderedMap
import Ultrabus.Lib.Transition

/-! # Watches of a connection

`on_add_watch`, `on_remove_watch` and `on_toggled_watch`: the map `fd_map`, with the events
that each watch of a descriptor waits for, and the interest set of the `epoll` instance.
The watches of a descriptor are ordered by their addresses.  `ω` is the type of
`DBusWatch*`. -/

namespace Ultrabus.Watches

def dbusWatchReadable : UInt32 := 1
def dbusWatchWritable : UInt32 := 2
def epollIn : UInt32 := 1
def epollOut : UInt32 := 4

/-- What libdbus says of every watch. -/
structure Info (ω : Type) where
  unixFd : ω → Int
  flags : ω → UInt32

/-- The events that the three functions work out for a watch. -/
def fdEvents (flags : UInt32) (enabled : Bool) : UInt32 :=
  let watchFlags := if enabled then flags else 0
  (if watchFlags &&& dbusWatchReadable ≠ 0 then epollIn else 0) |||
    if watchFlags &&& dbusWatchWritable ≠ 0 then epollOut else 0

/-- The watches of one descriptor with their events. -/
abbrev Entries (ω : Type) := List (ω × UInt32)

structure State (ω : Type) where
  fdMap : Int → Option (Entries ω)
  -- the events of each descriptor that is in the interest set
  epoll : Int → Option UInt32

variable {ω : Type}

/-- `for (const auto& entry : entries) fd_events |= entry.second;`. -/
def orEvents (fdEvents : UInt32) (entries : Entries ω) : UInt32 :=
  entries.foldl (fun events entry => events ||| entry.2) fdEvents

theorem orEvents_cons (events : UInt32) (entry : ω × UInt32) (rest : Entries ω) :
    orEvents events (entry :: rest) = orEvents (events ||| entry.2) rest := rfl

theorem orEvents_append (events : UInt32) (front rest : Entries ω) :
    orEvents events (front ++ rest) = orEvents (orEvents events front) rest :=
  List.foldl_append

theorem orEvents_eq (events : UInt32) (entries : Entries ω) :
    orEvents events entries = events ||| orEvents 0 entries := by
  induction entries generalizing events with
  | nil => simp [orEvents]
  | cons entry rest ih =>
    rw [orEvents_cons, orEvents_cons, ih, ih (0 ||| entry.2)]
    simp only [UInt32.zero_or, UInt32.or_assoc]

/-- A mask covers the masks of some entries together exactly when it covers each of them. -/
theorem or_orEvents_iff (events : UInt32) (entries : Entries ω) :
    events ||| orEvents 0 entries = events ↔ ∀ entry ∈ entries, events ||| entry.2 = events := by
  induction entries with
  | nil => simp [orEvents]
  | cons entry rest ih =>
    rw [orEvents_cons, orEvents_eq, UInt32.zero_or, List.forall_mem_cons]
    constructor
    · intro h
      have hentry : events ||| entry.2 = events := by
        rw [← h]
        ac_rfl
      rw [← UInt32.or_assoc, hentry] at h
      exact ⟨hentry, ih.mp h⟩
    · rintro ⟨hentry, hrest⟩
      rw [← UInt32.or_assoc, hentry]
      exact ih.mpr hrest

/-- The masks of some entries together cover each of them. -/
theorem or_orEvents_of_mem {entry : ω × UInt32} {entries : Entries ω} (h : entry ∈ entries) :
    entry.2 ||| orEvents 0 entries = orEvents 0 entries := by
  have hself := UInt32.or_self (a := orEvents 0 entries)
  rw [UInt32.or_comm]
  exact (or_orEvents_iff _ _).mp hself entry h

variable [LinearOrder ω]

/-- `std::less<DBusWatch*>`. -/
def addressLess (a b : ω) : Bool := a < b

def eraseWatch (watch : ω) (entries : Entries ω) : Entries ω :=
  entries.filter fun entry => entry.1 ≠ watch

def State.set (s : State ω) (fd : Int) (entries : Option (Entries ω)) (events : Option UInt32) :
    State ω where
  fdMap := Function.update s.fdMap fd entries
  epoll := Function.update s.epoll fd events

/-- `connection::on_add_watch`, and what `epoll_ctl` makes of the call. -/
def onAddWatch (info : Info ω) (s : State ω) (watch : ω) (enabled epollCtl : Bool) :
    State ω × Bool :=
  let fd := info.unixFd watch
  let events := fdEvents (info.flags watch) enabled
  match s.fdMap fd with
  | none => if epollCtl then (s.set fd (some [(watch, events)]) (some events), true) else (s, false)
  | some entries =>
    let added := OrderedMap.emplace addressLess watch events entries
    if epollCtl then (s.set fd (some added) (some (orEvents events added)), true)
    else (s.set fd (some (eraseWatch watch added)) (s.epoll fd), false)

/-- `connection::on_remove_watch`; the results of `epoll_ctl` are not looked at. -/
def onRemoveWatch (info : Info ω) (s : State ω) (watch : ω) (epollCtl : Bool) : State ω :=
  let fd := info.unixFd watch
  match s.fdMap fd with
  | none => s
  | some entries =>
    match eraseWatch watch entries with
    | [] => s.set fd none (if epollCtl then none else s.epoll fd)
    | left => s.set fd (some left) (if epollCtl then some (orEvents 0 left) else s.epoll fd)

/-- The loop of `on_toggled_watch`: the entry of the watch takes what has been collected by
    then. -/
def toggleLoop (watch : ω) (fdEvents : UInt32) : Entries ω → Entries ω × UInt32
  | [] => ([], fdEvents)
  | (other, events) :: rest =>
    let events := if other = watch then fdEvents else events
    let (rest, fdEvents) := toggleLoop watch (fdEvents ||| events) rest
    ((other, events) :: rest, fdEvents)

/-- `connection::on_toggled_watch`. -/
def onToggledWatch (info : Info ω) (s : State ω) (watch : ω) (enabled epollCtl : Bool) :
    State ω :=
  let fd := info.unixFd watch
  match s.fdMap fd with
  | none => s
  | some entries =>
    let (entries, events) := toggleLoop watch (fdEvents (info.flags watch) enabled) entries
    s.set fd (some entries) (if epollCtl then some events else s.epoll fd)

/-! ## Runs -/

/-- The state of the connection, and the watches that are added and not removed, with
    whether they were enabled when libdbus last said so. -/
structure Book (ω : Type) where
  conn : State ω
  added : ω → Option Bool

inductive Label (ω : Type) where
  | addWatch (watch : ω) (enabled : Bool)
  | removeWatch (watch : ω)
  | toggledWatch (watch : ω) (enabled : Bool)
deriving DecidableEq, Repr

/-- Any of the calls, with `epoll_ctl` succeeding. -/
def step (info : Info ω) (b : Book ω) : Label ω → Option (Book ω)
  | .addWatch watch enabled =>
    some {
      conn := (onAddWatch info b.conn watch enabled true).1
      added := Function.update b.added watch (some enabled) }
  | .removeWatch watch =>
    some {
      conn := onRemoveWatch info b.conn watch true
      added := Function.update b.added watch none }
  | .toggledWatch watch enabled =>
    some {
      conn := onToggledWatch info b.conn watch enabled true
      added := Function.update b.added watch ((b.added watch).map fun _ => enabled) }

def initial : Book ω where
  conn := ⟨fun _ => none, fun _ => none⟩
  added _ := none

def system (info : Info ω) : TransitionSystem (Book ω) (Label ω) where
  init b := b = initial
  step := step info

/-- The mask of the flags of a watch. -/
def maskOf (flags : UInt32) : UInt32 :=
  (if flags &&& dbusWatchReadable ≠ 0 then epollIn else 0) |||
    if flags &&& dbusWatchWritable ≠ 0 then epollOut else 0

/-- `fd_map` has the watches that are added and not removed, each with the mask of its flags
    if it is enabled and with 0 otherwise, and the interest set of every descriptor is the
    bitwise or of the masks of its watches. -/
structure Matches (info : Info ω) (b : Book ω) : Prop where
  entries : ∀ fd watch mask, (∃ entries, b.conn.fdMap fd = some entries ∧ (watch, mask) ∈ entries) ↔
    info.unixFd watch = fd ∧ ∃ enabled, b.added watch = some enabled ∧
      mask = if enabled then maskOf (info.flags watch) else 0
  interest : ∀ fd entries, b.conn.fdMap fd = some entries →
    b.conn.epoll fd = some (orEvents 0 entries)

theorem fdEvents_eq (flags : UInt32) (enabled : Bool) :
    fdEvents flags enabled = if enabled then maskOf flags else 0 := by
  cases enabled with
  | true => rfl
  | false => simp [fdEvents]

/-! ## The loop over the watches of a descriptor -/

theorem toggleLoop_of_notMem {watch : ω} {entries : Entries ω}
    (h : ∀ entry ∈ entries, entry.1 ≠ watch) (events : UInt32) :
    toggleLoop watch events entries = (entries, orEvents events entries) := by
  induction entries generalizing events with
  | nil => rfl
  | cons entry rest ih =>
    obtain ⟨hentry, hrest⟩ := List.forall_mem_cons.mp h
    simp only [toggleLoop, if_neg hentry, ih hrest, orEvents_cons]

theorem toggleLoop_append {watch : ω} {front : Entries ω}
    (h : ∀ entry ∈ front, entry.1 ≠ watch) (events : UInt32) (rest : Entries ω) :
    toggleLoop watch events (front ++ rest) =
      (front ++ (toggleLoop watch (orEvents events front) rest).1,
        (toggleLoop watch (orEvents events front) rest).2) := by
  induction front generalizing events with
  | nil => rfl
  | cons entry front ih =>
    obtain ⟨hentry, hfront⟩ := List.forall_mem_cons.mp h
    simp only [List.cons_append, toggleLoop, if_neg hentry, ih hfront, orEvents_cons]

/-- The entry of the watch takes its new mask together with the masks in front of it. -/
theorem toggleLoop_of_mem {watch : ω} {front rest : Entries ω}
    (hfront : ∀ entry ∈ front, entry.1 ≠ watch) (hrest : ∀ entry ∈ rest, entry.1 ≠ watch)
    (events old : UInt32) :
    toggleLoop watch events (front ++ (watch, old) :: rest) =
      (front ++ (watch, orEvents events front) :: rest,
        orEvents 0 (front ++ (watch, orEvents events front) :: rest)) := by
  have hevents : orEvents (orEvents events front ||| orEvents events front) rest =
      orEvents 0 (front ++ (watch, orEvents events front) :: rest) := by
    rw [orEvents_append, orEvents_cons, orEvents_eq (orEvents events front ||| _),
      orEvents_eq (orEvents 0 front ||| _), orEvents_eq events]
    dsimp only
    ac_rfl
  simp only [toggleLoop_append hfront, toggleLoop, if_true, toggleLoop_of_notMem hrest, hevents]

/-! ## One call -/

/-- Every descriptor has its entries in the order of their addresses. -/
def InOrder (c : State ω) : Prop :=
  ∀ fd entries, c.fdMap fd = some entries → OrderedMap.Sorted addressLess entries

structure Inv (info : Info ω) (b : Book ω) : Prop where
  books : Matches info b
  sorted : InOrder b.conn

theorem addressLess_strictWeakOn :
    OrderedMap.StrictWeakOn (addressLess (ω := ω)) fun _ => True :=
  .of_rank id fun a b _ _ => by simp [addressLess]

/-- What a call that concerns one watch leaves at the descriptor of the watch. -/
structure MatchesAt (info : Info ω) (fd : Int) (added : ω → Option Bool)
    (row : Option (Entries ω)) (events : Option UInt32) : Prop where
  entries : ∀ watch mask, (∃ entries, row = some entries ∧ (watch, mask) ∈ entries) ↔
    info.unixFd watch = fd ∧ ∃ enabled, added watch = some enabled ∧
      mask = fdEvents (info.flags watch) enabled
  interest : ∀ entries, row = some entries → events = some (orEvents 0 entries)

omit [LinearOrder ω] in
theorem matches_iff (info : Info ω) (b : Book ω) :
    Matches info b ↔
      ∀ fd, MatchesAt info fd b.added (b.conn.fdMap fd) (b.conn.epoll fd) := by
  constructor
  · intro h fd
    exact ⟨fun watch mask => by simpa only [fdEvents_eq] using h.entries fd watch mask,
      h.interest fd⟩
  · intro h
    exact ⟨fun fd watch mask => by simpa only [fdEvents_eq] using (h fd).entries watch mask,
      fun fd => (h fd).interest⟩

/-- The other descriptors are not touched. -/
theorem matches_set_iff {info : Info ω} {b : Book ω} (h : Matches info b) (watch : ω)
    (state : Option Bool) (entries : Option (Entries ω)) (events : Option UInt32) :
    Matches info ⟨b.conn.set (info.unixFd watch) entries events,
        Function.update b.added watch state⟩ ↔
      MatchesAt info (info.unixFd watch) (Function.update b.added watch state) entries
        events := by
  rw [matches_iff] at h ⊢
  constructor
  · intro hall
    simpa [State.set] using hall (info.unixFd watch)
  · intro hat fd
    by_cases hfd : fd = info.unixFd watch
    · subst hfd
      simpa [State.set] using hat
    · simp only [State.set, Function.update_of_ne hfd]
      refine ⟨fun other mask => ?_, (h fd).interest⟩
      rw [(h fd).entries other mask]
      by_cases hother : other = watch
      · subst hother
        simp [Ne.symm hfd]
      · simp [Function.update_of_ne hother]

/-- When a call does what it is for.  A watch that is added again keeps its old entry, so that
    its mask must be the same; a toggled watch takes over the masks at lower addresses, so
    that its new mask must cover them; and a toggled watch that is not added must have
    nothing to add to the interest set. -/
def KeepsMasks (info : Info ω) (b : Book ω) : Label ω → Prop
  | .addWatch watch enabled => ∀ was, b.added watch = some was →
    fdEvents (info.flags watch) was = fdEvents (info.flags watch) enabled
  | .removeWatch _ => True
  | .toggledWatch watch enabled => ∀ entries, b.conn.fdMap (info.unixFd watch) = some entries →
    let events := fdEvents (info.flags watch) enabled
    (b.added watch = none → events ||| orEvents 0 entries = orEvents 0 entries) ∧
    (b.added watch ≠ none → ∀ entry ∈ entries, entry.1 < watch → events ||| entry.2 = events)

/-- A watch that has no entry gets one. -/
theorem matches_addWatch_new {info : Info ω} {b : Book ω} (h : Inv info b) {watch : ω}
    (hnew : b.added watch = none) (enabled : Bool) :
    Matches info ⟨(onAddWatch info b.conn watch enabled true).1,
      Function.update b.added watch (some enabled)⟩ := by
  have hrow := (matches_iff info b).mp h.books (info.unixFd watch)
  simp only [onAddWatch]
  cases hfd : b.conn.fdMap (info.unixFd watch) with
  | none =>
    rw [hfd] at hrow
    simp only [if_true]
    rw [matches_set_iff h.books]
    refine ⟨fun other mask => ?_, ?_⟩
    · by_cases hother : other = watch
      · subst hother
        simp
      · -- No other watch has the descriptor.
        have hentries := hrow.entries other mask
        simp only [reduceCtorEq, false_and, exists_false, false_iff] at hentries
        rw [Function.update_of_ne hother]
        refine iff_of_false ?_ hentries
        simp [hother]
    · rintro _ ⟨⟩
      simp [orEvents]
  | some entries =>
    rw [hfd] at hrow
    have hnone : ∀ entry ∈ entries, OrderedMap.equiv addressLess entry.1 watch = false := by
      rintro ⟨other, mask⟩ hmem
      have hne : other ≠ watch := by
        rintro rfl
        obtain ⟨-, was, hwas, -⟩ := (hrow.entries other mask).mp ⟨entries, rfl, hmem⟩
        simp [hnew] at hwas
      simp only [OrderedMap.equiv, addressLess]
      rcases lt_or_gt_of_ne hne with hlt | hlt <;> simp [hlt]
    have hperm := OrderedMap.emplace_perm (fdEvents (info.flags watch) enabled) hnone
    simp only [if_true]
    rw [matches_set_iff h.books]
    refine ⟨fun other mask => ?_, ?_⟩
    · have hother := hrow.entries other mask
      simp only [Option.some.injEq, exists_eq_left'] at hother
      simp only [Option.some.injEq, exists_eq_left', hperm.mem_iff, List.mem_cons, Prod.mk.injEq]
      by_cases hsame : other = watch
      · subst hsame
        simp [hother, hnew]
      · simp [hsame, hother]
    · rintro _ ⟨⟩
      rw [orEvents_eq]
      exact congrArg some (or_orEvents_of_mem (hperm.mem_iff.mpr List.mem_cons_self))

/-- A watch that has an entry keeps it. -/
theorem matches_addWatch_again {info : Info ω} {b : Book ω} (h : Inv info b) {watch : ω}
    {was : Bool} (hadded : b.added watch = some was) (enabled : Bool) :
    Matches info ⟨(onAddWatch info b.conn watch enabled true).1,
        Function.update b.added watch (some enabled)⟩ ↔
      fdEvents (info.flags watch) was = fdEvents (info.flags watch) enabled := by
  have hrow := (matches_iff info b).mp h.books (info.unixFd watch)
  obtain ⟨entries, hfd, hmem⟩ := (hrow.entries watch _).mpr ⟨rfl, was, hadded, rfl⟩
  rw [hfd] at hrow
  have hsame : OrderedMap.emplace addressLess watch
      (fdEvents (info.flags watch) enabled) entries = entries :=
    OrderedMap.emplace_of_mem addressLess_strictWeakOn _ trivial (fun _ _ => trivial)
      (h.sorted _ _ hfd) hmem (addressLess_strictWeakOn.equiv_refl trivial)
  simp only [onAddWatch, hfd, if_true, hsame]
  rw [matches_set_iff h.books]
  constructor
  · intro hat
    obtain ⟨-, enabled', henabled, hmask⟩ := (hat.entries watch _).mp ⟨entries, rfl, hmem⟩
    rw [Function.update_self] at henabled
    rw [hmask, Option.some.inj henabled]
  · intro hmask
    rw [← hmask]
    refine ⟨fun other mask => ?_, ?_⟩
    · rw [hrow.entries other mask]
      by_cases hother : other = watch
      · subst hother
        simp [hadded, hmask]
      · simp [Function.update_of_ne hother]
    · rintro _ ⟨⟩
      rw [orEvents_eq]
      exact congrArg some (or_orEvents_of_mem hmem)

theorem matches_removeWatch {info : Info ω} {b : Book ω} (h : Inv info b) (watch : ω) :
    Matches info ⟨onRemoveWatch info b.conn watch true, Function.update b.added watch none⟩ := by
  have hrow := (matches_iff info b).mp h.books (info.unixFd watch)
  simp only [onRemoveWatch]
  cases hfd : b.conn.fdMap (info.unixFd watch) with
  | none =>
    -- Nothing is known of the descriptor, so that the watch is not added.
    have hnot : b.added watch = none := by
      rw [hfd] at hrow
      cases hadded : b.added watch with
      | none => rfl
      | some was =>
        obtain ⟨_, hentries, -⟩ := (hrow.entries watch _).mpr ⟨rfl, was, hadded, rfl⟩
        cases hentries
    rw [← hnot, Function.update_eq_self]
    exact h.books
  | some entries =>
    rw [hfd] at hrow
    have hleft : ∀ other mask, (other, mask) ∈ eraseWatch watch entries ↔
        info.unixFd other = info.unixFd watch ∧
          ∃ enabled, Function.update b.added watch none other = some enabled ∧
            mask = fdEvents (info.flags other) enabled := by
      intro other mask
      have hother := hrow.entries other mask
      simp only [Option.some.injEq, exists_eq_left'] at hother
      by_cases hsame : other = watch
      · subst hsame
        simp [eraseWatch]
      · simp [eraseWatch, hsame, hother]
    cases herase : eraseWatch watch entries with
    | nil =>
      simp only [herase, if_true]
      rw [matches_set_iff h.books]
      refine ⟨fun other mask => ?_, fun _ hentries => by cases hentries⟩
      rw [← hleft, herase]
      simp
    | cons first rest =>
      simp only [herase, if_true]
      rw [matches_set_iff h.books]
      refine ⟨fun other mask => ?_, ?_⟩
      · rw [← hleft, herase]
        simp
      · rintro _ ⟨⟩
        rfl

/-- The interest set gets the events of a watch that is not added. -/
theorem matches_toggledWatch_unknown {info : Info ω} {b : Book ω} (h : Inv info b) {watch : ω}
    (hnot : b.added watch = none) (enabled : Bool) :
    Matches info ⟨onToggledWatch info b.conn watch enabled true,
        Function.update b.added watch ((b.added watch).map fun _ => enabled)⟩ ↔
      ∀ entries, b.conn.fdMap (info.unixFd watch) = some entries →
        fdEvents (info.flags watch) enabled ||| orEvents 0 entries = orEvents 0 entries := by
  have hrow := (matches_iff info b).mp h.books (info.unixFd watch)
  simp only [hnot, Option.map_none, onToggledWatch]
  cases hfd : b.conn.fdMap (info.unixFd watch) with
  | none =>
    rw [← hnot, Function.update_eq_self]
    exact iff_of_true h.books fun _ hentries => by cases hentries
  | some entries =>
    rw [hfd] at hrow
    have hnone : ∀ entry ∈ entries, entry.1 ≠ watch := by
      rintro ⟨other, mask⟩ hmem rfl
      obtain ⟨-, was, hwas, -⟩ := (hrow.entries other mask).mp ⟨entries, rfl, hmem⟩
      simp [hnot] at hwas
    simp only [toggleLoop_of_notMem hnone, if_true]
    rw [matches_set_iff h.books, ← hnot, Function.update_eq_self, orEvents_eq]
    constructor
    · rintro hat _ ⟨⟩
      exact Option.some.inj (hat.interest entries rfl)
    · intro hcovered
      refine ⟨hrow.entries, ?_⟩
      rintro _ ⟨⟩
      rw [hcovered entries rfl]

/-- The entry of a watch that is added gets the masks at lower addresses too. -/
theorem matches_toggledWatch_added {info : Info ω} {b : Book ω} (h : Inv info b) {watch : ω}
    {was : Bool} (hadded : b.added watch = some was) (enabled : Bool) :
    Matches info ⟨onToggledWatch info b.conn watch enabled true,
        Function.update b.added watch ((b.added watch).map fun _ => enabled)⟩ ↔
      ∀ entries, b.conn.fdMap (info.unixFd watch) = some entries →
        ∀ entry ∈ entries, entry.1 < watch →
          fdEvents (info.flags watch) enabled ||| entry.2 =
            fdEvents (info.flags watch) enabled := by
  have hrow := (matches_iff info b).mp h.books (info.unixFd watch)
  obtain ⟨entries, hfd, hmem⟩ := (hrow.entries watch _).mpr ⟨rfl, was, hadded, rfl⟩
  rw [hfd] at hrow
  -- The entries at lower addresses stand in front of that of the watch.
  obtain ⟨front, rest, rfl⟩ := List.append_of_mem hmem
  have hsorted := h.sorted _ _ hfd
  obtain ⟨-, hback, hbetween⟩ := List.pairwise_append.mp hsorted
  have hfront : ∀ entry ∈ front, entry.1 < watch := fun entry hentry => by
    simpa [addressLess] using hbetween entry hentry _ List.mem_cons_self
  have hrest : ∀ entry ∈ rest, watch < entry.1 := fun entry hentry => by
    simpa [addressLess] using (List.pairwise_cons.mp hback).1 entry hentry
  have hloop := toggleLoop_of_mem (fun entry hentry => ne_of_lt (hfront entry hentry))
    (fun entry hentry => ne_of_gt (hrest entry hentry))
    (fdEvents (info.flags watch) enabled) (fdEvents (info.flags watch) was)
  simp only [hadded, Option.map_some, onToggledWatch, hfd, hloop, if_true]
  rw [matches_set_iff h.books, orEvents_eq]
  have hcovers := or_orEvents_iff (fdEvents (info.flags watch) enabled) front
  constructor
  · rintro hat _ ⟨⟩ entry hentry hlt
    obtain ⟨-, enabled', henabled, hmask⟩ := (hat.entries watch _).mp ⟨_, rfl,
      List.mem_append_right front List.mem_cons_self⟩
    rw [Function.update_self] at henabled
    rw [← Option.some.inj henabled, hcovers] at hmask
    rcases List.mem_append.mp hentry with hentry | hentry
    · exact hmask entry hentry
    · rcases List.mem_cons.mp hentry with rfl | hentry
      · exact absurd hlt (lt_irrefl _)
      · exact absurd hlt (lt_asymm (hrest entry hentry))
  · intro hbelow
    rw [hcovers.mpr fun entry hentry =>
      hbelow _ rfl entry (List.mem_append_left _ hentry) (hfront entry hentry)]
    refine ⟨fun other mask => ?_, fun _ hentries => by cases hentries; rfl⟩
    have hother := hrow.entries other mask
    simp only [Option.some.injEq, exists_eq_left', List.mem_append, List.mem_cons,
      Prod.mk.injEq] at hother ⊢
    by_cases hsame : other = watch
    · subst hsame
      have hnotFront : (other, mask) ∉ front := fun hmem => lt_irrefl _ (hfront _ hmem)
      have hnotRest : (other, mask) ∉ rest := fun hmem => lt_irrefl _ (hrest _ hmem)
      simp [hnotFront, hnotRest]
    · simpa [hsame] using hother

theorem toggleLoop_keys (watch : ω) (events : UInt32) (entries : Entries ω) :
    (toggleLoop watch events entries).1.map Prod.fst = entries.map Prod.fst := by
  induction entries generalizing events with
  | nil => rfl
  | cons entry rest ih => rw [toggleLoop, List.map_cons, List.map_cons, ih]

theorem InOrder.set {c : State ω} (h : InOrder c) {fd : Int} {row : Option (Entries ω)}
    (hrow : ∀ entries, row = some entries → OrderedMap.Sorted addressLess entries)
    (events : Option UInt32) : InOrder (c.set fd row events) := by
  intro other entries hentries
  by_cases hsame : other = fd
  · subst hsame
    simp only [State.set, Function.update_self] at hentries
    exact hrow entries hentries
  · simp only [State.set, Function.update_of_ne hsame] at hentries
    exact h other entries hentries

theorem inOrder_onAddWatch {c : State ω} (h : InOrder c) (info : Info ω) (watch : ω)
    (enabled : Bool) : InOrder (onAddWatch info c watch enabled true).1 := by
  simp only [onAddWatch]
  split
  · exact h.set (fun _ hentries => by cases hentries; exact List.pairwise_singleton _ _) _
  · rename_i entries hfd
    refine h.set (fun _ hentries => ?_) _
    obtain rfl := Option.some.inj hentries
    exact (h _ _ hfd).emplace addressLess_strictWeakOn trivial fun _ _ => trivial

theorem inOrder_onRemoveWatch {c : State ω} (h : InOrder c) (info : Info ω) (watch : ω) :
    InOrder (onRemoveWatch info c watch true) := by
  simp only [onRemoveWatch]
  split
  · exact h
  · rename_i entries hfd
    have hleft := (h _ _ hfd).filter fun entry => entry.1 ≠ watch
    split
    · exact h.set (fun _ hentries => by cases hentries) _
    · refine h.set (fun _ hentries => ?_) _
      obtain rfl := Option.some.inj hentries
      exact hleft

theorem inOrder_onToggledWatch {c : State ω} (h : InOrder c) (info : Info ω) (watch : ω)
    (enabled : Bool) : InOrder (onToggledWatch info c watch enabled true) := by
  simp only [onToggledWatch]
  split
  · exact h
  · rename_i entries hfd
    refine h.set (fun _ hentries => ?_) _
    obtain rfl := Option.some.inj hentries
    have hkeys := toggleLoop_keys watch (fdEvents (info.flags watch) enabled) entries
    have hsorted := h _ _ hfd
    simp only [OrderedMap.Sorted, ← List.pairwise_map (f := Prod.fst)
      (R := fun a b => addressLess a b = true)] at hsorted ⊢
    rw [hkeys]
    exact hsorted

theorem inOrder_step {info : Info ω} {b b' : Book ω} {a : Label ω} (h : InOrder b.conn)
    (hstep : step info b a = some b') : InOrder b'.conn := by
  cases a with
  | addWatch watch enabled =>
    obtain rfl := Option.some.inj hstep
    exact inOrder_onAddWatch h info watch enabled
  | removeWatch watch =>
    obtain rfl := Option.some.inj hstep
    exact inOrder_onRemoveWatch h info watch
  | toggledWatch watch enabled =>
    obtain rfl := Option.some.inj hstep
    exact inOrder_onToggledWatch h info watch enabled

/-! ## Runs -/

/-- From a state that matches, a call leads to one that does exactly when it keeps the
    masks. -/
theorem matches_step_iff {info : Info ω} {b b' : Book ω} {a : Label ω} (h : Inv info b)
    (hstep : step info b a = some b') : Matches info b' ↔ KeepsMasks info b a := by
  cases a with
  | addWatch watch enabled =>
    obtain rfl := Option.some.inj hstep
    cases hadded : b.added watch with
    | none =>
      refine iff_of_true (matches_addWatch_new h hadded enabled) fun was hwas => ?_
      simp [hadded] at hwas
    | some was =>
      rw [matches_addWatch_again h hadded]
      simp [KeepsMasks, hadded]
  | removeWatch watch =>
    obtain rfl := Option.some.inj hstep
    exact iff_of_true (matches_removeWatch h watch) trivial
  | toggledWatch watch enabled =>
    obtain rfl := Option.some.inj hstep
    cases hadded : b.added watch with
    | none =>
      have hiff := matches_toggledWatch_unknown h hadded enabled
      rw [hadded] at hiff
      simpa [KeepsMasks, hadded] using hiff
    | some was =>
      have hiff := matches_toggledWatch_added h hadded enabled
      rw [hadded] at hiff
      simpa [KeepsMasks, hadded] using hiff

/-- In every run whose calls keep the masks, `fd_map` and the interest sets are what the
    watches of libdbus ask for. -/
theorem matches_of_keepsMasks {info : Info ω} {b : Book ω}
    (h : (system info).ReachableWhen (KeepsMasks info) b) : Matches info b := by
  have hinv : Inv info b := by
    apply h.invariant
    case initial =>
      rintro _ rfl
      refine ⟨⟨fun fd watch mask => ?_, fun fd entries hentries => ?_⟩,
        fun fd entries hentries => ?_⟩
      · simp [initial]
      · cases hentries
      · cases hentries
    case preserved =>
      intro b a b' hinv hkeeps hstep
      exact ⟨(matches_step_iff hinv hstep).mpr hkeeps, inOrder_step hinv.sorted hstep⟩
  exact hinv.books

/-- Watches at the addresses 1 and 2 for reading and for writing the same socket. -/
def socket : Info Nat where
  unixFd _ := 7
  flags watch := if watch = 1 then dbusWatchReadable else dbusWatchWritable

/-- The watch at the lower address is toggled. -/
def lowerRun : List (Label Nat) :=
  [.addWatch 1 true, .addWatch 2 false, .toggledWatch 1 false, .toggledWatch 1 true,
    .removeWatch 2]

theorem lowerRun_matches :
    ∃ b, (system socket).run initial lowerRun = some b ∧ Matches socket b ∧
      b.conn.epoll 7 = some epollIn := by
  have hrun : (system socket).run initial lowerRun = some _ := rfl
  refine ⟨_, hrun, matches_of_keepsMasks ?_, rfl⟩
  refine TransitionSystem.reachableWhen_of_run lowerRun rfl ?_ hrun
  refine ⟨?_, ?_, ?_, ?_, trivial, trivial⟩
  · rintro was ⟨⟩
  · rintro was ⟨⟩
  · -- No watch has a lower address.
    rintro entries ⟨⟩
    exact ⟨by decide, fun _ => by decide⟩
  · rintro entries ⟨⟩
    exact ⟨by decide, fun _ => by decide⟩

/-- The watch for writing is switched on and off while the one for reading is on. -/
def pollutedRun : List (Label Nat) :=
  [.addWatch 1 true, .addWatch 2 false, .toggledWatch 2 true, .toggledWatch 2 false]

/-- The watch that is disabled has the mask of the other one. -/
theorem pollutedRun_not_matches :
    ∃ b, (system socket).Reachable b ∧ b.added 2 = some false ∧
      b.conn.fdMap 7 = some [(1, epollIn), (2, epollIn)] ∧ ¬ Matches socket b := by
  have hrun : (system socket).run initial pollutedRun = some _ := rfl
  refine ⟨_, TransitionSystem.reachable_of_run _ rfl hrun, rfl, rfl, fun h => ?_⟩
  obtain ⟨-, enabled, hadded, hmask⟩ := (h.entries 7 2 epollIn).mp ⟨_, rfl, by decide⟩
  obtain rfl := Option.some.inj hadded
  exact absurd hmask (by decide)

end Ultrabus.Watches
