import Mathlib.Data.List.Nodup
import Mathlib.Data.List.Sublists

/-! # Match rules of a message bus

A client asks a D-Bus message bus for messages by the text of a match rule: pairs of a key and
a value with commas between them.  A message matches a rule if it meets every pair of it, so
that a key that is left out is a wildcard.

`read` is the language as the D-Bus specification describes it, quotes and escaped apostrophes
included; the keys `path_namespace`, `arg0namespace` and `eavesdrop` are not read.  `write`
puts every value in quotes, and `read_write` says that nothing is lost on the way as long as
there is no apostrophe in a value. -/

namespace MatchRule

/-! ## Pairs of keys and values -/

abbrev Text := List UInt8

/-- The bytes of an ASCII text. -/
def ascii (s : String) : Text := s.toList.map Char.toUInt8

abbrev apostrophe : UInt8 := 0x27
abbrev comma : UInt8 := 0x2C
abbrev equals : UInt8 := 0x3D
abbrev backslash : UInt8 := 0x5C

/-- Where in a pair the reader is.  `escaped` is true behind a backslash that is not in
    quotes. -/
inductive Place where
  | key (key : Text)
  | value (key value : Text) (quoted escaped : Bool)

/-- The pairs from a place on; none if the text ends inside a key or inside quotes. -/
def readPairs : Place → Text → Option (List (Text × Text))
  | .key key, [] => if key = [] then some [] else none
  | .key key, b :: rest =>
    if b = equals then readPairs (.value key [] false false) rest
    else readPairs (.key (key ++ [b])) rest
  | .value key value quoted _, [] => if quoted then none else some [(key, value)]
  | .value key value quoted escaped, b :: rest =>
    if b = apostrophe then
      -- An escaped apostrophe takes the place of the backslash in front of it.
      if escaped then readPairs (.value key (value.dropLast ++ [b]) false false) rest
      else readPairs (.value key value (!quoted) false) rest
    else if quoted then readPairs (.value key (value ++ [b]) true false) rest
    else if b = comma then (readPairs (.key []) rest).map ((key, value) :: ·)
    else readPairs (.value key (value ++ [b]) false (b = backslash)) rest

/-- A pair with its value in quotes. -/
def writePair (pair : Text × Text) : Text :=
  pair.1 ++ [equals, apostrophe] ++ pair.2 ++ [apostrophe]

def writePairs : List (Text × Text) → Text
  | [] => []
  | [pair] => writePair pair
  | pair :: next :: rest => writePair pair ++ [comma] ++ writePairs (next :: rest)

theorem readPairs_key {key : Text} (hkey : equals ∉ key) (start rest : Text) :
    readPairs (.key start) (key ++ equals :: rest) =
      readPairs (.value (start ++ key) [] false false) rest := by
  induction key generalizing start with
  | nil => simp [readPairs]
  | cons b key ih =>
    obtain ⟨hb, hkey⟩ := not_or.mp (List.mem_cons.not.mp hkey)
    simp only [List.cons_append, readPairs, if_neg (Ne.symm hb), ih hkey, List.append_assoc,
      List.nil_append]

theorem readPairs_quoted {value : Text} (hvalue : apostrophe ∉ value) (key start rest : Text) :
    readPairs (.value key start true false) (value ++ apostrophe :: rest) =
      readPairs (.value key (start ++ value) false false) rest := by
  induction value generalizing start with
  | nil => simp [readPairs]
  | cons b value ih =>
    obtain ⟨hb, hvalue⟩ := not_or.mp (List.mem_cons.not.mp hvalue)
    simp only [List.cons_append, readPairs, if_neg (Ne.symm hb), if_true, ih hvalue,
      List.append_assoc, List.nil_append]

theorem readPairs_writePair {pair : Text × Text} (hkey : equals ∉ pair.1)
    (hvalue : apostrophe ∉ pair.2) (rest : Text) :
    readPairs (.key []) (writePair pair ++ rest) =
      readPairs (.value pair.1 pair.2 false false) rest := by
  have hopen : readPairs (.value pair.1 [] false false)
      (apostrophe :: (pair.2 ++ apostrophe :: rest)) =
      readPairs (.value pair.1 [] true false) (pair.2 ++ apostrophe :: rest) := by
    simp [readPairs]
  simp only [writePair, List.append_assoc, List.cons_append, List.nil_append]
  rw [readPairs_key hkey, List.nil_append, hopen, readPairs_quoted hvalue, List.nil_append]

/-- What is written is read. -/
theorem readPairs_writePairs {pairs : List (Text × Text)}
    (h : ∀ pair ∈ pairs, equals ∉ pair.1 ∧ apostrophe ∉ pair.2) :
    readPairs (.key []) (writePairs pairs) = some pairs := by
  induction pairs with
  | nil => rfl
  | cons pair pairs ih =>
    obtain ⟨hpair, hpairs⟩ := List.forall_mem_cons.mp h
    cases pairs with
    | nil =>
      have hread := readPairs_writePair hpair.1 hpair.2 []
      rw [List.append_nil] at hread
      rw [writePairs, hread]
      rfl
    | cons next pairs =>
      have hcomma : readPairs (.value pair.1 pair.2 false false)
          (comma :: writePairs (next :: pairs)) =
            (readPairs (.key []) (writePairs (next :: pairs))).map (pair :: ·) := by
        have hne : comma ≠ apostrophe := by decide
        simp [readPairs, hne]
      rw [writePairs, List.append_assoc, readPairs_writePair hpair.1 hpair.2, List.cons_append,
        List.nil_append, hcomma, ih hpairs]
      rfl

/-- What is written comes from the pairs or stands between them. -/
theorem mem_writePairs {b : UInt8} {pairs : List (Text × Text)} (h : b ∈ writePairs pairs) :
    b ∈ [equals, apostrophe, comma] ∨ ∃ pair ∈ pairs, b ∈ pair.1 ∨ b ∈ pair.2 := by
  have hpair : ∀ {pair : Text × Text}, b ∈ writePair pair →
      b ∈ [equals, apostrophe, comma] ∨ b ∈ pair.1 ∨ b ∈ pair.2 := by
    intro pair hb
    simp only [writePair, List.mem_append, List.mem_cons, List.not_mem_nil, or_false] at hb ⊢
    tauto
  induction pairs with
  | nil => cases h
  | cons pair pairs ih =>
    have hhead : b ∈ writePair pair →
        b ∈ [equals, apostrophe, comma] ∨ ∃ p ∈ pair :: pairs, b ∈ p.1 ∨ b ∈ p.2 :=
      fun hb => (hpair hb).imp_right fun hb => ⟨pair, List.mem_cons_self, hb⟩
    cases pairs with
    | nil => exact hhead h
    | cons next pairs =>
      simp only [writePairs, List.mem_append, List.mem_singleton] at h
      obtain (hb | hb) | hb := h
      · exact hhead hb
      · exact .inl (by simp [hb])
      · refine (ih hb).imp_right ?_
        rintro ⟨p, hp, hb⟩
        exact ⟨p, List.mem_cons_of_mem _ hp, hb⟩

/-! ## Messages and constraints -/

inductive Arg where
  | string (value : Text)
  | objectPath (value : Text)
  | other

/-- A message as the bus sees it; a header field that is absent is empty. -/
structure Message where
  type : Text
  sender : Text
  path : Text
  interface : Text
  member : Text
  destination : Text
  arg : Nat → Option Arg

inductive Constraint where
  | type (kind : Text)
  | sender (name : Text)
  | interface (name : Text)
  | member (name : Text)
  | path (opath : Text)
  | destination (name : Text)
  | arg (n : Fin 64) (value : Text)
  | argPath (n : Fin 64) (opath : Text)
deriving DecidableEq

/-- `arg0` to `arg63`. -/
def argKey (n : Fin 64) : Text :=
  let digit (d : Nat) : UInt8 := .ofNat (48 + d)
  ascii "arg" ++ if n.val < 10 then [digit n] else [digit (n / 10), digit (n % 10)]

def argPathKey (n : Fin 64) : Text := argKey n ++ ascii "path"

namespace Constraint

def toPair : Constraint → Text × Text
  | .type kind => (ascii "type", kind)
  | .sender name => (ascii "sender", name)
  | .interface name => (ascii "interface", name)
  | .member name => (ascii "member", name)
  | .path opath => (ascii "path", opath)
  | .destination name => (ascii "destination", name)
  | .arg n value => (argKey n, value)
  | .argPath n opath => (argPathKey n, opath)

/-- The constraint of a key that counts arguments. -/
def ofArgPair? (pair : Text × Text) : Option Constraint :=
  match (List.finRange 64).find? (argKey · = pair.1) with
  | some n => some (.arg n pair.2)
  | none =>
    match (List.finRange 64).find? (argPathKey · = pair.1) with
    | some n => some (.argPath n pair.2)
    | none => none

def ofPair? (pair : Text × Text) : Option Constraint :=
  if pair.1 = ascii "type" then some (.type pair.2)
  else if pair.1 = ascii "sender" then some (.sender pair.2)
  else if pair.1 = ascii "interface" then some (.interface pair.2)
  else if pair.1 = ascii "member" then some (.member pair.2)
  else if pair.1 = ascii "path" then some (.path pair.2)
  else if pair.1 = ascii "destination" then some (.destination pair.2)
  else ofArgPair? pair

end Constraint

/-- The argument is the path, or one of both ends with a slash and the other lies below it. -/
def pathMatches (path arg : Text) : Bool :=
  arg = path || (path.getLast? = some '/'.toUInt8 && path.isPrefixOf arg) ||
    (arg.getLast? = some '/'.toUInt8 && arg.isPrefixOf path)

/-- `owner` gives the unique name behind a well-known one: both name the sender. -/
def Constraint.matches (owner : Text → Option Text) (m : Message) : Constraint → Bool
  | .type kind => m.type = kind
  | .sender name => m.sender = name || owner name = some m.sender
  | .interface name => m.interface = name
  | .member name => m.member = name
  | .path opath => m.path = opath
  | .destination name => m.destination = name
  | .arg n value =>
    match m.arg n with
    | some (.string text) => text = value
    | _ => false
  | .argPath n opath =>
    match m.arg n with
    | some (.string value) | some (.objectPath value) => pathMatches opath value
    | _ => false

section Matches

variable {owner : Text → Option Text} {m : Message} {value : Text}

@[simp] theorem matches_type_iff :
    (Constraint.type value).matches owner m = true ↔ m.type = value := by
  rw [Constraint.matches, decide_eq_true_eq]

@[simp] theorem matches_sender_iff : (Constraint.sender value).matches owner m = true ↔
    m.sender = value ∨ owner value = some m.sender := by
  rw [Constraint.matches, Bool.or_eq_true, decide_eq_true_eq, decide_eq_true_eq]

@[simp] theorem matches_interface_iff :
    (Constraint.interface value).matches owner m = true ↔ m.interface = value := by
  rw [Constraint.matches, decide_eq_true_eq]

@[simp] theorem matches_member_iff :
    (Constraint.member value).matches owner m = true ↔ m.member = value := by
  rw [Constraint.matches, decide_eq_true_eq]

@[simp] theorem matches_path_iff :
    (Constraint.path value).matches owner m = true ↔ m.path = value := by
  rw [Constraint.matches, decide_eq_true_eq]

/-- A path that is the argument itself. -/
theorem matches_argPath_self {n : Fin 64} (h : m.arg n = some (.objectPath value)) :
    (Constraint.argPath n value).matches owner m = true := by
  simp [Constraint.matches, h, pathMatches]

end Matches

/-- Keys are made of lower case letters and digits. -/
theorem Constraint.mem_key (c : Constraint) :
    ∀ b ∈ c.toPair.1, b ∈ ascii "abcdefghijklmnopqrstuvwxyz0123456789" := by
  have hname : ∀ key ∈ [ascii "type", ascii "sender", ascii "interface", ascii "member",
      ascii "path", ascii "destination"],
      ∀ b ∈ key, b ∈ ascii "abcdefghijklmnopqrstuvwxyz0123456789" := by
    decide +kernel
  cases c with
  | arg n value =>
    have hkey : ∀ n, ∀ b ∈ argKey n, b ∈ ascii "abcdefghijklmnopqrstuvwxyz0123456789" := by
      decide +kernel
    exact hkey n
  | argPath n opath =>
    have hkey : ∀ n, ∀ b ∈ argPathKey n, b ∈ ascii "abcdefghijklmnopqrstuvwxyz0123456789" := by
      decide +kernel
    exact hkey n
  | _ => exact hname _ (by simp [toPair])

theorem Constraint.ofPair?_of_notMem {pair : Text × Text}
    (h : pair.1 ∉ [ascii "type", ascii "sender", ascii "interface", ascii "member", ascii "path",
      ascii "destination"]) : ofPair? pair = ofArgPair? pair := by
  simp only [List.mem_cons, List.not_mem_nil, or_false, not_or] at h
  obtain ⟨htype, hsender, hinterface, hmember, hpath, hdestination⟩ := h
  rw [ofPair?, if_neg htype, if_neg hsender, if_neg hinterface, if_neg hmember, if_neg hpath,
    if_neg hdestination]

theorem Constraint.ofPair?_toPair (c : Constraint) : ofPair? c.toPair = some c := by
  cases c with
  | arg n value =>
    have hkey : ∀ n, argKey n ∉ [ascii "type", ascii "sender", ascii "interface",
        ascii "member", ascii "path", ascii "destination"] := by decide +kernel
    have hfind : ∀ n, (List.finRange 64).find? (argKey · = argKey n) = some n := by
      decide +kernel
    rw [ofPair?_of_notMem (hkey n), ofArgPair?, toPair, hfind]
  | argPath n opath =>
    have hkey : ∀ n, argPathKey n ∉ [ascii "type", ascii "sender", ascii "interface",
        ascii "member", ascii "path", ascii "destination"] := by decide +kernel
    have hnone : ∀ n, (List.finRange 64).find? (argKey · = argPathKey n) = none := by
      decide +kernel
    have hfind : ∀ n, (List.finRange 64).find? (argPathKey · = argPathKey n) = some n := by
      decide +kernel
    rw [ofPair?_of_notMem (hkey n), ofArgPair?, toPair, hnone]
    dsimp only
    rw [hfind]
  | _ => rfl

/-! ## Rules -/

abbrev Rule := List Constraint

/-- The rule of a text; no key may come twice. -/
def read (rule : Text) : Option Rule :=
  match readPairs (.key []) rule with
  | some pairs => if (pairs.map Prod.fst).Nodup then pairs.mapM Constraint.ofPair? else none
  | none => none

def write (rule : Rule) : Text := writePairs (rule.map Constraint.toPair)

def Rule.matches (owner : Text → Option Text) (rule : Rule) (m : Message) : Bool :=
  rule.all (·.matches owner m)

theorem Rule.matches_iff {owner : Text → Option Text} {rule : Rule} {m : Message} :
    rule.matches owner m = true ↔ ∀ c ∈ rule, c.matches owner m = true :=
  List.all_eq_true

/-- A rule that is written is read again. -/
theorem read_write {rule : Rule} (hkeys : (rule.map fun c => c.toPair.1).Nodup)
    (hvalues : ∀ c ∈ rule, apostrophe ∉ c.toPair.2) : read (write rule) = some rule := by
  have hpairs : readPairs (.key []) (writePairs (rule.map Constraint.toPair)) =
      some (rule.map Constraint.toPair) := by
    refine readPairs_writePairs fun pair hpair => ?_
    obtain ⟨c, hc, rfl⟩ := List.mem_map.mp hpair
    exact ⟨fun hequals => absurd (c.mem_key _ hequals) (by decide), hvalues c hc⟩
  have hread : (rule.map Constraint.toPair).mapM Constraint.ofPair? = some rule := by
    have hall : Constraint.ofPair? ∘ Constraint.toPair = fun c => pure (id c) :=
      funext fun c => c.ofPair?_toPair
    rw [List.mapM_map, hall, List.mapM_pure, List.map_id]
    rfl
  have hkeys : ((rule.map Constraint.toPair).map Prod.fst).Nodup := by
    rw [List.map_map]
    exact hkeys
  rw [read, write, hpairs]
  exact (if_pos hkeys).trans hread

/-- A byte that is in no value and not used by the language is not in the text. -/
theorem notMem_write {b : UInt8} {rule : Rule}
    (hb : b ∉ [equals, apostrophe, comma] ++ ascii "abcdefghijklmnopqrstuvwxyz0123456789")
    (hvalues : ∀ c ∈ rule, b ∉ c.toPair.2) : b ∉ write rule := by
  rw [List.mem_append, not_or] at hb
  intro hmem
  obtain hsyntax | ⟨pair, hpair, hmem⟩ := mem_writePairs hmem
  · exact hb.1 hsyntax
  · obtain ⟨c, hc, rfl⟩ := List.mem_map.mp hpair
    exact hmem.elim (fun hkey => hb.2 (c.mem_key b hkey)) (hvalues c hc)

end MatchRule
