import Ultrabus.Message.Descriptors

/-! # Reading arguments into D-Bus values

What `get_args_strict` and `get_args` do on variables of the classes derived from
`dbus_type`: the first reads a prefix of the arguments with exactly the signatures of the
variables, the second takes arrays and dicts of any element and value type, but not structs of
any attributes. -/

namespace Ultrabus

open Exec (Settles)
open List (Forall₂)

/-- An array of dict entries, which has the signature of a dict. -/
def DbusType.isEntryArray : DbusType → Bool
  | .array sig _ => sig[1]? = some dbusDictEntryBeginChar
  | _ => false

/-- Where the match is strict only an array of dict entries clashes with an argument. -/
theorem not_clashes_of_strict {args : List Target}
    (h : ∀ arg : DbusType, .dbus arg ∈ args → arg.isEntryArray = false) (body : List Wire) :
    ¬ Clashes true args body := by
  intro hclashes
  induction hclashes with
  | @here arg args w ws hclash =>
    cases arg with
    | cpp arg => exact hclash
    | dbus arg =>
      cases arg with
      | array sig items =>
        obtain ⟨-, hdict, rfl⟩ := hclash
        have hentries := h _ List.mem_cons_self
        cases w with
        | array element elements =>
          have hhead : element.head? = some dbusDictEntryBeginChar := of_decide_eq_true hdict
          rw [List.head?_eq_getElem?] at hhead
          simp [DbusType.isEntryArray, Wire.signature, hhead] at hentries
        | _ => cases hdict
      | dict key sig items => cases hclash.1
      | basic _ | struct _ _ | variant _ => exact hclash
  | later _ _ _ ih => exact ih fun arg harg => h arg (List.mem_cons_of_mem _ harg)

/-! ## A variable with the signature of its argument -/

section Same

variable {w : Wire} {v arg : DbusType}

/-- The two are of one class. -/
theorem Reads.isArray_eq (h : Reads w v) (hfits : arg.ClassFits)
    (hentries : arg.isEntryArray = false) (hsig : arg.signature = w.signature) :
    arg.isArray = v.isArray := by
  have hfirst := hfits.firstCode_eq h.fits (hsig.trans h.signature.symm)
  cases harray : v.isArray with
  | true =>
    have hcode := v.firstCode_eq_array_iff.mpr (.inl harray)
    rw [← hfirst, DbusType.firstCode_eq_array_iff] at hcode
    refine hcode.resolve_right fun hdict => ?_
    -- A dict has the signature of an array of entries.
    rw [h.isArray] at harray
    cases arg with
    | dict key sig items =>
      obtain ⟨value, rfl⟩ := hfits
      cases w with
      | array element elements =>
        have hwire : dictSignature key value = dbusTypeArray :: element := hsig
        obtain rfl := (List.cons.inj hwire).2
        simp [Wire.isArray, dictEntrySignature] at harray
      | _ => cases harray
    | _ => cases hdict
  | false =>
    cases arg with
    | array sig items =>
      have hcode : v.firstCode = dbusTypeArray := hfirst.symm
      obtain hv | hv := v.firstCode_eq_array_iff.mp hcode
      · exact absurd (hv.symm.trans harray) (by decide)
      · rw [h.isDict] at hv
        cases w with
        | array element elements =>
          have hwire : sig = dbusTypeArray :: element := hsig
          subst hwire
          have hhead : element.head? = some dbusDictEntryBeginChar := of_decide_eq_true hv
          rw [List.head?_eq_getElem?] at hhead
          exact absurd hentries (by simp [DbusType.isEntryArray, hhead])
        | _ => cases hv
    | _ => rfl

theorem Reads.isDict_eq (h : Reads w v) (hfits : arg.ClassFits)
    (hentries : arg.isEntryArray = false) (hsig : arg.signature = w.signature) :
    arg.isDict = v.isDict := by
  have harray := h.isArray_eq hfits hentries hsig
  have hfirst := hfits.firstCode_eq h.fits (hsig.trans h.signature.symm)
  have harg := arg.firstCode_eq_array_iff
  have hv := v.firstCode_eq_array_iff
  rw [hfirst, harray] at harg
  have hiff := harg.symm.trans hv
  cases arg <;> cases v <;> simp_all [DbusType.isArray, DbusType.isDict]

/-- Both matches give the variable its argument. -/
theorem Reads.getArg_of_signature_eq (h : Reads w v) (hfits : arg.ClassFits)
    (hentries : arg.isEntryArray = false) (hsig : arg.signature = w.signature)
    (strictSignature : Bool) (rest : ReadIter) :
    Settles (fun fuel => getArg fuel strictSignature (w :: rest) (.dbus arg))
      (.ok (some (.dbus v))) := by
  have hsame : arg.signature = v.signature := hsig.trans h.signature.symm
  have harray := h.isArray_eq hfits hentries hsig
  have hdict := h.isDict_eq hfits hentries hsig
  have hassign := DbusType.moveAssign_of_signature_eq hfits h.fits hsame harray
  have haccepts : acceptsArg strictSignature arg v = true := by
    rw [acceptsArg, ← harray, ← hdict, hsame]
    cases strictSignature <;> cases arg.isArray <;> cases arg.isDict <;> simp
  refine h.decodes.mono fun fuel hdecode => ?_
  simp [getArg, hdecode, haccepts, hassign]

/-- The strict match refuses an argument of another signature. -/
theorem Reads.getArg_of_signature_ne (h : Reads w v) (hsig : arg.signature ≠ w.signature)
    (rest : ReadIter) :
    Settles (fun fuel => getArg fuel true (w :: rest) (.dbus arg)) (.ok none) := by
  have hrefuses : acceptsArg true arg v = false := h.acceptsArg_eq_false_iff.mpr hsig
  refine h.decodes.mono fun fuel hdecode => ?_
  simp [getArg, hdecode, hrefuses]

end Same

theorem getArg_nil (strictSignature : Bool) (arg : DbusType) :
    Settles (fun fuel => getArg fuel strictSignature [] (.dbus arg)) (.ok none) :=
  Exec.eventually_succ (.of_forall fun _ => rfl)

/-! ## The strict match -/

/-- Variables get the arguments in front of the first one that is missing or has another
    signature. -/
def readPrefix : List DbusType → List DbusType → Bool × List DbusType
  | _, [] => (true, [])
  | [], target :: targets => (false, target :: targets)
  | arg :: args, target :: targets =>
    if target.signature = arg.signature then
      ((readPrefix args targets).1, arg :: (readPrefix args targets).2)
    else (false, target :: targets)

/-- The position of the first variable whose argument is missing or has another signature. -/
structure FirstFailing (targets : List DbusType) (body : List Wire) (n : Nat) : Prop where
  lt : n < targets.length
  before : ∀ i, i < n → (targets.map DbusType.signature)[i]? = (body.map Wire.signature)[i]?
  failing : (targets.map DbusType.signature)[n]? ≠ (body.map Wire.signature)[n]?

theorem readPrefix_found_iff (args targets : List DbusType) :
    (readPrefix args targets).1 = true ↔
      targets.map DbusType.signature <+: args.map DbusType.signature := by
  induction targets generalizing args with
  | nil => simp [readPrefix]
  | cons target targets ih =>
    cases args with
    | nil => simp [readPrefix]
    | cons arg args =>
      rw [List.map_cons, List.map_cons, List.cons_prefix_cons, readPrefix]
      split
      case isTrue hsig => simp [hsig, ih]
      case isFalse hsig => simp [hsig]

theorem readPrefix_of_found {args targets : List DbusType}
    (h : (readPrefix args targets).1 = true) :
    (readPrefix args targets).2 = args.take targets.length := by
  induction targets generalizing args with
  | nil => simp [readPrefix]
  | cons target targets ih =>
    cases args with
    | nil => simp [readPrefix] at h
    | cons arg args =>
      rw [readPrefix] at h ⊢
      split at h
      case isTrue hsig => rw [if_pos hsig, List.length_cons, List.take_succ_cons, ih h]
      case isFalse => cases h

/-- The variables from the first failing one on stay as they are. -/
theorem readPrefix_of_notFound {args targets : List DbusType} {body : List Wire}
    (hbody : args.map DbusType.signature = body.map Wire.signature)
    (h : (readPrefix args targets).1 = false) :
    ∃ n, FirstFailing targets body n ∧
      (readPrefix args targets).2.drop n = targets.drop n := by
  induction targets generalizing args body with
  | nil => simp [readPrefix] at h
  | cons target targets ih =>
    cases args with
    | nil =>
      refine ⟨0, ⟨Nat.zero_lt_succ _, fun i hi => absurd hi (Nat.not_lt_zero i), ?_⟩, rfl⟩
      rw [← hbody]
      simp
    | cons arg args =>
      rw [readPrefix] at h ⊢
      split at h
      case isTrue hsig =>
        rw [if_pos hsig]
        cases body with
        | nil => cases hbody
        | cons w ws =>
          obtain ⟨hhead, htail⟩ := List.cons.inj hbody
          obtain ⟨n, hn, hdrop⟩ := ih htail h
          refine ⟨n + 1, ⟨Nat.succ_lt_succ hn.lt, ?_, by simpa using hn.failing⟩, hdrop⟩
          intro i hi
          cases i with
          | zero => simp [hsig, hhead]
          | succ i => simpa using hn.before i (Nat.lt_of_succ_lt_succ hi)
      case isFalse hsig =>
        rw [if_neg hsig]
        refine ⟨0, ⟨Nat.zero_lt_succ _, fun i hi => absurd hi (Nat.not_lt_zero i), ?_⟩, rfl⟩
        rw [← hbody]
        simpa using hsig

/-- The strict match reads the prefix. -/
theorem getArgsImpl_strict {body : List Wire} {args : List DbusType}
    (hargs : Forall₂ Reads body args) {targets : List DbusType}
    (hfits : ∀ t ∈ targets, t.ClassFits) (hentries : ∀ t ∈ targets, t.isEntryArray = false) :
    Settles (fun fuel => getArgsImpl fuel true body (targets.map .dbus))
      (.ok ((readPrefix args targets).1, (readPrefix args targets).2.map .dbus)) := by
  induction targets generalizing body args with
  | nil => simpa [readPrefix] using getArgsImpl_nil true body
  | cons target targets ih =>
    rw [List.forall_mem_cons] at hfits hentries
    cases hargs with
    | nil =>
      refine (getArg_nil true target).mono fun fuel hget => ?_
      simp [getArgsImpl, hget, readPrefix]
    | @cons w v ws vs hw hrest =>
      rw [readPrefix]
      split
      case isTrue hsig =>
        have hhead := hw.getArg_of_signature_eq hfits.1 hentries.1 (hsig.trans hw.signature) true ws
        exact getArgsImpl_cons hhead (ih hrest hfits.2 hentries.2)
      case isFalse hsig =>
        have hhead := hw.getArg_of_signature_ne (fun heq => hsig (heq.trans hw.signature.symm)) ws
        refine hhead.mono fun fuel hget => ?_
        simp [getArgsImpl, hget]

/-- Where the strict match succeeds, the other one does the same. -/
theorem getArgsImpl_relaxed {body : List Wire} {args : List DbusType}
    (hargs : Forall₂ Reads body args) {targets : List DbusType}
    (hfits : ∀ t ∈ targets, t.ClassFits) (hentries : ∀ t ∈ targets, t.isEntryArray = false)
    (hfound : (readPrefix args targets).1 = true) :
    Settles (fun fuel => getArgsImpl fuel false body (targets.map .dbus))
      (.ok (true, (readPrefix args targets).2.map .dbus)) := by
  induction targets generalizing body args with
  | nil => simpa [readPrefix] using getArgsImpl_nil false body
  | cons target targets ih =>
    rw [List.forall_mem_cons] at hfits hentries
    cases hargs with
    | nil => cases hfound
    | @cons w v ws vs hw hrest =>
      rw [readPrefix] at hfound ⊢
      split at hfound
      case isTrue hsig =>
        rw [if_pos hsig]
        have hhead :=
          hw.getArg_of_signature_eq hfits.1 hentries.1 (hsig.trans hw.signature) false ws
        exact getArgsImpl_cons hhead (ih hrest hfits.2 hentries.2 hfound)
      case isFalse => cases hfound

theorem signatures_of_reads {body : List Wire} {args : List DbusType}
    (h : Forall₂ Reads body args) :
    args.map DbusType.signature = body.map Wire.signature := by
  induction h with
  | nil => rfl
  | cons hw _ ih => rw [List.map_cons, List.map_cons, hw.signature, ih]

/-- A message without arguments is not read at all. -/
theorem Message.getArgs_settles (m : Message) {strictSignature : Bool} {arg : Target}
    {args : List Target} {outcome : Exec Exception (Bool × List Target)}
    (h : Settles (fun fuel => getArgsImpl fuel strictSignature m.body (arg :: args)) outcome)
    (hempty : m.body = [] → outcome = .ok (false, arg :: args)) :
    Settles (fun fuel => m.getArgs fuel strictSignature arg args) outcome := by
  cases hbody : m.body with
  | nil =>
    rw [hempty hbody]
    exact .of_forall fun fuel => by simp [Message.getArgs, hbody]
  | cons w ws =>
    refine h.mono fun fuel hfuel => ?_
    simpa [Message.getArgs, hbody] using hfuel

theorem Message.getArgs_strict (m : Message) {args : List DbusType}
    (hargs : Forall₂ Reads m.body args) {target : DbusType} {targets : List DbusType}
    (hfits : ∀ t ∈ target :: targets, t.ClassFits)
    (hentries : ∀ t ∈ target :: targets, t.isEntryArray = false) :
    Settles (fun fuel => m.getArgs fuel true (.dbus target) (targets.map .dbus))
      (.ok ((readPrefix args (target :: targets)).1,
        (readPrefix args (target :: targets)).2.map .dbus)) := by
  refine m.getArgs_settles (getArgsImpl_strict hargs hfits hentries) fun hbody => ?_
  rw [hbody] at hargs
  cases hargs
  rfl

/-- What `arguments`, `get_args_strict` and `get_args` give, each of which reads the message anew;
    `Same` tells which values count as the same. -/
def Message.ReadsStrictly (Same : List DbusType → List DbusType → Prop)
    (m first second third : Message) (target : DbusType) (targets : List DbusType) : Prop :=
  ∃ args found after,
    Settles (fun fuel => first.arguments fuel 0) (.ok args) ∧
    Settles (fun fuel => second.getArgs fuel true (.dbus target) (targets.map .dbus))
      (.ok (found, after.map .dbus)) ∧
    (found = true ↔ (target :: targets).map DbusType.signature <+: m.body.map Wire.signature) ∧
    (found = true → Same (args.take (target :: targets).length) after ∧ ∃ after',
      Settles (fun fuel => third.getArgs fuel false (.dbus target) (targets.map .dbus))
        (.ok (true, after'.map .dbus)) ∧ Same after after') ∧
    (found = false → ∃ n, FirstFailing (target :: targets) m.body n ∧
      after.drop n = (target :: targets).drop n)

section Readings

variable {m first second third : Message}

/-- The strict match on one reading and the other match on another, by their decoded arguments. -/
theorem Message.readsStrictly_of_same (hfirst : m.ReadAs first) (hsecond : m.ReadAs second)
    (hthird : m.ReadAs third) (hvalid : ∀ w ∈ m.body, w.Valid) {target : DbusType}
    {targets : List DbusType} (hfits : ∀ t ∈ target :: targets, t.ClassFits)
    (hentries : ∀ t ∈ target :: targets, t.isEntryArray = false)
    (Same : List DbusType → List DbusType → Prop)
    (hsame : ∀ {read read' : Message}, m.ReadAs read → m.ReadAs read' → ∀ {args args'},
      Forall₂ Reads read.body args → Forall₂ Reads read'.body args' →
      ∀ n, Same (args.take n) (args'.take n)) :
    ReadsStrictly Same m first second third target targets := by
  obtain ⟨args₁, hargs₁⟩ := exists_forall₂ fun w hw => (hfirst.valid hvalid w hw).exists_reads
  obtain ⟨args₂, hargs₂⟩ := exists_forall₂ fun w hw => (hsecond.valid hvalid w hw).exists_reads
  obtain ⟨args₃, hargs₃⟩ := exists_forall₂ fun w hw => (hthird.valid hvalid w hw).exists_reads
  have hsig₂ := (signatures_of_reads hargs₂).trans (hsecond.signatures hvalid)
  have hsig₃ := (signatures_of_reads hargs₃).trans (hthird.signatures hvalid)
  have hdecoded := arguments_settles (hargs₁.imp fun _ _ h => h.decodes) 0
  have hiff := readPrefix_found_iff args₂ (target :: targets)
  refine ⟨args₁, _, _, by simpa using hdecoded, second.getArgs_strict hargs₂ hfits hentries, ?_,
    fun hfound => ?_, readPrefix_of_notFound hsig₂⟩
  · rw [hiff, hsig₂]
  · have hfound' : (readPrefix args₃ (target :: targets)).1 = true := by
      rw [readPrefix_found_iff, hsig₃, ← hsig₂, ← hiff]
      exact hfound
    rw [readPrefix_of_found hfound]
    refine ⟨hsame hfirst hsecond hargs₁ hargs₂ _, args₃.take (target :: targets).length, ?_,
      hsame hsecond hthird hargs₂ hargs₃ _⟩
    have hrelaxed := getArgsImpl_relaxed hargs₃ hfits hentries hfound'
    rw [readPrefix_of_found hfound'] at hrelaxed
    refine third.getArgs_settles hrelaxed fun hbody => ?_
    rw [hbody] at hargs₃
    cases hargs₃
    cases hfound'

/-- For every well-formed message and any variables in states that objects of their classes
    have, none of them an array of dict entries, the strict match succeeds exactly on a prefix
    of the arguments, and the other match does then the same, up to the descriptors. -/
theorem Message.readsStrictly (hfirst : m.ReadAs first) (hsecond : m.ReadAs second)
    (hthird : m.ReadAs third) (hvalid : ∀ w ∈ m.body, w.Valid) (target : DbusType)
    (targets : List DbusType) (hfits : ∀ t ∈ target :: targets, t.ClassFits)
    (hentries : ∀ t ∈ target :: targets, t.isEntryArray = false) :
    ReadsStrictly (Forall₂ SameButFds) m first second third target targets ∧
      (Wire.haveFd m.body = false →
        ReadsStrictly (· = ·) m first second third target targets) := by
  refine ⟨readsStrictly_of_same hfirst hsecond hthird hvalid hfits hentries _ ?_, fun hfds =>
    readsStrictly_of_same hfirst hsecond hthird hvalid hfits hentries _ ?_⟩
  · intro read read' hread hread' args args' hargs hargs' n
    exact List.forall₂_take n (hread.same hread' hvalid (hargs.imp fun _ _ h => h.decodes)
      (hargs'.imp fun _ _ h => h.decodes))
  · intro read read' hread hread' args args' hargs hargs' n
    rw [hread.body_eq hfds] at hargs
    rw [hread'.body_eq hfds] at hargs'
    rw [unique_of_decodes (hargs.imp fun _ _ h => h.decodes) (hargs'.imp fun _ _ h => h.decodes)]

end Readings

/-- A struct with a string and a descriptor, and a byte. -/
def structAndByteMessage (fd : Int32) : Message where
  ctx := some {
    type := 1
    body := [.struct [.basic (.string (text "a")), .basic (.unixFd fd)], .basic (.byte 1)] }

theorem structAndByteMessage_valid : ∀ w ∈ (structAndByteMessage 3).body, w.Valid := by
  intro w hw
  simp only [structAndByteMessage, Message.body, List.mem_cons, List.not_mem_nil, or_false] at hw
  obtain rfl | rfl := hw
  · refine .struct (by decide) fun w hw => ?_
    simp only [List.mem_cons, List.not_mem_nil, or_false] at hw
    obtain rfl | rfl := hw
    · exact .basic rfl
    · exact .basic trivial
  · exact .basic trivial

theorem structAndByteMessage_readAs (fd : Int32) :
    (structAndByteMessage 3).ReadAs (structAndByteMessage fd) :=
  ⟨rfl, .cons (.struct (.cons (.basic _) (.cons (.unixFd 3 fd) .nil))) (.cons (.basic _) .nil)⟩

/-- A struct variable and a boolean, which fails. -/
theorem structAndByteMessage_readsStrictly :
    Message.ReadsStrictly (Forall₂ SameButFds) (structAndByteMessage 3) (structAndByteMessage 4)
      (structAndByteMessage 5) (structAndByteMessage 6)
      (.struct (text "(sh)") [.basic (.string []), .basic (.unixFd (-1))])
      [.basic (.boolean true)] := by
  refine (Message.readsStrictly (structAndByteMessage_readAs 4) (structAndByteMessage_readAs 5)
    (structAndByteMessage_readAs 6) structAndByteMessage_valid _ _ ?_ ?_).1
  · intro t ht
    simp only [List.mem_cons, List.not_mem_nil, or_false] at ht
    obtain rfl | rfl := ht
    · exact rfl
    · exact trivial
  · intro t ht
    simp only [List.mem_cons, List.not_mem_nil, or_false] at ht
    obtain rfl | rfl := ht <;> rfl

/-- A descriptor. -/
def descriptorMessage (fd : Int32) : Message where
  ctx := some {
    type := 1
    body := [.basic (.unixFd fd)] }

/-- Each of the three calls gets a number of its own. -/
theorem descriptorMessage_not_readsStrictly :
    (∀ w ∈ (descriptorMessage 3).body, w.Valid) ∧
      (descriptorMessage 3).ReadAs (descriptorMessage 4) ∧
      (descriptorMessage 3).ReadAs (descriptorMessage 5) ∧
      (descriptorMessage 3).ReadAs (descriptorMessage 6) ∧
      (DbusType.basic (.unixFd (-1))).ClassFits ∧
      (DbusType.basic (.unixFd (-1))).isEntryArray = false ∧
      ¬ Message.ReadsStrictly (· = ·) (descriptorMessage 3) (descriptorMessage 4)
        (descriptorMessage 5) (descriptorMessage 6) (.basic (.unixFd (-1))) [] := by
  have hreads : ∀ fd, (descriptorMessage 3).ReadAs (descriptorMessage fd) := fun fd =>
    ⟨rfl, .cons (.unixFd 3 fd) .nil⟩
  refine ⟨fun w hw => ?_, hreads 4, hreads 5, hreads 6, trivial, rfl, ?_⟩
  · obtain rfl := List.mem_singleton.mp hw
    exact .basic trivial
  rintro ⟨args, found, after, hargs, hstrict, -, hfound, -⟩
  have hargs' := @arguments_settles (descriptorMessage 4) _ (.cons (.basic trivial) .nil) 0
  have hfits : ∀ t ∈ [DbusType.basic (.unixFd (-1))], t.ClassFits := fun t ht => by
    obtain rfl := List.mem_singleton.mp ht
    exact trivial
  have hentries : ∀ t ∈ [DbusType.basic (.unixFd (-1))], t.isEntryArray = false := fun t ht => by
    obtain rfl := List.mem_singleton.mp ht
    rfl
  have hstrict' := Message.getArgs_strict (descriptorMessage 5)
    (.cons (@Reads.basic (.unixFd 5) trivial) .nil) hfits hentries
  obtain rfl := Exec.ok.inj (hargs.unique hargs')
  obtain ⟨rfl, hafter⟩ := Prod.mk.inj (Exec.ok.inj (hstrict.unique hstrict'))
  -- What `get_args_strict` gives is 5, and not the 4 that `arguments` has given.
  rw [← (hfound rfl).1] at hafter
  cases hafter

/-! ## Containers of any type -/

def Wire.isStruct : Wire → Bool
  | .struct _ => true
  | _ => false

/-- The argument is an array, a struct or a dict, and the variable one of the same kind; a dict
    of the same class. -/
def SameKind : DbusType → Wire → Prop
  | .array _ _, w => w.isArray = true
  | .struct _ _, w => w.isStruct = true
  | .dict key _ _, w => w.isDict = true ∧ w.keyCode? = some key.code
  | _, _ => False

/-- `get_args` gives the variable the argument, with its signature. -/
def TakesContainer (arg : DbusType) (w : Wire) (rest : ReadIter) : Prop :=
  ∃ v, Decodes w v ∧ v.signature = w.signature ∧
    Settles (fun fuel => getArg fuel false (w :: rest) (.dbus arg)) (.ok (some (.dbus v)))

/-- A struct variable with attributes of other types than those of the argument. -/
def StructMismatch : DbusType → Wire → Prop
  | .struct sig _, w => sig ≠ w.signature
  | _, _ => False

theorem Reads.exists_struct {w : Wire} {v : DbusType} (h : Reads w v)
    (hstruct : w.isStruct = true) : ∃ sig items, v = .struct sig items := by
  have harray : dbusTypeArray ≠ dbusStructBeginChar := by decide
  have hvariant : dbusTypeVariant ≠ dbusStructBeginChar := by decide
  have hfirst : v.firstCode = dbusStructBeginChar := by
    have hhead := h.fits.head_signature
    rw [h.signature] at hhead
    cases w with
    | struct fields => exact (Option.some.inj hhead).symm
    | _ => cases hstruct
  cases v with
  | struct sig items => exact ⟨sig, items, rfl⟩
  | basic value => exact absurd hfirst value.type.code_ne_structBegin
  | array sig items => exact absurd hfirst harray
  | dict key sig items => exact absurd hfirst harray
  | variant value => exact absurd hfirst hvariant

/-- A struct is refused where the signatures differ. -/
theorem StructMismatch.not_takesContainer {arg : DbusType} {w : Wire} (hvalid : w.Valid)
    (h : StructMismatch arg w) (rest : ReadIter) : ¬ TakesContainer arg w rest := by
  obtain ⟨v, hv⟩ := hvalid.exists_reads
  rintro ⟨v', -, -, htaken⟩
  cases arg with
  | struct sig items =>
    have hrefuses : acceptsArg false (.struct sig items) v = false :=
      hv.acceptsArg_eq_false_iff.mpr h
    have hrefused : Settles (fun fuel => getArg fuel false (w :: rest)
        (.dbus (.struct sig items))) (.ok none) :=
      hv.decodes.mono fun fuel hdecode => by simp [getArg, hdecode, hrefuses]
    cases htaken.unique hrefused
  | _ => cases h

/-- For every well-formed container ahead and every variable of the same kind, `get_args` takes
    the argument exactly when the two are not structs with different signatures. -/
theorem takesContainer_iff (arg : DbusType) (w : Wire) (rest : ReadIter) (hvalid : w.Valid)
    (hkind : SameKind arg w) : TakesContainer arg w rest ↔ ¬ StructMismatch arg w := by
  constructor
  · exact fun htakes hmismatch => hmismatch.not_takesContainer hvalid rest htakes
  intro hmatch
  obtain ⟨v, hv⟩ := hvalid.exists_reads
  -- What is left is to follow the check and the assignment for each kind.
  have htakes : acceptsArg false arg v = true → arg.moveAssign v = .ok v →
      TakesContainer arg w rest := fun haccepts hassign =>
    ⟨v, hv.decodes, hv.signature, hv.decodes.mono fun fuel hdecode => by
      simp [getArg, hdecode, haccepts, hassign]⟩
  cases arg with
  | array sig items =>
    have harray : v.isArray = true := hv.isArray.trans hkind
    refine htakes harray ?_
    cases v with
    | array sig' items' => rfl
    | _ => cases harray
  | struct sig items =>
    have hsig : sig = w.signature := not_not.mp hmatch
    obtain ⟨sig', items', rfl⟩ := hv.exists_struct hkind
    exact htakes (decide_eq_true (hsig.trans hv.signature.symm)) rfl
  | dict key sig items =>
    obtain ⟨hdict, hkey⟩ := hkind
    obtain ⟨key', sig', items', rfl, hkey'⟩ := hv.exists_dict hdict
    obtain rfl : key' = key :=
      BasicType.code_injective (Option.some.inj (hkey'.symm.trans hkey))
    exact htakes rfl (if_pos rfl)
  | basic _ | variant _ => cases hkind

/-- A variable for arrays of strings takes an array of bytes. -/
theorem takesContainer_array :
    TakesContainer (.array (text "as") [.basic (.string [])])
      (.array (text "y") [.basic (.byte 1), .basic (.byte 2)]) [.basic (.boolean true)] := by
  have hvalid : (Wire.array (text "y") [.basic (.byte 1), .basic (.byte 2)]).Valid := by
    refine .array (by decide) (by decide) (by decide) fun w hw => ?_
    simp only [List.mem_cons, List.not_mem_nil, or_false] at hw
    obtain rfl | rfl := hw <;> exact .basic trivial
  have hkind : SameKind (.array (text "as") [.basic (.string [])])
      (.array (text "y") [.basic (.byte 1), .basic (.byte 2)]) := by
    show Wire.isArray _ = true
    decide
  exact (takesContainer_iff _ _ _ hvalid hkind).mpr id

/-- A variable for structs with an integer does not take a struct with a string. -/
theorem struct_not_takesContainer :
    (Wire.struct [.basic (.string (text "a"))]).Valid ∧
      SameKind (.struct (text "(i)") [.basic (.int32 0)])
        (.struct [.basic (.string (text "a"))]) ∧
      ¬ TakesContainer (.struct (text "(i)") [.basic (.int32 0)])
        (.struct [.basic (.string (text "a"))]) [] := by
  have hvalid : (Wire.struct [.basic (.string (text "a"))]).Valid := by
    refine .struct (by decide) fun w hw => ?_
    obtain rfl := List.mem_singleton.mp hw
    exact .basic rfl
  have hmismatch : StructMismatch (.struct (text "(i)") [.basic (.int32 0)])
      (.struct [.basic (.string (text "a"))]) := by
    show text "(i)" ≠ _
    decide
  exact ⟨hvalid, rfl, hmismatch.not_takesContainer hvalid []⟩

end Ultrabus
