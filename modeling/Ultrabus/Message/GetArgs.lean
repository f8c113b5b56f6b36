import Ultrabus.Message.Lossless
import Ultrabus.Value.Assignment

/-! # Reading arguments into variables

`message::get_args` and `message::get_args_strict`.  Both move every decoded argument into
its target through the virtual `operator=`, which throws where the classes of the two do
not fit; what they check first does not rule all of that out. -/

namespace Ultrabus

open Exec (Settles eventually_succ)
open Filter (atTop)
open List (Forall₂)

/-- A variable that an argument is read into: of a C++ type, or of a class derived from
    `dbus_type`. -/
inductive Target where
  | cpp (value : CppValue)
  | dbus (value : DbusType)

/-! ## The code -/

/-- `get_next_message_argument (DBusMessageIter*, T&)`. -/
def getNextMessageArgument (iter : ReadIter) (arg : CppValue) : Option CppValue :=
  match iter with
  | .basic value :: _ =>
    if arg.value.type = .string then
      match value with
      | .string s | .objectPath s | .signature s => some ⟨.string s, rfl⟩
      | _ => none
    else if h : value.type = arg.value.type then some ⟨value, h ▸ arg.cpp⟩
    else none
  | _ => none

/-- The check in `get_args_impl` on a decoded argument. -/
def acceptsArg (strictSignature : Bool) (arg nextArg : DbusType) : Bool :=
  if strictSignature then arg.signature = nextArg.signature
  else if arg.isArray then nextArg.isArray
  else if arg.isDict then nextArg.isDict
  else arg.signature = nextArg.signature

/-- What `get_args_impl` does with the first of its arguments; `none` where it returns
    `false`. -/
def getArg (fuel : Nat) (strictSignature : Bool) (iter : ReadIter) :
    Target → Exec Exception (Option Target)
  | .cpp arg => return (getNextMessageArgument iter arg).map Target.cpp
  | .dbus arg => do
    let nextArg ← createValueFromIter fuel iter
    match nextArg with
    | none => return none
    | some nextArg =>
      if !acceptsArg strictSignature arg nextArg then return none
      else
        let arg ← .ofExcept (arg.moveAssign nextArg)
        return some (.dbus arg)

/-- `get_args_impl`, with the state in which it leaves the variables. -/
def getArgsImpl (fuel : Nat) (strictSignature : Bool) :
    ReadIter → List Target → Exec Exception (Bool × List Target)
  | _, [] => return (true, [])
  | iter, arg :: moreArgs => do
    let next ← getArg fuel strictSignature iter arg
    match next with
    | none => return (false, arg :: moreArgs)
    | some arg =>
      let (found, moreArgs) ← getArgsImpl fuel strictSignature iter.next moreArgs
      return (found, arg :: moreArgs)

/-- `get_args` and `get_args_strict`; `dbus_message_iter_init` fails on an empty body. -/
def Message.getArgs (fuel : Nat) (m : Message) (strictSignature : Bool) (arg : Target)
    (args : List Target) : Exec Exception (Bool × List Target) :=
  if m.body.isEmpty then return (false, arg :: args)
  else getArgsImpl fuel strictSignature m.body (arg :: args)

/-! ## What callers are promised -/

/-- An array other than that of the entries of a dict. -/
def Wire.isArray : Wire → Bool
  | .array element _ => element.head? ≠ some dbusDictEntryBeginChar
  | _ => false

def Wire.isDict : Wire → Bool
  | .array element _ => element.head? = some dbusDictEntryBeginChar
  | _ => false

/-- The argument is not of the type of the variable.  An array variable takes arrays of all
    types, and a dict variable dicts of all types, unless the match is to be strict. -/
def WrongType (strictSignature : Bool) : Target → Wire → Prop
  | .cpp arg, w =>
    ∀ value, w = .basic value → value.type ≠ arg.value.type ∧
      (arg.value.type = .string → value.type ≠ .objectPath ∧ value.type ≠ .signature)
  | .dbus arg, w =>
    if strictSignature then arg.signature ≠ w.signature
    else if arg.isArray then w.isArray = false
    else if arg.isDict then w.isDict = false
    else arg.signature ≠ w.signature

/-- One of the requested arguments is missing or has the wrong type. -/
def Unavailable (strictSignature : Bool) (args : List Target) (body : List Wire) : Prop :=
  ∃ (i : Nat) (arg : Target), args[i]? = some arg ∧
    ∀ w, body[i]? = some w → WrongType strictSignature arg w

/-- The call returns, and returns `false` if an argument is missing or of the wrong type. -/
def Message.GetArgsReturns (m : Message) (strictSignature : Bool) (arg : Target)
    (args : List Target) : Prop :=
  ∃ found targets,
    Settles (fun fuel => m.getArgs fuel strictSignature arg args) (.ok (found, targets)) ∧
      (Unavailable strictSignature (arg :: args) m.body → found = false)

/-! ## Where classes do not fit -/

/-- The code of the key type of a dict. -/
def Wire.keyCode? : Wire → Option UInt8
  | .array element _ => element[1]?
  | _ => none

/-- The argument passes the check on the variable but is of another class: a dict with
    another class of keys where the match is not strict, or a dict that has the signature
    of an array variable where it is. -/
def Clash (strictSignature : Bool) : Target → Wire → Prop
  | .dbus (.array sig _), w => strictSignature = true ∧ w.isDict = true ∧ sig = w.signature
  | .dbus (.dict key _ _), w =>
    strictSignature = false ∧ w.isDict = true ∧ w.keyCode? ≠ some key.code
  | _, _ => False

/-- A variable meets an argument that it clashes with, and all variables before it got
    theirs. -/
inductive Clashes (strictSignature : Bool) : List Target → List Wire → Prop where
  | here {arg : Target} {args : List Target} {w : Wire} {ws : List Wire} :
      Clash strictSignature arg w → Clashes strictSignature (arg :: args) (w :: ws)
  | later {arg : Target} {args : List Target} {w : Wire} {ws : List Wire} :
      ¬ WrongType strictSignature arg w → ¬ Clash strictSignature arg w →
      Clashes strictSignature args ws → Clashes strictSignature (arg :: args) (w :: ws)

/-- A variable in a state that objects of its class have. -/
def Target.Fits : Target → Prop
  | .cpp _ => True
  | .dbus arg => arg.ClassFits

/-! ## What an argument is decoded to -/

/-- The value that a tree is decoded to, as far as the check and the assignment see it. -/
structure Reads (w : Wire) (v : DbusType) : Prop where
  decodes : Decodes w v
  signature : v.signature = w.signature
  fits : v.ClassFits
  isArray : v.isArray = w.isArray
  isDict : v.isDict = w.isDict

theorem Reads.basic {value : Basic} (h : value.Valid) : Reads (.basic value) (.basic value) :=
  ⟨.basic h, rfl, trivial, rfl, rfl⟩

theorem Reads.array {element : Bytes} {elements : List Wire}
    (hsig : dbusSignatureValidateSingle (dbusTypeArray :: element) = true)
    (hnot : element.head? ≠ some dbusDictEntryBeginChar)
    (hsame : ∀ w ∈ elements, w.signature = element) (helements : ∀ w ∈ elements, w.Valid) :
    ∃ items, Reads (.array element elements) (.array (dbusTypeArray :: element) items) := by
  obtain ⟨vs, hvs⟩ := exists_forall₂ fun w hw => (helements w hw).exists_decodesAs
  refine ⟨vs, .array hsig hnot (hvs.imp fun _ _ h => h.decodes) (signature_of_mem hvs hsame),
    rfl, rfl, ?_, ?_⟩
  · simp [DbusType.isArray, Wire.isArray, hnot]
  · simp [DbusType.isDict, Wire.isDict, hnot]

/-- The values of a decoded dict are decoded ones. -/
theorem Reads.dict {key : BasicType} {value : Bytes} {entries : List (Basic × Wire)}
    (hsig : dbusSignatureValidateSingle (dictSignature key value) = true)
    (hkeys : ∀ e ∈ entries, e.1.type = key ∧ e.1.Valid)
    (hvalues : ∀ e ∈ entries, e.2.signature = value) (hvalid : ∀ e ∈ entries, e.2.Valid) :
    ∃ items, Reads (.array (dictEntrySignature key value) (entries.map Wire.entry))
        (.dict key (dictSignature key value) items) ∧
      ∀ i ∈ items, ∃ w : Wire, w.Valid ∧ w.signature = value ∧ Decodes w i.2 := by
  have hentries : ∀ e ∈ entries, ∃ d, DecodesEntry key value e d ∧
      e.2.Valid ∧ e.2.signature = value := by
    intro e he
    obtain ⟨v, hv⟩ := (hvalid e he).exists_decodesAs
    exact ⟨(e.1, v), ⟨rfl, (hkeys e he).1, (hkeys e he).2,
      hv.signature.trans (hvalues e he), hv.decodes⟩, hvalid e he, hvalues e he⟩
  obtain ⟨ds, hds⟩ := exists_forall₂ hentries
  refine ⟨_, ⟨.dict hsig (hds.imp fun _ _ h => h.1), rfl, ⟨value, rfl⟩, rfl, rfl⟩, ?_⟩
  intro i hi
  obtain ⟨d, hd, hvalue⟩ := OrderedMap.value_of_mem_ofEntries hi
  obtain ⟨n, hn, rfl⟩ := List.mem_iff_getElem.mp hd
  have hlength := hds.length_eq
  obtain ⟨⟨-, -, -, -, hdecodes⟩, hvalid, hsig⟩ := hds.get (hlength ▸ hn) hn
  exact ⟨_, hvalid, hsig, hvalue ▸ hdecodes⟩

theorem Wire.Valid.exists_reads {w : Wire} (h : w.Valid) : ∃ v, Reads w v := by
  cases h with
  | basic hvalid => exact ⟨_, .basic hvalid⟩
  | @struct fields _ hfields =>
    obtain ⟨vs, hvs⟩ := exists_forall₂ fun w hw => (hfields w hw).exists_decodesAs
    refine ⟨_, .struct (hvs.imp fun _ _ h => h.decodes), ?_, rfl, rfl, rfl⟩
    simp [DbusType.signature, structSignature, signatures_of_decodesAs hvs, Wire.signature]
  | array hsig hnot hsame helements =>
    obtain ⟨items, hitems⟩ := Reads.array hsig hnot hsame helements
    exact ⟨_, hitems⟩
  | dict hsig hkeys hvalues hvalid =>
    obtain ⟨items, hitems, -⟩ := Reads.dict hsig hkeys hvalues hvalid
    exact ⟨_, hitems⟩
  | @variant w _ hw =>
    obtain ⟨v, hv⟩ := hw.exists_decodesAs
    obtain ⟨u, hu⟩ : ∃ u, DbusVariant.ofPointer (some v) = .variant u := by
      cases v <;> exact ⟨_, rfl⟩
    exact ⟨.variant u, hu ▸ hv.decodes.variant, rfl, trivial, rfl, rfl⟩

theorem Decodes.unique {w : Wire} {v v' : DbusType} (h : Decodes w v) (h' : Decodes w v') :
    v = v' := by
  obtain ⟨fuel, hboth⟩ := (h.and h').exists
  exact Option.some.inj (Exec.ok.inj ((hboth.1 []).symm.trans (hboth.2 [])))

/-! ### Arguments of a known type -/

section Typed

variable {w : Wire}

/-- A tree with the signature of a basic type is a value of that type. -/
theorem Wire.Valid.exists_basic (h : w.Valid) (t : BasicType) (hsig : w.signature = [t.code]) :
    ∃ value : Basic, w = .basic value ∧ value.type = t ∧ value.Valid := by
  cases h with
  | @basic value hvalid =>
    exact ⟨value, rfl, BasicType.code_injective (List.cons.inj hsig).1, hvalid⟩
  | struct _ _ => exact absurd (List.cons.inj hsig).1.symm t.code_ne_structBegin
  | array _ _ _ _ => exact absurd (List.cons.inj hsig).1.symm t.code_ne_array
  | dict _ _ _ _ => exact absurd (List.cons.inj hsig).1.symm t.code_ne_array
  | variant _ _ => exact absurd (List.cons.inj hsig).1.symm t.code_ne_variant

theorem Wire.Valid.exists_reads_array (h : w.Valid) (element : Bytes)
    (hsig : w.signature = dbusTypeArray :: element)
    (hhead : element.head? ≠ some dbusDictEntryBeginChar) :
    ∃ items, Reads w (.array (dbusTypeArray :: element) items) := by
  cases h with
  | @basic value _ => exact absurd (List.cons.inj hsig).1 value.type.code_ne_array
  | struct _ _ => exact absurd (List.cons.inj hsig).1 (by decide)
  | array hvalid _ hsame helements =>
    obtain rfl := (List.cons.inj hsig).2
    exact Reads.array hvalid hhead hsame helements
  | dict _ _ _ _ =>
    obtain rfl := (List.cons.inj hsig).2
    exact absurd rfl hhead
  | variant _ _ => exact absurd (List.cons.inj hsig).1 (by decide)

theorem Wire.Valid.exists_reads_dict (h : w.Valid) (key : BasicType) (value : Bytes)
    (hsig : w.signature = dictSignature key value) :
    ∃ items, Reads w (.dict key (dictSignature key value) items) ∧
      ∀ i ∈ items, ∃ w' : Wire, w'.Valid ∧ w'.signature = value ∧ Decodes w' i.2 := by
  cases h with
  | @basic value _ => exact absurd (List.cons.inj hsig).1 value.type.code_ne_array
  | struct _ _ => exact absurd (List.cons.inj hsig).1 (by decide)
  | array _ hhead _ _ =>
    obtain rfl := (List.cons.inj hsig).2
    exact absurd rfl hhead
  | @dict key' value' entries hvalid hkeys hvalues hentries =>
    obtain ⟨rfl, rfl⟩ := dictSignature_injective hsig
    exact Reads.dict hvalid hkeys hvalues hentries
  | variant _ _ => exact absurd (List.cons.inj hsig).1 (by decide)

end Typed

/-! ## One argument -/

theorem getNextMessageArgument_eq_none_iff (arg : CppValue) (w : Wire) (rest : ReadIter)
    (strictSignature : Bool) :
    getNextMessageArgument (w :: rest) arg = none ↔ WrongType strictSignature (.cpp arg) w := by
  cases w with
  | basic value =>
    simp only [getNextMessageArgument, WrongType, Wire.basic.injEq]
    by_cases hstring : arg.value.type = .string
    · rw [if_pos hstring, hstring]
      cases value <;> simp [Basic.type]
    · rw [if_neg hstring]
      by_cases htype : value.type = arg.value.type
      · simp [htype]
      · simp [htype, hstring]
  | struct fields => simp [getNextMessageArgument, WrongType]
  | array element elements => simp [getNextMessageArgument, WrongType]
  | dictEntry items => simp [getNextMessageArgument, WrongType]
  | variant items => simp [getNextMessageArgument, WrongType]

section Dbus

variable {w : Wire} {v arg : DbusType} {strictSignature : Bool}

/-- The check on the decoded value refuses arguments of the wrong type and no others. -/
theorem Reads.acceptsArg_eq_false_iff (h : Reads w v) :
    acceptsArg strictSignature arg v = false ↔ WrongType strictSignature (.dbus arg) w := by
  simp only [acceptsArg, WrongType, h.signature, h.isArray, h.isDict]
  split
  case isTrue => simp
  case isFalse =>
    split
    case isTrue => rfl
    case isFalse =>
      split
      case isTrue => rfl
      case isFalse => simp

theorem Reads.exists_dict (h : Reads w v) (hdict : w.isDict = true) :
    ∃ key sig items, v = .dict key sig items ∧ w.keyCode? = some key.code := by
  cases v with
  | dict key sig items =>
    refine ⟨key, sig, items, rfl, ?_⟩
    obtain ⟨value, rfl⟩ := h.fits
    cases w with
    | array element elements =>
      have hsig : dictSignature key value = dbusTypeArray :: element := h.signature
      obtain rfl := (List.cons.inj hsig).2
      rfl
    | _ => cases hdict
  | _ => exact absurd (h.isDict.trans hdict) (by simp [DbusType.isDict])

/-- A value that clashes is not taken over. -/
theorem Reads.moveAssign_of_clash (h : Reads w v)
    (hclash : Clash strictSignature (.dbus arg) w) : ∃ e, arg.moveAssign v = .error e := by
  cases arg with
  | array sig items =>
    obtain ⟨-, hdict, -⟩ := hclash
    obtain ⟨key, sig', items', rfl, -⟩ := h.exists_dict hdict
    exact ⟨_, rfl⟩
  | dict key sig items =>
    obtain ⟨-, hdict, hkey⟩ := hclash
    obtain ⟨key', sig', items', rfl, hkey'⟩ := h.exists_dict hdict
    refine ⟨.badCast, if_neg ?_⟩
    rintro rfl
    exact hkey hkey'
  | basic _ | struct _ _ | variant _ => cases hclash

/-- A value that passes the check and does not clash is taken over. -/
theorem Reads.moveAssign_of_accepted (h : Reads w v) (hfits : arg.ClassFits)
    (haccepts : acceptsArg strictSignature arg v = true)
    (hclash : ¬ Clash strictSignature (.dbus arg) w) : ∃ arg', arg.moveAssign v = .ok arg' := by
  have htake : ∀ hsig : arg.signature = v.signature, arg.isArray = v.isArray →
      ∃ arg', arg.moveAssign v = .ok arg' := fun hsig harray =>
    ⟨v, DbusType.moveAssign_of_signature_eq hfits h.fits hsig harray⟩
  have hother : arg.isArray = false → arg.isDict = false → arg.signature = v.signature →
      ∃ arg', arg.moveAssign v = .ok arg' := by
    intro harray hdict hsig
    refine htake hsig ?_
    cases hv : v.isArray with
    | false => exact harray
    | true =>
      have hcode := v.firstCode_eq_array_iff.mpr (.inl hv)
      rw [← hfits.firstCode_eq h.fits hsig, DbusType.firstCode_eq_array_iff, harray, hdict] at hcode
      simp at hcode
  cases arg with
  | array sig items =>
    cases strictSignature with
    | false =>
      have harray : v.isArray = true := haccepts
      cases v with
      | array sig' items' => exact ⟨_, rfl⟩
      | _ => cases harray
    | true =>
      have hsig : sig = v.signature := of_decide_eq_true haccepts
      refine htake hsig ?_
      -- What starts like an array and is none is a dict, and clashes.
      have hfirst := hfits.firstCode_eq h.fits hsig
      obtain harray | hdict := v.firstCode_eq_array_iff.mp hfirst.symm
      · exact harray.symm
      · exact absurd ⟨rfl, h.isDict ▸ hdict, hsig.trans h.signature⟩ hclash
  | dict key sig items =>
    cases strictSignature with
    | false =>
      have hdict : v.isDict = true := haccepts
      obtain ⟨key', sig', items', rfl, hkey⟩ := h.exists_dict (h.isDict ▸ hdict)
      by_cases hsame : key' = key
      · exact ⟨_, if_pos hsame⟩
      · refine absurd ⟨rfl, h.isDict ▸ hdict, ?_⟩ hclash
        rw [hkey]
        exact fun hcode => hsame (BasicType.code_injective (Option.some.inj hcode))
    | true =>
      have hsig : sig = v.signature := of_decide_eq_true haccepts
      refine htake hsig ?_
      cases harray : v.isArray with
      | false => rfl
      | true =>
        -- The signature of a dict is not that of an array.
        rw [h.isArray] at harray
        obtain ⟨value, rfl⟩ := hfits
        cases w with
        | array element elements =>
          have hwire : dictSignature key value = dbusTypeArray :: element := hsig.trans h.signature
          obtain rfl := (List.cons.inj hwire).2
          exact absurd harray (by simp [Wire.isArray, dictEntrySignature])
        | basic _ | struct _ | dictEntry _ | variant _ => cases harray
  | basic value =>
    exact hother rfl rfl (of_decide_eq_true (by cases strictSignature <;> exact haccepts))
  | struct sig items =>
    exact hother rfl rfl (of_decide_eq_true (by cases strictSignature <;> exact haccepts))
  | variant value =>
    exact hother rfl rfl (of_decide_eq_true (by cases strictSignature <;> exact haccepts))

end Dbus

/-- Reading one argument: it is refused, or the assignment throws, or the variable gets it. -/
inductive Outcome (strictSignature : Bool) (arg : Target) (iter : ReadIter) : Prop where
  | refused : (∀ w, iter.head? = some w → WrongType strictSignature arg w) →
      Settles (fun fuel => getArg fuel strictSignature iter arg) (.ok none) →
      Outcome strictSignature arg iter
  | thrown {w : Wire} {e : Exception} : iter.head? = some w → Clash strictSignature arg w →
      Settles (fun fuel => getArg fuel strictSignature iter arg) (.throw e) →
      Outcome strictSignature arg iter
  | taken {w : Wire} {arg' : Target} : iter.head? = some w →
      ¬ WrongType strictSignature arg w → ¬ Clash strictSignature arg w →
      Settles (fun fuel => getArg fuel strictSignature iter arg) (.ok (some arg')) →
      Outcome strictSignature arg iter

theorem getArg_outcome (strictSignature : Bool) {arg : Target} (hfits : arg.Fits)
    {iter : ReadIter} (hvalid : ∀ w ∈ iter, w.Valid) : Outcome strictSignature arg iter := by
  cases iter with
  | nil =>
    refine .refused (fun w hw => by cases hw) ?_
    cases arg with
    | cpp arg => exact .of_forall fun fuel => rfl
    | dbus arg => exact eventually_succ (.of_forall fun fuel => rfl)
  | cons w rest =>
    cases arg with
    | cpp arg =>
      have hnone := getNextMessageArgument_eq_none_iff arg w rest strictSignature
      cases hget : getNextMessageArgument (w :: rest) arg with
      | none =>
        refine .refused ?_ (.of_forall fun fuel => by simp [getArg, hget])
        rintro w' ⟨⟩
        exact hnone.mp hget
      | some arg' =>
        refine .taken rfl ?_ id (.of_forall fun fuel => by simp [getArg, hget]; rfl)
        rw [← hnone, hget]
        exact Option.some_ne_none arg'
    | dbus arg =>
      obtain ⟨v, hv⟩ := (hvalid w List.mem_cons_self).exists_reads
      have hrefuse : acceptsArg strictSignature arg v = false ↔
          WrongType strictSignature (.dbus arg) w := hv.acceptsArg_eq_false_iff
      cases haccepts : acceptsArg strictSignature arg v with
      | false =>
        refine .refused ?_ (hv.decodes.mono fun fuel hdecode => by
          simp [getArg, hdecode, haccepts])
        rintro w' ⟨⟩
        exact hrefuse.mp haccepts
      | true =>
        by_cases hclash : Clash strictSignature (.dbus arg) w
        · obtain ⟨e, hassign⟩ := hv.moveAssign_of_clash hclash
          exact .thrown (e := e) rfl hclash (hv.decodes.mono fun fuel hdecode => by
            simp [getArg, hdecode, haccepts, hassign])
        · obtain ⟨arg', hassign⟩ := hv.moveAssign_of_accepted hfits haccepts hclash
          have hget : Settles (fun fuel => getArg fuel strictSignature (w :: rest) (.dbus arg))
              (.ok (some (.dbus arg'))) :=
            hv.decodes.mono fun fuel hdecode => by simp [getArg, hdecode, haccepts, hassign]
          refine .taken rfl ?_ hclash hget
          rw [← hrefuse, haccepts]
          exact Bool.true_eq_false.mp

/-! ## All arguments -/

theorem clashes_cons_iff {strictSignature : Bool} {arg : Target} {args : List Target} {w : Wire}
    {ws : List Wire} (hwrong : ¬ WrongType strictSignature arg w)
    (hclash : ¬ Clash strictSignature arg w) :
    Clashes strictSignature (arg :: args) (w :: ws) ↔ Clashes strictSignature args ws := by
  constructor
  · intro h
    cases h with
    | here h => exact absurd h hclash
    | later _ _ h => exact h
  · exact .later hwrong hclash

theorem Clash.not_wrongType {strictSignature : Bool} {arg : Target} {w : Wire}
    (h : Clash strictSignature arg w) : ¬ WrongType strictSignature arg w := by
  cases arg with
  | cpp arg => cases h
  | dbus arg =>
    cases arg with
    | array sig items =>
      obtain ⟨rfl, -, hsig⟩ := h
      exact fun hwrong => hwrong hsig
    | dict key sig items =>
      obtain ⟨rfl, hdict, -⟩ := h
      intro hwrong
      have hnot : w.isDict = false := hwrong
      exact absurd (hdict.symm.trans hnot) (by decide)
    | basic _ | struct _ _ | variant _ => cases h

theorem getArgsImpl_nil (strictSignature : Bool) (iter : ReadIter) :
    Settles (fun fuel => getArgsImpl fuel strictSignature iter []) (.ok (true, [])) :=
  .of_forall fun _ => rfl

theorem getArgsImpl_cons {strictSignature : Bool} {arg arg' : Target} {args args' : List Target}
    {w : Wire} {ws : List Wire} {found : Bool}
    (hhead : Settles (fun fuel => getArg fuel strictSignature (w :: ws) arg) (.ok (some arg')))
    (htail : Settles (fun fuel => getArgsImpl fuel strictSignature ws args) (.ok (found, args'))) :
    Settles (fun fuel => getArgsImpl fuel strictSignature (w :: ws) (arg :: args))
      (.ok (found, arg' :: args')) := by
  filter_upwards [hhead, htail] with fuel hhead htail
  simp [getArgsImpl, hhead, ReadIter.next, htail]

/-- A variable of the class and the signature of the argument gets it. -/
theorem Reads.getArg_settles {w : Wire} {v : DbusType} (h : Reads w v) (arg : DbusType)
    (hfits : arg.ClassFits) (hsig : arg.signature = v.signature)
    (harray : arg.isArray = v.isArray) (rest : ReadIter) :
    Settles (fun fuel => getArg fuel true (w :: rest) (.dbus arg)) (.ok (some (.dbus v))) := by
  have hassign := DbusType.moveAssign_of_signature_eq hfits h.fits hsig harray
  refine h.decodes.mono fun fuel hdecode => ?_
  simp [getArg, hdecode, acceptsArg, hsig, hassign]

/-- The call throws exactly where classes clash, and otherwise tells what is unavailable. -/
theorem getArgsImpl_settles (strictSignature : Bool) {args : List Target}
    (hfits : ∀ arg ∈ args, arg.Fits) {iter : ReadIter} (hvalid : ∀ w ∈ iter, w.Valid) :
    (Clashes strictSignature args iter ∧
        ∃ e, Settles (fun fuel => getArgsImpl fuel strictSignature iter args) (.throw e)) ∨
      (¬ Clashes strictSignature args iter ∧ ∃ found targets,
        Settles (fun fuel => getArgsImpl fuel strictSignature iter args) (.ok (found, targets)) ∧
          (Unavailable strictSignature args iter → found = false)) := by
  induction args generalizing iter with
  | nil =>
    refine .inr ⟨?_, true, [], getArgsImpl_nil strictSignature iter, ?_⟩
    · rintro ⟨⟩
    · rintro ⟨i, arg, harg, -⟩
      cases harg
  | cons arg args ih =>
    have hhead := getArg_outcome strictSignature (hfits arg List.mem_cons_self) hvalid
    cases hhead with
    | refused hwrong hget =>
      refine .inr ⟨?_, false, arg :: args, hget.mono fun fuel hfuel => by
        simp [getArgsImpl, hfuel], fun _ => rfl⟩
      intro hclashes
      cases hclashes with
      | here hclash => exact hclash.not_wrongType (hwrong _ rfl)
      | later hnot _ _ => exact hnot (hwrong _ rfl)
    | @thrown w e hw hclash hget =>
      obtain ⟨rest, rfl⟩ := List.head?_eq_some_iff.mp hw
      exact .inl ⟨.here hclash, e, hget.mono fun fuel hfuel => by simp [getArgsImpl, hfuel]⟩
    | @taken w arg' hw hwrong hclash hget =>
      obtain ⟨rest, rfl⟩ := List.head?_eq_some_iff.mp hw
      rw [clashes_cons_iff hwrong hclash]
      have htail := ih (fun arg harg => hfits arg (List.mem_cons_of_mem _ harg))
        fun w hw => hvalid w (List.mem_cons_of_mem _ hw)
      obtain ⟨hclashes, e, hrest⟩ | ⟨hclashes, found, targets, hrest, hfound⟩ := htail
      · refine .inl ⟨hclashes, e, ?_⟩
        filter_upwards [hget, hrest] with fuel hfuel hrest
        simp [getArgsImpl, hfuel, ReadIter.next, hrest]
      · refine .inr ⟨hclashes, found, arg' :: targets, getArgsImpl_cons hget hrest, ?_⟩
        -- The first argument is there, so that an unavailable one is further on.
        rintro ⟨i, target, htarget, hunavailable⟩
        cases i with
        | zero =>
          obtain rfl := Option.some.inj htarget
          exact absurd (hunavailable w rfl) hwrong
        | succ i => exact hfound ⟨i, target, htarget, hunavailable⟩

/-- For every well-formed message and any variables in states that objects of their classes
    have, the call returns as promised exactly when no variable meets an argument that it
    clashes with. -/
theorem Message.getArgs_returns_iff (m : Message) (hvalid : ∀ w ∈ m.body, w.Valid)
    (strictSignature : Bool) (arg : Target) (args : List Target)
    (hfits : ∀ target ∈ arg :: args, target.Fits) :
    m.GetArgsReturns strictSignature arg args ↔
      ¬ Clashes strictSignature (arg :: args) m.body := by
  cases hbody : m.body with
  | nil =>
    refine iff_of_true ⟨false, arg :: args, ?_, fun _ => rfl⟩ ?_
    · exact .of_forall fun fuel => by simp [getArgs, hbody]
    · rintro ⟨⟩
  | cons w ws =>
    have hrun : ∀ outcome, Settles (fun fuel => m.getArgs fuel strictSignature arg args) outcome ↔
        Settles (fun fuel => getArgsImpl fuel strictSignature m.body (arg :: args)) outcome := by
      simp [getArgs, hbody]
    rw [← hbody]
    obtain ⟨hclashes, e, hthrows⟩ | ⟨hclashes, found, targets, hreturns, hfound⟩ :=
      getArgsImpl_settles strictSignature hfits hvalid
    · refine iff_of_false ?_ (not_not.mpr hclashes)
      rintro ⟨found, targets, hreturns, -⟩
      cases ((hrun _).mp hreturns).unique hthrows
    · exact iff_of_true ⟨found, targets, (hrun _).mpr hreturns, hfound⟩ hclashes

/-- An array of integers and a dict with strings for keys. -/
def arrayAndDictMessage : Message where
  ctx := some {
    type := 1
    body := [
      .array (text "i") [.basic (.int32 1)],
      .array (dictEntrySignature .string (text "y"))
        ([(.string (text "a"), .basic (.byte 1))].map Wire.entry)] }

/-- Variables of other element and value types, but of the same key type, take both. -/
theorem arrayAndDictMessage_getArgs_returns :
    arrayAndDictMessage.GetArgsReturns false (.dbus (.array (text "as") []))
      [.dbus (.dict .string (text "a{sv}") [])] := by
  refine (Message.getArgs_returns_iff arrayAndDictMessage ?_ false _ _ ?_).mpr ?_
  · intro w hw
    simp only [arrayAndDictMessage, Message.body, List.mem_cons, List.not_mem_nil, or_false] at hw
    obtain rfl | rfl := hw
    · refine .array (by decide) (by decide) (by decide) fun w hw => ?_
      obtain rfl := List.mem_singleton.mp hw
      exact .basic trivial
    · refine .dict (by decide) (by decide) (by decide) fun e he => ?_
      obtain rfl := List.mem_singleton.mp he
      exact .basic trivial
  · intro target htarget
    simp only [List.mem_cons, List.not_mem_nil, or_false] at htarget
    obtain rfl | rfl := htarget
    · exact rfl
    · exact ⟨text "v", rfl⟩
  · intro h
    obtain ⟨hstrict, -⟩ | ⟨-, -, ⟨-, -, hkey⟩ | ⟨-, -, ⟨⟩⟩⟩ := h
    · cases hstrict
    · exact hkey (by decide)

/-- An empty dict with integers for keys. -/
def integerKeysMessage : Message where
  ctx := some {
    type := 1
    body := [.array (dictEntrySignature .int32 (text "y")) []] }

theorem integerKeysMessage_valid : ∀ w ∈ integerKeysMessage.body, w.Valid := by
  intro w hw
  obtain rfl := List.mem_singleton.mp hw
  show (Wire.array (dictEntrySignature .int32 (text "y"))
    (([] : List (Basic × Wire)).map Wire.entry)).Valid
  exact .dict (by decide) (by decide) (by decide) fun e he => nomatch he

/-- A dict variable of another key class makes `get_args` throw, and an array variable with
    the signature of the dict makes `get_args_strict` throw. -/
theorem integerKeysMessage_getArgs_throws :
    (∀ w ∈ integerKeysMessage.body, w.Valid) ∧
      (Target.dbus (.dict .string (text "a{sv}") [])).Fits ∧
      ¬ integerKeysMessage.GetArgsReturns false (.dbus (.dict .string (text "a{sv}") [])) [] ∧
      (Target.dbus (.array (text "a{iy}") [])).Fits ∧
      ¬ integerKeysMessage.GetArgsReturns true (.dbus (.array (text "a{iy}") [])) [] := by
  have hsig : dictSignature .int32 (text "y") = text "a{iy}" := rfl
  have hdecodes : Decodes (.array (dictEntrySignature .int32 (text "y")) [])
      (.dict .int32 (dictSignature .int32 (text "y")) []) :=
    Decodes.dict (by decide) .nil
  rw [hsig] at hdecodes
  refine ⟨integerKeysMessage_valid, ⟨text "v", rfl⟩, ?_, rfl, ?_⟩
  · rintro ⟨found, targets, hreturns, -⟩
    have hthrows : Settles (fun fuel => integerKeysMessage.getArgs fuel false
        (.dbus (.dict .string (text "a{sv}") [])) []) (.throw .badCast) := by
      refine hdecodes.mono fun fuel hfuel => ?_
      simp [Message.getArgs, integerKeysMessage, Message.body, getArgsImpl, getArg, hfuel,
        acceptsArg, DbusType.isArray, DbusType.isDict, DbusType.moveAssign]
    cases hreturns.unique hthrows
  · rintro ⟨found, targets, hreturns, -⟩
    have hthrows : Settles (fun fuel => integerKeysMessage.getArgs fuel true
        (.dbus (.array (text "a{iy}") [])) []) (.throw (cannotMove (text "dbus_array"))) := by
      refine hdecodes.mono fun fuel hfuel => ?_
      simp [Message.getArgs, integerKeysMessage, Message.body, getArgsImpl, getArg, hfuel,
        acceptsArg, DbusType.signature, DbusType.moveAssign]
    cases hreturns.unique hthrows

end Ultrabus
