import Ultrabus.Connection.BusMethods

/-! # What the synchronous functions report

Every function returns a `retvalue`, and its error number is to be 0 exactly when the bus has
answered with a value of the type of the result. -/

namespace Ultrabus.Bus

open Exec (Settles)
open List (Forall₂)

/-! ## The promise -/

/-- The type of the value, if there is one. -/
def Result.signature : Result → Option Bytes
  | .uint32 => some (text "u")
  | .boolean => some (text "b")
  | .string => some (text "s")
  | .names => some (text "as")
  | .credentials => some (text "a{sv}")
  | .nothing => none

/-- The checks in front of the call pass. -/
def Method.accepted (c : Connection) : Method → Bool
  | .requestName name _ | .releaseName name | .listQueuedOwners name | .nameHasOwner name
  | .startServiceByName name _ | .getNameOwner name | .getConnectionUnixUser name
  | .getConnectionUnixProcessId name | .getConnectionCredentials name =>
    c.isConnected && c.dbusValidateBusName (cStr name)
  | .listNames | .listActivatableNames | .getId | .updateActivationEnvironment _
  | .becomeMonitor _ => c.isConnected

/-- The reply is no error and starts with an argument of a type. -/
def HasResult (reply : FullMessage) (sig : Bytes) : Prop :=
  reply.isError = false ∧ reply.message.body.head?.map Wire.signature = some sig

section Run

variable {α : Type}

/-- A function called while `reply` is what the bus answers. -/
def Sync.run (fuel : Nat) (reply : FullMessage) : Sync α → Exec Exception (Retvalue α)
  | .returns result => .ofExcept result
  | .sendAndWait _ result => result fuel reply

/-- The function returns, and tells success exactly if `success` holds. -/
def Sync.Reports (s : Sync α) (reply : FullMessage) (success : Prop) : Prop :=
  ∃ ret, Settles (fun fuel => s.run fuel reply) (.ok ret) ∧ (ret.errNum = 0 ↔ success)

end Run

/-- The function reports success exactly when the call was made and answered with a value of the
    type of its result. -/
def Method.Reports (m : Method) (c : Connection) (reply : FullMessage) (sig : Bytes) : Prop :=
  (m.sync c).Reports reply (m.accepted c = true ∧ HasResult reply sig)

/-! ## What goes wrong -/

/-- An argument of another type than that of the result, which `get_args` does not refuse. -/
def Result.Misreads : Result → Wire → Prop
  | .string, w => w.signature = text "o" ∨ w.signature = text "g"
  | .names, w => w.isArray = true ∧ w.signature ≠ text "as"
  | .credentials, w => w.isDict = true ∧ w.signature ≠ text "a{sv}"
  | _, _ => False

/-- The reply starts with such an argument. -/
def MisreadReply (r : Result) (reply : FullMessage) : Prop :=
  reply.isError = false ∧ ∃ w, reply.message.body.head? = some w ∧ r.Misreads w

/-! ## Early returns -/

section Early

variable {α : Type} (c : Connection) {reply : FullMessage} {success : Prop}

theorem reports_of_settles {s : Sync α} {ret : Retvalue α}
    (h : Settles (fun fuel => s.run fuel reply) (.ok ret)) :
    s.Reports reply success ↔ (ret.errNum = 0 ↔ success) := by
  constructor
  · rintro ⟨ret', hret', herr⟩
    obtain rfl := Exec.ok.inj (hret'.unique h)
    exact herr
  · exact fun herr => ⟨ret, h, herr⟩

theorem not_reports_of_settles {s : Sync α} {e : Exception}
    (h : Settles (fun fuel => s.run fuel reply) (.throw e)) : ¬ s.Reports reply success := by
  rintro ⟨ret, hret, -⟩
  cases hret.unique h

theorem checkName_reports_iff (name : Bytes) (ret : Except Exception (Retvalue α))
    (invalid : Bytes) (call : Sync α) :
    (checkName c name ret invalid call).Reports reply
        ((c.isConnected && c.dbusValidateBusName (cStr name)) = true ∧ success) ↔
      if c.isConnected && c.dbusValidateBusName (cStr name) then call.Reports reply success
      else ∃ r, ret = .ok r := by
  rw [checkName, ← Bool.not_and]
  cases haccepted : c.isConnected && c.dbusValidateBusName (cStr name) with
  | true => simp
  | false =>
    simp only [Bool.not_false, if_true, Bool.false_eq_true, false_and, if_false]
    cases ret with
    | ok r =>
      have hreturns : ∃ description, Settles (fun fuel => Sync.run fuel reply (.returns do
          let ret ← Except.ok r
          if !c.isConnectedAgain then return ret.err (-1) (text "Not connected")
          else return ret.err (-1) invalid)) (.ok (r.err (-1) description)) := by
        cases c.isConnectedAgain with
        | true => exact ⟨_, .of_forall fun fuel => rfl⟩
        | false => exact ⟨_, .of_forall fun fuel => rfl⟩
      obtain ⟨description, hreturns⟩ := hreturns
      rw [reports_of_settles hreturns]
      simp [Retvalue.err]
    | error e =>
      have hthrows : Settles (fun fuel => Sync.run fuel reply (.returns do
          let ret ← (Except.error e : Except Exception (Retvalue α))
          if !c.isConnectedAgain then return ret.err (-1) (text "Not connected")
          else return ret.err (-1) invalid)) (.throw e) := .of_forall fun fuel => rfl
      exact iff_of_false (not_reports_of_settles hthrows) (by simp)

theorem checkConnected_reports_iff (value : α) (call : Sync α) :
    (checkConnected c value call).Reports reply (c.isConnected = true ∧ success) ↔
      (c.isConnected = true → call.Reports reply success) := by
  rw [checkConnected]
  cases hconnected : c.isConnected with
  | true => simp
  | false =>
    have hreturns : Settles (fun fuel => Sync.run fuel reply
        (.returns (.ok ⟨value, -1, text "Not connected"⟩)))
        (.ok ⟨value, -1, text "Not connected"⟩) :=
      .of_forall fun fuel => rfl
    simp only [Bool.not_false, if_true]
    rw [reports_of_settles hreturns]
    simp

end Early

/-! ## Replies -/

section Replies

variable {reply : FullMessage}

theorem HasResult.signature {sig : Bytes} {w : Wire} {rest : ReadIter}
    (hbody : reply.message.body = w :: rest) :
    HasResult reply sig ↔ reply.isError = false ∧ w.signature = sig := by
  simp [HasResult, hbody]

theorem misreadReply_cons {r : Result} {w : Wire} {rest : ReadIter}
    (hbody : reply.message.body = w :: rest) :
    MisreadReply r reply ↔ reply.isError = false ∧ r.Misreads w := by
  simp [MisreadReply, hbody]

/-- A reply without an argument has no result, and nothing is misread. -/
theorem not_of_body_eq_nil (hbody : reply.message.body = []) (sig : Bytes) (r : Result) :
    ¬ HasResult reply sig ∧ ¬ MisreadReply r reply := by
  simp [HasResult, MisreadReply, hbody]

theorem not_of_isError (herror : reply.isError = true) (sig : Bytes) (r : Result) :
    ¬ HasResult reply sig ∧ ¬ MisreadReply r reply := by
  simp [HasResult, MisreadReply, herror]

section Failures

variable {α : Type} {s : Sync α} {sig : Bytes} {r : Result}

/-- The function returns and tells of a failure. -/
def Sync.TellsFailure (s : Sync α) (reply : FullMessage) : Prop :=
  ∃ ret, Settles (fun fuel => s.run fuel reply) (.ok ret) ∧ ret.errNum = -1

/-- It reports what it should then if there is no result. -/
theorem Sync.TellsFailure.reports (h : s.TellsFailure reply)
    (hnot : ¬ HasResult reply sig ∧ ¬ MisreadReply r reply) :
    s.Reports reply (HasResult reply sig) ↔ ¬ MisreadReply r reply := by
  obtain ⟨ret, hret, herr⟩ := h
  rw [reports_of_settles hret, herr]
  exact iff_of_true (iff_of_false (by decide) hnot.1) hnot.2

/-- Only replies with an argument are left where errors and empty replies are told of. -/
theorem reports_iff_of_argument (herror : reply.isError = true → s.TellsFailure reply)
    (hnil : reply.isError = false → reply.message.body = [] → s.TellsFailure reply)
    (hcons : reply.isError = false → ∀ w rest, reply.message.body = w :: rest →
      (s.Reports reply (HasResult reply sig) ↔ ¬ MisreadReply r reply)) :
    s.Reports reply (HasResult reply sig) ↔ ¬ MisreadReply r reply := by
  cases hkind : reply.isError with
  | true => exact (herror hkind).reports (not_of_isError hkind sig r)
  | false =>
    cases hbody : reply.message.body with
    | nil => exact (hnil hkind hbody).reports (not_of_body_eq_nil hbody sig r)
    | cons w rest => exact hcons hkind w rest hbody

end Failures

/-! ### Basic results -/

theorem wrongType_cpp_iff {w : Wire} (hvalid : w.Valid) (type : CppValue) :
    WrongType false (.cpp type) w ↔ w.signature ≠ [type.value.type.code] ∧
      (type.value.type = .string → w.signature ≠ text "o" ∧ w.signature ≠ text "g") := by
  constructor
  · intro hwrong
    have hbasic : ∀ t : BasicType, w.signature = [t.code] →
        t ≠ type.value.type ∧ (type.value.type = .string → t ≠ .objectPath ∧ t ≠ .signature) := by
      intro t hsig
      obtain ⟨value, rfl, rfl, -⟩ := hvalid.exists_basic t hsig
      exact hwrong value rfl
    refine ⟨fun hsig => (hbasic _ hsig).1 rfl, fun hstring => ⟨fun hsig => ?_, fun hsig => ?_⟩⟩
    · exact ((hbasic .objectPath hsig).2 hstring).1 rfl
    · exact ((hbasic .signature hsig).2 hstring).2 rfl
  · rintro ⟨hsame, hother⟩ value rfl
    refine ⟨fun htype => hsame ?_, fun hstring => ⟨fun htype => ?_, fun htype => ?_⟩⟩
    · rw [← htype]
      rfl
    · exact (hother hstring).1 (congrArg (fun t : BasicType => [t.code]) htype)
    · exact (hother hstring).2 (congrArg (fun t : BasicType => [t.code]) htype)

theorem callMethod_reports_iff (type : CppValue) (msg : Request)
    (hvalid : ∀ w ∈ reply.message.body, w.Valid) (r : Result)
    (hresult : ∀ w, r.Misreads w ↔
      type.value.type = .string ∧ (w.signature = text "o" ∨ w.signature = text "g")) :
    (syncCallMethod type msg).Reports reply (HasResult reply [type.value.type.code]) ↔
      ¬ MisreadReply r reply := by
  apply reports_iff_of_argument
  case herror =>
    exact fun herror => ⟨(Retvalue.of type).err (-1) (replyError reply),
      .of_forall fun fuel => by simp [syncCallMethod, Sync.run, herror], rfl⟩
  case hnil =>
    exact fun herror hbody =>
      ⟨(Retvalue.of type).err (-1) (invalidBasicReply type.value.type.code reply),
        .of_forall fun fuel => by
          simp [syncCallMethod, Sync.run, herror, Message.getArgs, hbody], rfl⟩
  case hcons =>
    intro herror w rest hbody
    rw [hbody] at hvalid
    have hnone := getNextMessageArgument_eq_none_iff type w rest false
    rw [wrongType_cpp_iff (hvalid w List.mem_cons_self)] at hnone
    cases hget : getNextMessageArgument (w :: rest) type with
    | none =>
      obtain ⟨hsame, hother⟩ := hnone.mp hget
      have hfails : (syncCallMethod type msg).TellsFailure reply :=
        ⟨(Retvalue.of type).err (-1) (invalidBasicReply type.value.type.code reply),
          .of_forall fun fuel => by
            simp [syncCallMethod, Sync.run, herror, Message.getArgs, hbody, getArgsImpl, getArg,
              Retvalue.of, hget], rfl⟩
      refine hfails.reports ⟨?_, ?_⟩
      · rw [HasResult.signature hbody]
        exact fun h => hsame h.2
      · rw [misreadReply_cons hbody, hresult]
        rintro ⟨-, hstring, ho | hg⟩
        · exact (hother hstring).1 ho
        · exact (hother hstring).2 hg
    | some value =>
      have hsettles : Settles (fun fuel => (syncCallMethod type msg).run fuel reply)
          (.ok { Retvalue.of type with value := value }) :=
        .of_forall fun fuel => by
          simp [syncCallMethod, Sync.run, herror, Message.getArgs, hbody, getArgsImpl, getArg,
            Retvalue.of, hget]
      have htaken : ¬ (w.signature ≠ [type.value.type.code] ∧
          (type.value.type = .string → w.signature ≠ text "o" ∧ w.signature ≠ text "g")) := by
        rw [← hnone, hget]
        exact Option.some_ne_none value
      rw [reports_of_settles hsettles, HasResult.signature hbody, misreadReply_cons hbody, hresult]
      constructor
      · rintro h ⟨-, hstring, hother⟩
        have hsig := (h.mp rfl).2
        rw [hstring] at hsig
        rw [hsig] at hother
        exact absurd hother (by decide)
      · intro h
        refine iff_of_true rfl ⟨herror, ?_⟩
        by_contra hne
        exact htaken ⟨hne, fun hstring => ⟨fun ho => h ⟨herror, hstring, .inl ho⟩,
          fun hg => h ⟨herror, hstring, .inr hg⟩⟩⟩

/-! ### Sets and dicts -/

theorem emplaceNames_ok {items : List DbusType} (h : ∀ i ∈ items, ∃ s, i = .basic (.string s))
    (set : List (Bytes × Unit)) : ∃ names, emplaceNames set items = .ok names := by
  induction items generalizing set with
  | nil => exact ⟨_, rfl⟩
  | cons item items ih =>
    obtain ⟨⟨s, rfl⟩, hitems⟩ := List.forall_mem_cons.mp h
    exact ih hitems (OrderedMap.emplace textLess s () set)

theorem forall_of_forall₂ {α β : Type} {R : α → β → Prop} {P : β → Prop} {xs : List α}
    {ys : List β} (h : Forall₂ R xs ys) (hR : ∀ x y, R x y → P y) : ∀ y ∈ ys, P y := by
  induction h with
  | nil => exact fun _ hy => absurd hy List.not_mem_nil
  | cons hxy _ ih => exact List.forall_mem_cons.mpr ⟨hR _ _ hxy, ih⟩

/-- The names in an array of strings can be taken. -/
theorem exists_reads_strings {w : Wire} (h : w.Valid) (hsig : w.signature = text "as") :
    ∃ items names, Reads w (.array (text "as") items) ∧ emplaceNames [] items = .ok names := by
  obtain ⟨items, hreads⟩ := h.exists_reads_array (text "s") hsig (by decide)
  suffices hstrings : ∀ i ∈ items, ∃ s, i = .basic (.string s) by
    obtain ⟨names, hnames⟩ := emplaceNames_ok hstrings []
    exact ⟨items, names, hreads, hnames⟩
  cases h with
  | basic _ => exact absurd (List.cons.inj hsig).2 (by decide)
  | struct _ _ => exact absurd (List.cons.inj hsig).1 (by decide)
  | variant _ _ => exact absurd (List.cons.inj hsig).1 (by decide)
  | dict _ _ _ _ => exact absurd (List.cons.inj (List.cons.inj hsig).2).1 (by decide)
  | @array element elements hvalid hnot hsame helements =>
    obtain rfl : element = text "s" := (List.cons.inj hsig).2
    have hstrings : ∀ w ∈ elements, ∃ i, Decodes w i ∧ i.signature = text "s" ∧
        ∃ s, i = .basic (.string s) := by
      intro w hw
      obtain ⟨value, rfl, htype, hvalue⟩ :=
        (helements w hw).exists_basic .string (hsame w hw)
      cases value with
      | string s => exact ⟨_, .basic hvalue, rfl, s, rfl⟩
      | _ => cases htype
    obtain ⟨vs, hvs⟩ := exists_forall₂ hstrings
    have hsigs := forall_of_forall₂ hvs fun _ _ h => h.2.1
    have hdecodes := Decodes.array hvalid hnot (hvs.imp fun _ _ h => h.1) hsigs
    obtain ⟨-, rfl⟩ := DbusType.array.inj (hreads.decodes.unique hdecodes)
    exact forall_of_forall₂ hvs fun _ _ h => h.2.2

/-- `get_args` on one variable for a container. -/
theorem getArgs_settles {m : Message} {w : Wire} {rest : ReadIter} {v : DbusType}
    (arg : DbusType) (hv : Reads w v) (hbody : m.body = w :: rest) :
    Settles (fun fuel => m.getArgs fuel false (.dbus arg) [])
      (if acceptsArg false arg v then
        match arg.moveAssign v with
        | .ok arg' => .ok (true, [.dbus arg'])
        | .error e => .throw e
      else .ok (false, [.dbus arg])) := by
  refine hv.decodes.mono fun fuel hdecode => ?_
  cases haccepts : acceptsArg false arg v with
  | false => simp [Message.getArgs, hbody, getArgsImpl, getArg, hdecode, haccepts]
  | true =>
    cases hassign : arg.moveAssign v with
    | ok arg' => simp [Message.getArgs, hbody, getArgsImpl, getArg, hdecode, haccepts, hassign]
    | error e => simp [Message.getArgs, hbody, getArgsImpl, getArg, hdecode, haccepts, hassign]

theorem names_reports_iff (msg : Request) (hvalid : ∀ w ∈ reply.message.body, w.Valid) :
    (Sync.sendAndWait msg handleSetStringReply).Reports reply (HasResult reply (text "as")) ↔
      ¬ MisreadReply .names reply := by
  apply reports_iff_of_argument
  case herror =>
    exact fun herror => ⟨(Retvalue.of []).err (-1) (replyError reply),
      .of_forall fun fuel => by simp [Sync.run, handleSetStringReply, herror], rfl⟩
  case hnil =>
    exact fun herror hbody => ⟨(Retvalue.of []).err (-1) (invalidReply (text "as") reply),
      .of_forall fun fuel => by
        simp [Sync.run, handleSetStringReply, herror, Message.getArgs, hbody], rfl⟩
  case hcons =>
    intro herror w rest hbody
    rw [hbody] at hvalid
    obtain ⟨v, hv⟩ := (hvalid w List.mem_cons_self).exists_reads
    have hget := getArgs_settles (.array (text "as") []) hv hbody
    cases v with
    | array sig items =>
      have hsig : sig = w.signature := hv.signature
      have harray : w.isArray = true := hv.isArray.symm
      cases hnames : emplaceNames [] items with
      | ok names =>
        have hsettles : Settles
            (fun fuel => (Sync.sendAndWait msg handleSetStringReply).run fuel reply)
            (.ok ⟨names, 0, []⟩) :=
          hget.mono fun fuel hget => by
            simp [Sync.run, handleSetStringReply, herror, hget, acceptsArg, DbusType.isArray,
              DbusType.moveAssign, hnames, Retvalue.of]
        rw [reports_of_settles hsettles, HasResult.signature hbody, misreadReply_cons hbody]
        simp [herror, Result.Misreads, harray]
      | error e =>
        have hsettles : Settles
            (fun fuel => (Sync.sendAndWait msg handleSetStringReply).run fuel reply)
            (.throw e) :=
          hget.mono fun fuel hget => by
            simp [Sync.run, handleSetStringReply, herror, hget, acceptsArg, DbusType.isArray,
              DbusType.moveAssign, hnames]
        refine iff_of_false (not_reports_of_settles hsettles) ?_
        rw [misreadReply_cons hbody, not_not]
        refine ⟨herror, harray, fun hstrings => ?_⟩
        -- An array of strings can be taken.
        obtain ⟨items', names, hv', hnames'⟩ :=
          exists_reads_strings (hvalid w List.mem_cons_self) hstrings
        obtain ⟨-, rfl⟩ := DbusType.array.inj (hv.decodes.unique hv'.decodes)
        rw [hnames'] at hnames
        cases hnames
    | _ =>
      have harray : w.isArray = false := hv.isArray.symm
      have hfails : (Sync.sendAndWait msg handleSetStringReply).TellsFailure reply :=
        ⟨(Retvalue.of []).err (-1) (invalidReply (text "as") reply), hget.mono fun fuel hget => by
          simp [Sync.run, handleSetStringReply, herror, hget, acceptsArg, DbusType.isArray], rfl⟩
      refine hfails.reports ⟨?_, ?_⟩
      · rw [HasResult.signature hbody]
        rintro ⟨-, hstrings⟩
        obtain ⟨items, -, hv', -⟩ :=
          exists_reads_strings (hvalid w List.mem_cons_self) hstrings
        cases hv.decodes.unique hv'.decodes
      · rw [misreadReply_cons hbody]
        rintro ⟨-, htrue, -⟩
        exact absurd (harray.symm.trans htrue) (by decide)

theorem credentials_reports_iff (msg : Request) (hvalid : ∀ w ∈ reply.message.body, w.Valid) :
    (Sync.sendAndWait msg handleDictStrVariantReply).Reports reply
        (HasResult reply (text "a{sv}")) ↔ ¬ MisreadReply .credentials reply := by
  let dict := DbusType.dict .string (text "a{sv}") []
  apply reports_iff_of_argument
  case herror =>
    exact fun herror => ⟨(Retvalue.of dict).err (-1) (replyError reply),
      .of_forall fun fuel => by simp [Sync.run, handleDictStrVariantReply, herror, dict], rfl⟩
  case hnil =>
    exact fun herror hbody => ⟨(Retvalue.of dict).err (-1) (invalidReply (text "a{sv}") reply),
      .of_forall fun fuel => by
        simp [Sync.run, handleDictStrVariantReply, herror, Message.getArgs, hbody, dict], rfl⟩
  case hcons =>
    intro herror w rest hbody
    rw [hbody] at hvalid
    obtain ⟨v, hv⟩ := (hvalid w List.mem_cons_self).exists_reads
    have hget := getArgs_settles dict hv hbody
    cases v with
    | dict key sig items =>
      have hsig : sig = w.signature := hv.signature
      have hdict : w.isDict = true := hv.isDict.symm
      by_cases hkey : key = .string
      · subst hkey
        have hsettles : Settles
            (fun fuel => (Sync.sendAndWait msg handleDictStrVariantReply).run fuel reply)
            (.ok ⟨.dict .string sig items, 0, []⟩) :=
          hget.mono fun fuel hget => by
            simp [Sync.run, handleDictStrVariantReply, herror, hget, acceptsArg,
              DbusType.isArray, DbusType.isDict, DbusType.moveAssign, Retvalue.of, dict]
        rw [reports_of_settles hsettles, HasResult.signature hbody, misreadReply_cons hbody]
        simp [herror, Result.Misreads, hdict]
      · have hsettles : Settles
            (fun fuel => (Sync.sendAndWait msg handleDictStrVariantReply).run fuel reply)
            (.throw .badCast) :=
          hget.mono fun fuel hget => by
            simp [Sync.run, handleDictStrVariantReply, herror, hget, acceptsArg,
              DbusType.isArray, DbusType.isDict, DbusType.moveAssign, hkey, Retvalue.of, dict]
        refine iff_of_false (not_reports_of_settles hsettles) ?_
        rw [misreadReply_cons hbody, not_not]
        refine ⟨herror, hdict, fun hvariants => hkey ?_⟩
        -- The key class is that of the signature.
        obtain ⟨value, rfl⟩ := hv.fits
        have hcode : dictSignature key value = dictSignature .string (text "v") :=
          hsig.trans hvariants
        exact (dictSignature_injective hcode).1
    | _ =>
      have hdict : w.isDict = false := hv.isDict.symm
      have hfails : (Sync.sendAndWait msg handleDictStrVariantReply).TellsFailure reply :=
        ⟨(Retvalue.of dict).err (-1) (invalidReply (text "a{sv}") reply),
          hget.mono fun fuel hget => by
            simp [Sync.run, handleDictStrVariantReply, herror, hget, acceptsArg, DbusType.isArray,
              DbusType.isDict, Retvalue.of, dict], rfl⟩
      refine hfails.reports ⟨?_, ?_⟩
      · rw [HasResult.signature hbody]
        rintro ⟨-, hvariants⟩
        obtain ⟨items, hv', -⟩ :=
          (hvalid w List.mem_cons_self).exists_reads_dict .string (text "v") hvariants
        cases hv.decodes.unique hv'.decodes
      · rw [misreadReply_cons hbody]
        rintro ⟨-, htrue, -⟩
        exact absurd (hdict.symm.trans htrue) (by decide)

end Replies

/-! ## All functions -/

section Functions

variable {reply : FullMessage} {sig : Bytes} (c : Connection)

theorem checkName_of_ok {α : Type} {call : Sync α} {r : Result}
    (hcall : call.Reports reply (HasResult reply sig) ↔ ¬ MisreadReply r reply) (name : Bytes)
    (ret : Retvalue α) (invalid : Bytes) :
    (checkName c name (.ok ret) invalid call).Reports reply
        ((c.isConnected && c.dbusValidateBusName (cStr name)) = true ∧ HasResult reply sig) ↔
      ((c.isConnected && c.dbusValidateBusName (cStr name)) = true → ¬ MisreadReply r reply) := by
  rw [checkName_reports_iff]
  split
  case isTrue haccepted => simp [haccepted, hcall]
  case isFalse haccepted => simp [haccepted]

theorem checkName_of_error {α : Type} {call : Sync α} {r : Result}
    (hcall : call.Reports reply (HasResult reply sig) ↔ ¬ MisreadReply r reply) (name : Bytes)
    (e : Exception) (invalid : Bytes) :
    (checkName c name (.error e) invalid call).Reports reply
        ((c.isConnected && c.dbusValidateBusName (cStr name)) = true ∧ HasResult reply sig) ↔
      (c.isConnected && c.dbusValidateBusName (cStr name)) = true ∧ ¬ MisreadReply r reply := by
  rw [checkName_reports_iff]
  split
  case isTrue haccepted => simp [haccepted, hcall]
  case isFalse haccepted => simp [haccepted]

theorem checkConnected_of_call {α : Type} {call : Sync α} {r : Result}
    (hcall : call.Reports reply (HasResult reply sig) ↔ ¬ MisreadReply r reply) (value : α) :
    (checkConnected c value call).Reports reply (c.isConnected = true ∧ HasResult reply sig) ↔
      (c.isConnected = true → ¬ MisreadReply r reply) := by
  rw [checkConnected_reports_iff, hcall]

/-- A function reports what it should unless it meets an argument that it misreads, and
    `get_connection_credentials` unless it returns before it has sent anything. -/
theorem Method.reports_iff (m : Method) (hsig : m.result.signature = some sig)
    (hvalid : ∀ w ∈ reply.message.body, w.Valid) :
    m.Reports c reply sig ↔ (m.result = .credentials → m.accepted c = true) ∧
      (m.accepted c = true → ¬ MisreadReply m.result reply) := by
  have hothers : m.result ≠ .credentials →
      (m.Reports c reply sig ↔ (m.accepted c = true → ¬ MisreadReply m.result reply)) →
      (m.Reports c reply sig ↔ (m.result = .credentials → m.accepted c = true) ∧
        (m.accepted c = true → ¬ MisreadReply m.result reply)) := by
    intro hne h
    rw [h]
    exact ⟨fun h => ⟨fun heq => absurd heq hne, h⟩, And.right⟩
  have huint32 := fun msg => callMethod_reports_iff uint32 msg hvalid .uint32
    (fun w => ⟨False.elim, fun h => absurd h.1 (by decide)⟩)
  have hboolean := fun msg => callMethod_reports_iff boolean msg hvalid .boolean
    (fun w => ⟨False.elim, fun h => absurd h.1 (by decide)⟩)
  have hstring := fun msg => callMethod_reports_iff string msg hvalid .string
    (fun w => ⟨fun h => ⟨rfl, h⟩, And.right⟩)
  cases m with
  | requestName name flags | startServiceByName name flags =>
    obtain rfl := Option.some.inj hsig
    exact hothers (fun h => by cases h) (checkName_of_ok c (huint32 _) name _ _)
  | releaseName name | getConnectionUnixUser name | getConnectionUnixProcessId name =>
    obtain rfl := Option.some.inj hsig
    exact hothers (fun h => by cases h) (checkName_of_ok c (huint32 _) name _ _)
  | nameHasOwner name =>
    obtain rfl := Option.some.inj hsig
    exact hothers (fun h => by cases h) (checkName_of_ok c (hboolean _) name _ _)
  | getNameOwner name =>
    obtain rfl := Option.some.inj hsig
    exact hothers (fun h => by cases h) (checkName_of_ok c (hstring _) name _ _)
  | getId =>
    obtain rfl := Option.some.inj hsig
    exact hothers (fun h => by cases h) (checkConnected_of_call c (hstring _) _)
  | listQueuedOwners name =>
    obtain rfl := Option.some.inj hsig
    exact hothers (fun h => by cases h) (checkName_of_ok c (names_reports_iff _ hvalid) name _ _)
  | listNames | listActivatableNames =>
    obtain rfl := Option.some.inj hsig
    exact hothers (fun h => by cases h) (checkConnected_of_call c (names_reports_iff _ hvalid) _)
  | getConnectionCredentials name =>
    obtain rfl := Option.some.inj hsig
    have hzero : dictOfZero = .error DictObject.invalidValueSignature := rfl
    have hreports : (getConnectionCredentials name).Reports c reply (text "a{sv}") ↔
        (getConnectionCredentials name).accepted c = true ∧
          ¬ MisreadReply .credentials reply := by
      show (checkName c name dictOfZero _ _).Reports _ _ ↔ _
      rw [hzero]
      exact checkName_of_error c (credentials_reports_iff _ hvalid) name _ _
    rw [hreports]
    constructor
    · rintro ⟨haccepted, hread⟩
      exact ⟨fun _ => haccepted, fun _ => hread⟩
    · rintro ⟨haccepted, hread⟩
      exact ⟨haccepted rfl, hread (haccepted rfl)⟩
  | updateActivationEnvironment env => cases hsig
  | becomeMonitor rules => cases hsig

end Functions

/-! ## Some replies -/

/-- A reply with one argument. -/
def answer (w : Wire) : FullMessage where
  ctx := some (⟨dbusMessageTypeMethodReturn, [w]⟩,
    { destination := none, path := none, interface := none, member := none, errorName := none,
      sender := none, serial := 2, replySerial := 1 })

theorem answer_valid {w : Wire} (h : w.Valid) : ∀ w' ∈ (answer w).message.body, w'.Valid := by
  intro w' hw'
  obtain rfl := List.mem_singleton.mp hw'
  exact h

def connected : Connection := ⟨true, true, fun _ => true⟩

def notConnected : Connection := ⟨false, false, fun _ => true⟩

def namesArray : Wire := .array (text "s") [.basic (.string (text ":1.1"))]

def numbersArray : Wire := .array (text "i") [.basic (.int32 1)]

def stringsDict : Wire := .array (dictEntrySignature .string (text "s")) []

theorem namesArray_valid : namesArray.Valid := by
  have hname : (Basic.string (text ":1.1")).Valid := by decide
  refine .array (by decide) (by decide) (fun w hw => ?_) fun w hw => ?_
  · obtain rfl := List.mem_singleton.mp hw
    rfl
  · obtain rfl := List.mem_singleton.mp hw
    exact .basic hname

theorem numbersArray_valid : numbersArray.Valid := by
  refine .array (by decide) (by decide) (fun w hw => ?_) fun w hw => ?_
  · obtain rfl := List.mem_singleton.mp hw
    rfl
  · obtain rfl := List.mem_singleton.mp hw
    exact .basic trivial

theorem stringsDict_valid : stringsDict.Valid := by
  have hdict : (Wire.array (dictEntrySignature .string (text "s"))
      (([] : List (Basic × Wire)).map Wire.entry)).Valid :=
    .dict (by decide) (fun e he => absurd he List.not_mem_nil)
      (fun e he => absurd he List.not_mem_nil) fun e he => absurd he List.not_mem_nil
  exact hdict

theorem listNames_reports : Method.listNames.Reports connected (answer namesArray) (text "as") := by
  refine (Method.reports_iff connected .listNames rfl (answer_valid namesArray_valid)).mpr
    ⟨fun h => Result.noConfusion h, fun _ => ?_⟩
  rintro ⟨-, w, hw, -, hother⟩
  obtain rfl := Option.some.inj hw
  exact hother rfl

/-- Without a connection the credentials throw; names that are numbers throw, an object path is
    taken for an id, and a dict of strings for credentials. -/
theorem not_reports :
    ¬ (Method.getConnectionCredentials (text "a.b")).Reports notConnected (answer namesArray)
      (text "a{sv}") ∧
    ¬ Method.listNames.Reports connected (answer numbersArray) (text "as") ∧
    ¬ Method.getId.Reports connected (answer (.basic (.objectPath (text "/a")))) (text "s") ∧
    ¬ (Method.getConnectionCredentials (text "a.b")).Reports connected
      (answer stringsDict) (text "a{sv}") := by
  have hpath : (Wire.basic (.objectPath (text "/a"))).Valid := .basic (by decide)
  refine ⟨?_, ?_, ?_, ?_⟩
  · have hzero : dictOfZero = .error DictObject.invalidValueSignature := rfl
    show ¬ (getConnectionCredentials notConnected (text "a.b")).Reports _ _
    rw [getConnectionCredentials, hzero]
    intro h
    exact absurd ((checkName_reports_iff notConnected _ _ _ _).mp h) (by simp [notConnected])
  · intro h
    have hread := (checkConnected_of_call connected
      (names_reports_iff _ (answer_valid numbersArray_valid)) []).mp h rfl
    exact hread ⟨rfl, numbersArray, rfl, rfl, by decide⟩
  · intro h
    have hread := (checkConnected_of_call connected (callMethod_reports_iff string _
      (answer_valid hpath) .string fun w => ⟨fun h => ⟨rfl, h⟩, And.right⟩) string).mp h rfl
    exact hread ⟨rfl, _, rfl, .inl rfl⟩
  · intro h
    have hread := (checkName_of_error connected (credentials_reports_iff _
      (answer_valid stringsDict_valid)) (text "a.b") DictObject.invalidValueSignature
      (text "Invalid service name")).mp h
    exact hread.2 ⟨rfl, stringsDict, rfl, rfl, by decide⟩

end Ultrabus.Bus
