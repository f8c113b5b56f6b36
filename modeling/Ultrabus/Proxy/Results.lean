import Ultrabus.Connection.BusMethods
import Ultrabus.Filter.MatchRules
import Ultrabus.Lib.Dialog
import Ultrabus.Proxy.Rules

/-! # Results that report success

The functions of filters, proxies and connections that return a `retvalue<bool>` to tell whether
they have succeeded.  The value, the error code and the description of a result are set one by
one, and what a `return` makes of them depends on the type of the expression that is returned.

Other threads may run between any two steps of a function, so what it reads is an answer of its
surroundings: whether the connection is up, the reply to a request, and the data that a mutex
protects, when the mutex is locked. -/

namespace Ultrabus

/-! ## Assignments of results -/

namespace Bus.Retvalue

variable {α : Type}

/-- `retvalue<T>& operator= (retvalue<T>&& rhs)`. -/
def assign (ret rhs : Retvalue α) : Retvalue α :=
  { ret with value := rhs.value, errNum := rhs.errNum, errStr := rhs.errStr }

/-- `T& operator= (T&& rhs)`: the changed result, and the value as what is returned. -/
def assignValue (ret : Retvalue α) (rhs : α) : Retvalue α × α := ({ ret with value := rhs }, rhs)

end Bus.Retvalue

namespace Results

open Bus (Retvalue Request Sync replyError dbusServiceDbus dbusPathDbus dbusInterfaceDbus)
open MatchRules (Op)
open Proxy (dbusValidateInterface makePropsChangedRule)

/-! ## What the functions ask -/

/-- `κ` is the type of the callbacks. -/
inductive Question (κ : Type) where
  | isConnected
  | sendAndWait (msg : Request) (timeout : Int)
  | lockMatchRules
  | unlockMatchRules (matchRules : Finset Bytes)
  | lockPropsChanged
  | unlockPropsChanged (propsChangedCallbacks : Bytes × Bytes → Option κ)

abbrev Question.Answer {κ : Type} : Question κ → Type
  | .isConnected => Bool
  | .sendAndWait _ _ => FullMessage
  | .lockMatchRules => Finset Bytes
  | .lockPropsChanged => Bytes × Bytes → Option κ
  | .unlockMatchRules _ | .unlockPropsChanged _ => Unit

abbrev Program (κ α : Type) := Dialog (Option Exception) (Question.Answer (κ := κ)) α

variable {κ α : Type}

def isConnected : Program κ Bool := Dialog.question Question.isConnected

def sendAndWait (msg : Request) (timeout : Int) : Program κ FullMessage :=
  Dialog.question (Question.sendAndWait msg timeout)

/-- `match_rule_mutex` is locked. -/
def lockMatchRules : Program κ (Finset Bytes) := Dialog.question Question.lockMatchRules

def unlockMatchRules (matchRules : Finset Bytes) : Program κ Unit :=
  Dialog.question (Question.unlockMatchRules matchRules)

/-- `props_changed_mutex` is locked. -/
def lockPropsChanged : Program κ (Bytes × Bytes → Option κ) :=
  Dialog.question Question.lockPropsChanged

def unlockPropsChanged (propsChangedCallbacks : Bytes × Bytes → Option κ) : Program κ Unit :=
  Dialog.question (Question.unlockPropsChanged propsChangedCallbacks)

def dbusTimeoutUseDefault : Int := -1

/-! ## The functions -/

/-- The end of the functions whose reply has no arguments. -/
def replyResult (ret : Retvalue Bool) (reply : FullMessage) : Retvalue Bool :=
  if reply.isError then (ret.assignValue false).1.err (-1) (replyError reply) else ret

/-- The common body of `add_match` and `remove_match`. -/
def callMatch (op : Op) (method rule : Bytes) (timeout : Int) : Program κ (Retvalue Bool) := do
  if !(← isConnected) then
    return (Retvalue.of false).err (-1) (text "Not connected")
  else
    let retval := Retvalue.of true
    let matchRules ← lockMatchRules
    if op.nothingToDo matchRules rule then
      unlockMatchRules matchRules
      return retval
    else
      let reply ← sendAndWait
        ((Request.new dbusServiceDbus dbusPathDbus dbusInterfaceDbus method).appendArgs
          [.cpp (.string rule)]) timeout
      unlockMatchRules (if reply.isError then matchRules else op.update matchRules rule)
      return replyResult retval reply

/-- `message_filter::add_match (rule, timeout)`. -/
def addMatch : Bytes → Int → Program κ (Retvalue Bool) := callMatch .addMatch (text "AddMatch")

/-- `message_filter::remove_match (rule, timeout)`. -/
def removeMatch : Bytes → Int → Program κ (Retvalue Bool) :=
  callMatch .removeMatch (text "RemoveMatch")

/-- A function of the connection.  The connection is asked beforehand for both answers that the
    function may need; asking changes nothing. -/
def ofSync (dbusValidateBusName : Bytes → Bool) (fuel : Nat) (timeout : Int)
    (function : Bus.Connection → Sync α) : Program κ (Retvalue α) := do
  let connected ← isConnected
  let connectedAgain ← isConnected
  match function ⟨connected, connectedAgain, dbusValidateBusName⟩ with
  | .returns result => Dialog.ofExec (.ofExcept result)
  | .sendAndWait msg result =>
    let reply ← sendAndWait msg timeout
    Dialog.ofExec (result fuel reply)

/-- The value of a property, one constructor for each kind of overload. -/
inductive PropertyValue where
  | basic (value : CppValue)
  | dbusType (value : DbusType)
  | cString (value : Option Bytes)

/-- The `dbus_variant` that the overloads make of the value; none for a null pointer. -/
def PropertyValue.toVariant : PropertyValue → Option DbusType
  | .basic value => some (DbusVariant.ofPointer (some (.basic value.value)))
  | .dbusType value => some (DbusVariant.ofPointer (some value))
  | .cString none => none
  | .cString (some value) =>
    some (DbusVariant.ofPointer (some (.basic (newString (.cString (some value))))))

/-- The null check of the overloads for C strings, in front of the function for variants. -/
def withVariant (value : PropertyValue) (function : DbusType → Program κ (Retvalue Bool)) :
    Program κ (Retvalue Bool) :=
  match value.toVariant with
  | none => return (Retvalue.of false).err (-1) (text "Invalid null pointer argument")
  | some variant => function variant

/-- What `message (destination, path, DBUS_INTERFACE_PROPERTIES, "Set")` becomes with its
    arguments. -/
def setRequest (destination path interface propertyName : Bytes) (value : DbusType) : Request :=
  (Request.new destination path (text "org.freedesktop.DBus.Properties") (text "Set")).appendArgs
    [.cpp (.string interface), .cpp (.string propertyName), .dbusType value]

section Names

variable (dbusValidateBusName : Bytes → Bool)

/-- An `object_proxy`, as its constructor lets it pass. -/
structure ObjectProxy where
  target : Bytes
  opath : Bytes
  defTimeout : Int
  valid_target : dbusValidateBusName (cStr target) = true
  valid_opath : dbusValidatePath (cStr opath) = true

variable {dbusValidateBusName} in
/-- `object_proxy::set_iface_property` for a `dbus_variant`. -/
def setIfacePropertyVariant (proxy : ObjectProxy dbusValidateBusName)
    (interface propertyName : Bytes) (timeout : Int) (value : DbusType) :
    Program κ (Retvalue Bool) := do
  let ret := Retvalue.of true
  if interface = [] || !dbusValidateInterface interface then
    let ret := ret.err (-1) (text "Invalid interface name")
    -- `return ret=false`: a new result is made of the `bool&`.
    return Retvalue.of (ret.assignValue false).2
  else
    let reply ← sendAndWait (setRequest proxy.target proxy.opath interface propertyName value)
      (if timeout < 0 then proxy.defTimeout else timeout)
    return replyResult ret reply

variable {dbusValidateBusName} in
/-- The overloads of `object_proxy::set_iface_property`. -/
def setIfaceProperty (proxy : ObjectProxy dbusValidateBusName) (interface propertyName : Bytes)
    (value : PropertyValue) (timeout : Int) : Program κ (Retvalue Bool) :=
  withVariant value (setIfacePropertyVariant proxy interface propertyName timeout)

/-- `org_freedesktop_DBus_Properties::set` for a `dbus_variant`. -/
def setVariant (busName opath interfaceName propertyName : Bytes) (timeout : Int)
    (value : DbusType) : Program κ (Retvalue Bool) := do
  let ret := Retvalue.of true
  if !dbusValidateBusName (cStr busName) then
    let ret := ret.err (-1) (text "Invalid bus name")
    return Retvalue.of (ret.assignValue false).2
  else if !dbusValidatePath (cStr opath) then
    let ret := ret.err (-1) (text "Invalid object path")
    return Retvalue.of (ret.assignValue false).2
  else if !dbusValidateInterface interfaceName then
    let ret := ret.err (-1) (text "Invalid interface name")
    return Retvalue.of (ret.assignValue false).2
  else
    let reply ← sendAndWait (setRequest busName opath interfaceName propertyName value) timeout
    return replyResult ret reply

/-- The overloads of `org_freedesktop_DBus_Properties::set`. -/
def set (busName opath interfaceName propertyName : Bytes) (value : PropertyValue)
    (timeout : Int) : Program κ (Retvalue Bool) :=
  withVariant value
    (setVariant dbusValidateBusName busName opath interfaceName propertyName timeout)

/-- `set_properties_changed_callback_impl`; a null callback is none. -/
def setPropertiesChangedCallbackImpl (busName opath : Bytes) (callback : Option κ) :
    Program κ (Retvalue Bool) := do
  let propsChangedCallbacks ← lockPropsChanged
  let ret := Retvalue.of true
  let key := (busName, opath)
  match callback, propsChangedCallbacks key with
  | some callback, none =>
    -- Add callback
    let propsChangedCallbacks := Function.update propsChangedCallbacks key (some callback)
    let ret := ret.assign (← addMatch (makePropsChangedRule busName opath) dbusTimeoutUseDefault)
    unlockPropsChanged
      (if !ret.value then Function.update propsChangedCallbacks key none
      else propsChangedCallbacks)
    return ret
  | some callback, some _ =>
    -- Replace callback
    unlockPropsChanged (Function.update propsChangedCallbacks key (some callback))
    return ret
  | none, some _ =>
    -- Remove callback
    let _ ← removeMatch (makePropsChangedRule busName opath) dbusTimeoutUseDefault
    unlockPropsChanged (Function.update propsChangedCallbacks key none)
    return ret
  | none, none =>
    unlockPropsChanged propsChangedCallbacks
    return ret

/-- The conversion of a `retvalue<std::string>` to its text. -/
def toText (ret : Retvalue CppValue) : Bytes :=
  match ret.value.value with
  | .string s => s
  | _ => []

/-- `org_freedesktop_DBus_Properties::set_properties_changed_callback`. -/
def setPropertiesChangedCallback (fuel : Nat) (busName opath : Bytes) (callback : Option κ) :
    Program κ (Retvalue Bool) := do
  if !dbusValidateBusName (cStr busName) then
    return (Retvalue.of false).err (-1) (text "Invalid bus name")
  else if !dbusValidatePath (cStr opath) then
    return (Retvalue.of false).err (-1) (text "Invalid object path")
  else if busName.head? = some ':'.toUInt8 then
    setPropertiesChangedCallbackImpl busName opath callback
  else
    let uniqueBusName ← ofSync dbusValidateBusName fuel dbusTimeoutUseDefault
      fun c => Bus.getNameOwner c busName
    if uniqueBusName.errNum ≠ 0 then
      return (Retvalue.of false).err (-1) uniqueBusName.errStr
    else setPropertiesChangedCallbackImpl (toText uniqueBusName) opath callback

/-! ## All functions -/

/-- A call of one of the functions, with its arguments. -/
inductive Operation (κ : Type) where
  | addMatch (rule : Bytes) (timeout : Int)
  | removeMatch (rule : Bytes) (timeout : Int)
  | setIfaceProperty (proxy : ObjectProxy dbusValidateBusName) (interface propertyName : Bytes)
      (value : PropertyValue) (timeout : Int)
  | set (busName opath interfaceName propertyName : Bytes) (value : PropertyValue) (timeout : Int)
  | setPropertiesChangedCallback (busName opath : Bytes) (callback : Option κ)
  | updateActivationEnvironment (env : List (Bytes × Bytes)) (timeout : Int)
  | becomeMonitor (rules : List Bytes) (timeout : Int)

variable {dbusValidateBusName}

def Operation.run (fuel : Nat) : Operation dbusValidateBusName κ → Program κ (Retvalue Bool)
  | .addMatch rule timeout => Results.addMatch rule timeout
  | .removeMatch rule timeout => Results.removeMatch rule timeout
  | .setIfaceProperty proxy interface propertyName value timeout =>
    Results.setIfaceProperty proxy interface propertyName value timeout
  | .set busName opath interfaceName propertyName value timeout =>
    Results.set dbusValidateBusName busName opath interfaceName propertyName value timeout
  | .setPropertiesChangedCallback busName opath callback =>
    Results.setPropertiesChangedCallback dbusValidateBusName fuel busName opath callback
  | .updateActivationEnvironment env timeout =>
    ofSync dbusValidateBusName fuel timeout fun c => Bus.updateActivationEnvironment c env
  | .becomeMonitor rules timeout =>
    ofSync dbusValidateBusName fuel timeout fun c => Bus.becomeMonitor c rules

/-- The value and the error agree, and a failure is described. -/
structure Consistent (ret : Retvalue Bool) : Prop where
  value_iff : ret.value = true ↔ ret.errNum = 0
  described : ret.value = false → ret.errStr ≠ []

/-- Whatever the state of the connection and of the data is and whatever the bus replies, the
    result is consistent. -/
def Operation.Reports (operation : Operation dbusValidateBusName κ) : Prop :=
  ∀ fuel ret, (operation.run fuel).MayReturn ret → Consistent ret

/-- The functions that set a property get a null pointer, or names that pass their checks. -/
def Operation.NamesPass : Operation dbusValidateBusName κ → Prop
  | .setIfaceProperty _ interface _ value _ =>
    value ≠ .cString none → dbusValidateInterface interface = true
  | .set busName opath interfaceName _ value _ =>
    value ≠ .cString none → dbusValidateBusName (cStr busName) = true ∧
      dbusValidatePath (cStr opath) = true ∧ dbusValidateInterface interfaceName = true
  | _ => True

end Names

/-! ## Consistent results -/

theorem consistent_success : Consistent (.of true) where
  value_iff := by simp [Retvalue.of]
  described := by simp [Retvalue.of]

theorem consistent_failure {ret : Retvalue Bool} {description : Bytes} (hvalue : ret.value = false)
    (hdescription : description ≠ []) : Consistent (ret.err (-1) description) where
  value_iff := by simp [Retvalue.err, hvalue]
  described _ := hdescription

theorem consistent_notConnected : Consistent ⟨false, -1, text "Not connected"⟩ :=
  consistent_failure (show (Retvalue.of false).value = false from rfl) (by decide)

/-- The result that is made of the value alone has lost the error. -/
theorem not_consistent_false : ¬ Consistent (.of false) := by
  intro h
  have hvalue : false = true := h.value_iff.mpr rfl
  cases hvalue

theorem replyError_ne_nil (reply : FullMessage) : replyError reply ≠ [] := by
  have hcolon : text ": " ≠ [] := by decide
  simp [replyError, hcolon]

theorem consistent_replyResult (reply : FullMessage) :
    Consistent (replyResult (.of true) reply) := by
  unfold replyResult
  split
  · exact consistent_failure rfl (replyError_ne_nil reply)
  · exact consistent_success

/-- All three parts are assigned. -/
theorem Consistent.assign {rhs : Retvalue Bool} (h : Consistent rhs) (ret : Retvalue Bool) :
    Consistent (ret.assign rhs) := ⟨h.value_iff, h.described⟩

/-- A function that gives up before it has asked anything. -/
theorem ensures_refused {reason : Bytes} (hreason : reason ≠ []) :
    (pure ((Retvalue.of false).err (-1) reason) : Program κ (Retvalue Bool)).Ensures
      Consistent :=
  Dialog.ensures_pure.mpr (consistent_failure rfl hreason)

/-- A mutex that is unlocked at the end does not change the result. -/
theorem ensures_unlock (unlock : Program κ Unit) {ret : Retvalue Bool} (h : Consistent ret) :
    (do
      unlock
      return ret : Program κ (Retvalue Bool)).Ensures Consistent := by
  apply Dialog.ensures_bind_of_forall
  intro _
  exact Dialog.ensures_pure.mpr h

/-! ## Functions of the filter -/

theorem ensures_callMatch (op : Op) (method rule : Bytes) (timeout : Int) :
    (callMatch op method rule timeout : Program κ (Retvalue Bool)).Ensures Consistent := by
  apply Dialog.ensures_bind_of_forall
  intro connected
  apply Dialog.ensures_ite
  case hthen =>
    intro _
    exact ensures_refused (by decide)
  case helse =>
    intro _
    apply Dialog.ensures_bind_of_forall
    intro matchRules
    apply Dialog.ensures_ite
    case hthen =>
      intro _
      exact ensures_unlock _ consistent_success
    case helse =>
      intro _
      apply Dialog.ensures_bind_of_forall
      intro reply
      exact ensures_unlock _ (consistent_replyResult reply)

/-- A request that is answered at once leaves `match_rules` and returns its value as the calls
    of an undisturbed filter do. -/
theorem syncResult_eq_of_reply {op : Op} {matchRules : Finset Bytes} {rule : Bytes}
    (reply : FullMessage) (hwork : op.nothingToDo matchRules rule = false) :
    MatchRules.syncResult op matchRules rule (!reply.isError) =
      (if reply.isError then matchRules else op.update matchRules rule,
        (replyResult (.of true) reply).value) := by
  unfold MatchRules.syncResult replyResult
  rw [if_neg (by simp [hwork])]
  cases reply.isError with
  | true => rfl
  | false => rfl

/-! ## Functions of the connection -/

/-- What the function returns, or makes of any reply, has the property. -/
def SyncEnsures (P : Retvalue α → Prop) : Sync α → Prop
  | .returns result => ∀ ret, result = .ok ret → P ret
  | .sendAndWait _ result => ∀ fuel reply ret, result fuel reply = .ok ret → P ret

theorem ensures_ofSync {P : Retvalue α → Prop} (dbusValidateBusName : Bytes → Bool) (fuel : Nat)
    (timeout : Int) {function : Bus.Connection → Sync α}
    (h : ∀ c, SyncEnsures P (function c)) :
    (ofSync dbusValidateBusName fuel timeout function : Program κ (Retvalue α)).Ensures P := by
  apply Dialog.ensures_bind_of_forall
  intro connected
  apply Dialog.ensures_bind_of_forall
  intro connectedAgain
  have hfunction := h ⟨connected, connectedAgain, dbusValidateBusName⟩
  cases hcall : function ⟨connected, connectedAgain, dbusValidateBusName⟩ with
  | returns result =>
    rw [hcall] at hfunction
    dsimp only
    rw [Dialog.ensures_ofExec]
    intro ret hret
    exact hfunction ret (Exec.ofExcept_eq_ok_iff.mp hret)
  | sendAndWait msg result =>
    rw [hcall] at hfunction
    dsimp only
    apply Dialog.ensures_bind_of_forall
    intro reply
    rw [Dialog.ensures_ofExec]
    exact hfunction fuel reply

theorem syncEnsures_checkConnected {P : Retvalue α → Prop} {c : Bus.Connection} {value : α}
    {call : Sync α} (hrefused : P ⟨value, -1, text "Not connected"⟩) (hcall : SyncEnsures P call) :
    SyncEnsures P (Bus.checkConnected c value call) := by
  unfold Bus.checkConnected
  split
  · intro ret hret
    cases hret
    exact hrefused
  · exact hcall

theorem syncEnsures_replyWithVoid (msg : Request) :
    SyncEnsures Consistent (Bus.syncCallMethodReplyWithVoid msg) := by
  intro fuel reply ret hret
  have hresult : ret = replyResult (.of true) reply := by
    cases herror : reply.isError with
    | true =>
      simp only [herror, if_true] at hret
      rw [replyResult, if_pos herror]
      exact (Exec.ok.inj hret).symm
    | false =>
      simp only [herror] at hret
      rw [replyResult, herror]
      exact (Exec.ok.inj hret).symm
  rw [hresult]
  exact consistent_replyResult reply

theorem syncEnsures_error {P : Retvalue α → Prop} (e : Exception) :
    SyncEnsures P (.returns (.error e)) := by
  intro ret hret
  cases hret

/-- A function that checks the connection before it makes its request. -/
theorem ensures_checkConnected (dbusValidateBusName : Bytes → Bool) (fuel : Nat) (timeout : Int)
    {call : Sync Bool} (hcall : SyncEnsures Consistent call) :
    (ofSync dbusValidateBusName fuel timeout fun c => Bus.checkConnected c false call :
      Program κ (Retvalue Bool)).Ensures Consistent := by
  apply ensures_ofSync
  intro c
  exact syncEnsures_checkConnected consistent_notConnected hcall

theorem ensures_updateActivationEnvironment (dbusValidateBusName : Bytes → Bool) (fuel : Nat)
    (env : List (Bytes × Bytes)) (timeout : Int) :
    (ofSync dbusValidateBusName fuel timeout fun c => Bus.updateActivationEnvironment c env :
      Program κ (Retvalue Bool)).Ensures Consistent := by
  apply ensures_checkConnected
  cases Bus.dictOf env with
  | ok dict => exact syncEnsures_replyWithVoid _
  | error e => exact syncEnsures_error e

theorem ensures_becomeMonitor (dbusValidateBusName : Bytes → Bool) (fuel : Nat)
    (rules : List Bytes) (timeout : Int) :
    (ofSync dbusValidateBusName fuel timeout fun c => Bus.becomeMonitor c rules :
      Program κ (Retvalue Bool)).Ensures Consistent := by
  apply ensures_checkConnected
  cases Bus.arrayOf rules with
  | ok array => exact syncEnsures_replyWithVoid _
  | error e => exact syncEnsures_error e

/-- An error of a result with another value is described. -/
def Described (ret : Retvalue α) : Prop := ret.errNum ≠ 0 → ret.errStr ≠ []

theorem Described.err (ret : Retvalue α) (e : Int) {description : Bytes}
    (h : description ≠ []) : Described (ret.err e description) := fun _ => h

theorem syncEnsures_checkName {c : Bus.Connection} {name : Bytes}
    {ret : Except Exception (Retvalue α)} {invalid : Bytes} {call : Sync α}
    (hinvalid : invalid ≠ []) (hcall : SyncEnsures Described call) :
    SyncEnsures Described (Bus.checkName c name ret invalid call) := by
  unfold Bus.checkName
  split
  · intro result hresult
    cases ret with
    | error e => cases hresult
    | ok ret =>
      cases hagain : c.isConnectedAgain with
      | true =>
        have heq : ret.err (-1) invalid = result := by simpa [hagain] using hresult
        rw [← heq]
        exact .err ret (-1) hinvalid
      | false =>
        have heq : ret.err (-1) (text "Not connected") = result := by
          simpa [hagain] using hresult
        rw [← heq]
        exact .err ret (-1) (by decide)
  · exact hcall

theorem invalidBasicReply_ne_nil (code : UInt8) (reply : FullMessage) :
    Bus.invalidBasicReply code reply ≠ [] := by
  simp [Bus.invalidBasicReply]

theorem syncEnsures_callMethod (type : CppValue) (msg : Request) :
    SyncEnsures Described (Bus.syncCallMethod type msg) := by
  intro fuel reply ret hret
  cases herror : reply.isError with
  | true =>
    simp only [herror, if_true] at hret
    rw [← Exec.ok.inj hret]
    exact .err _ (-1) (replyError_ne_nil reply)
  | false =>
    simp only [herror] at hret
    obtain ⟨args, -, hret⟩ := Exec.bind_eq_ok_iff.mp hret
    split at hret
    · rw [← Exec.ok.inj hret]
      intro hno
      exact absurd rfl hno
    · rw [← Exec.ok.inj hret]
      exact .err _ (-1) (invalidBasicReply_ne_nil _ reply)

/-! ## The callback for changed properties -/

theorem ensures_setPropertiesChangedCallbackImpl (busName opath : Bytes) (callback : Option κ) :
    (setPropertiesChangedCallbackImpl busName opath callback).Ensures Consistent := by
  apply Dialog.ensures_bind_of_forall
  intro propsChangedCallbacks
  cases callback with
  | none =>
    cases hentry : propsChangedCallbacks (busName, opath) with
    | none =>
      simp only [hentry]
      exact ensures_unlock _ consistent_success
    | some installed =>
      simp only [hentry]
      apply Dialog.ensures_bind_of_forall
      intro _
      exact ensures_unlock _ consistent_success
  | some callback =>
    cases hentry : propsChangedCallbacks (busName, opath) with
    | none =>
      simp only [hentry]
      have hadd := ensures_callMatch (κ := κ) .addMatch (text "AddMatch")
        (makePropsChangedRule busName opath) dbusTimeoutUseDefault
      refine hadd.bind fun added hadded => ?_
      exact ensures_unlock _ (hadded.assign _)
    | some installed =>
      simp only [hentry]
      exact ensures_unlock _ consistent_success

theorem ensures_setPropertiesChangedCallback (dbusValidateBusName : Bytes → Bool) (fuel : Nat)
    (busName opath : Bytes) (callback : Option κ) :
    (setPropertiesChangedCallback dbusValidateBusName fuel busName opath callback).Ensures
      Consistent := by
  unfold setPropertiesChangedCallback
  apply Dialog.ensures_ite
  case hthen =>
    intro _
    exact ensures_refused (by decide)
  case helse =>
    intro _
    apply Dialog.ensures_ite
    case hthen =>
      intro _
      exact ensures_refused (by decide)
    case helse =>
      intro _
      apply Dialog.ensures_ite
      case hthen =>
        intro _
        exact ensures_setPropertiesChangedCallbackImpl busName opath callback
      case helse =>
        intro _
        have howner : (ofSync dbusValidateBusName fuel dbusTimeoutUseDefault
            fun c => Bus.getNameOwner c busName : Program κ _).Ensures Described := by
          apply ensures_ofSync
          intro c
          exact syncEnsures_checkName (by decide) (syncEnsures_callMethod _ _)
        refine howner.bind fun uniqueBusName hdescribed => ?_
        apply Dialog.ensures_ite
        case hthen =>
          intro herror
          exact ensures_refused (hdescribed herror)
        case helse =>
          intro _
          exact ensures_setPropertiesChangedCallbackImpl _ opath callback

/-! ## Setting a property -/

/-- What is returned for a name that does not pass; the error that has been set is lost. -/
def refusal : Program κ (Retvalue Bool) := pure (.of false)

theorem not_ensures_refusal : ¬ (refusal : Program κ (Retvalue Bool)).Ensures Consistent := by
  unfold refusal
  rw [Dialog.ensures_pure]
  exact not_consistent_false

theorem ensures_send (msg : Request) (timeout : Int) :
    (do
      let reply ← sendAndWait msg timeout
      return replyResult (.of true) reply : Program κ (Retvalue Bool)).Ensures Consistent := by
  apply Dialog.ensures_bind_of_forall
  intro reply
  exact Dialog.ensures_pure.mpr (consistent_replyResult reply)

theorem ensures_withVariant {value : PropertyValue}
    {function : DbusType → Program κ (Retvalue Bool)}
    (h : value ≠ .cString none → ∀ variant, (function variant).Ensures Consistent) :
    (withVariant value function).Ensures Consistent := by
  unfold withVariant
  cases hvariant : value.toVariant with
  | none => exact ensures_refused (by decide)
  | some variant =>
    apply h
    rintro rfl
    cases hvariant

theorem withVariant_eq {value : PropertyValue} (hvalue : value ≠ .cString none)
    {function : DbusType → Program κ (Retvalue Bool)} {result : Program κ (Retvalue Bool)}
    (h : ∀ variant, function variant = result) : withVariant value function = result := by
  unfold withVariant
  cases value with
  | basic value => exact h _
  | dbusType value => exact h _
  | cString value =>
    cases value with
    | none => exact absurd rfl hvalue
    | some value => exact h _

section Proxy

variable {dbusValidateBusName : Bytes → Bool} (proxy : ObjectProxy dbusValidateBusName)
  {interface : Bytes} (propertyName : Bytes) (timeout : Int) (value : DbusType)

theorem ensures_setIfacePropertyVariant (h : dbusValidateInterface interface = true) :
    (setIfacePropertyVariant proxy interface propertyName timeout value :
      Program κ (Retvalue Bool)).Ensures Consistent := by
  have hne : interface ≠ [] := by
    rintro rfl
    exact absurd h (by decide)
  unfold setIfacePropertyVariant
  rw [if_neg (by simp [h, hne])]
  exact ensures_send _ _

theorem setIfacePropertyVariant_eq_refusal (h : dbusValidateInterface interface = false) :
    (setIfacePropertyVariant proxy interface propertyName timeout value :
      Program κ (Retvalue Bool)) = refusal := by
  unfold setIfacePropertyVariant
  rw [if_pos (by simp [h])]
  rfl

end Proxy

section Properties

variable {dbusValidateBusName : Bytes → Bool} {busName opath interfaceName : Bytes}
  (propertyName : Bytes) (timeout : Int) (value : DbusType)

theorem ensures_setVariant (hname : dbusValidateBusName (cStr busName) = true)
    (hpath : dbusValidatePath (cStr opath) = true)
    (hinterface : dbusValidateInterface interfaceName = true) :
    (setVariant dbusValidateBusName busName opath interfaceName propertyName timeout value :
      Program κ (Retvalue Bool)).Ensures Consistent := by
  unfold setVariant
  rw [if_neg (by simp [hname]), if_neg (by simp [hpath]), if_neg (by simp [hinterface])]
  exact ensures_send _ _

/-- Each of the three checks refuses in the same way. -/
theorem setVariant_eq_refusal
    (h : ¬ (dbusValidateBusName (cStr busName) = true ∧ dbusValidatePath (cStr opath) = true ∧
      dbusValidateInterface interfaceName = true)) :
    (setVariant dbusValidateBusName busName opath interfaceName propertyName timeout value :
      Program κ (Retvalue Bool)) = refusal := by
  unfold setVariant
  cases hname : dbusValidateBusName (cStr busName) with
  | false => rfl
  | true =>
    cases hpath : dbusValidatePath (cStr opath) with
    | false => rfl
    | true =>
      cases hinterface : dbusValidateInterface interfaceName with
      | false => rfl
      | true => exact absurd ⟨hname, hpath, hinterface⟩ h

end Properties

/-! ## The functions together -/

variable {dbusValidateBusName : Bytes → Bool}

theorem Operation.reports_of_namesPass {operation : Operation dbusValidateBusName κ}
    (h : operation.NamesPass) : operation.Reports := by
  intro fuel
  cases operation with
  | addMatch rule timeout => exact ensures_callMatch _ _ rule timeout
  | removeMatch rule timeout => exact ensures_callMatch _ _ rule timeout
  | setIfaceProperty proxy interface propertyName value timeout =>
    exact ensures_withVariant fun hvalue =>
      ensures_setIfacePropertyVariant proxy propertyName timeout (h := h hvalue)
  | set busName opath interfaceName propertyName value timeout =>
    apply ensures_withVariant
    intro hvalue
    obtain ⟨hname, hpath, hinterface⟩ := h hvalue
    exact fun variant => ensures_setVariant propertyName timeout variant hname hpath hinterface
  | setPropertiesChangedCallback busName opath callback =>
    exact ensures_setPropertiesChangedCallback _ fuel busName opath callback
  | updateActivationEnvironment env timeout =>
    exact ensures_updateActivationEnvironment _ fuel env timeout
  | becomeMonitor rules timeout => exact ensures_becomeMonitor _ fuel rules timeout

/-- What is returned otherwise, whatever the surroundings are: false, and no error. -/
theorem Operation.run_of_not_namesPass {operation : Operation dbusValidateBusName κ}
    (h : ¬ operation.NamesPass) (fuel : Nat) : operation.run fuel = refusal := by
  cases operation with
  | setIfaceProperty proxy interface propertyName value timeout =>
    obtain ⟨hvalue, hinterface⟩ := Classical.not_imp.mp h
    exact withVariant_eq hvalue fun variant => setIfacePropertyVariant_eq_refusal proxy
      propertyName timeout variant (Bool.eq_false_of_not_eq_true hinterface)
  | set busName opath interfaceName propertyName value timeout =>
    obtain ⟨hvalue, hnames⟩ := Classical.not_imp.mp h
    exact withVariant_eq hvalue fun variant =>
      setVariant_eq_refusal propertyName timeout variant hnames
  | _ => exact absurd trivial h

/-- The result of a function agrees with its error, except where a name is refused before a
    property is set. -/
theorem Operation.consistent_iff_namesPass (operation : Operation dbusValidateBusName κ) :
    operation.Reports ↔ operation.NamesPass := by
  constructor
  · intro h
    by_contra hnames
    have hrefusal := operation.run_of_not_namesPass hnames 0
    exact not_ensures_refusal (hrefusal ▸ h 0)
  · exact Operation.reports_of_namesPass

/-- A property of an interface without a name: what is returned has no error. -/
theorem setIfaceProperty_loses_error :
    ¬ (Operation.setIfaceProperty ⟨text "org.example", text "/", -1, rfl, by decide⟩ []
      (text "Volume") (.dbusType (.basic (.int32 1))) (-1) :
      Operation (fun _ => true) Unit).Reports := by
  intro h
  have hfalse : Consistent (.of false) := h 0 _ .done
  exact not_consistent_false hfalse

end Results

end Ultrabus
