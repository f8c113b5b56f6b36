import Ultrabus.Value.Basic

/-! # Match rules of an object proxy

The functions that build the match rules for the callbacks of an `object_proxy`, the checks
of the names that go into them, and which rules can be equal.  All rules of a proxy begin
with the same sender; the rules of different kinds are told apart by the number of their
quotes. -/

namespace Ultrabus.Proxy

/-- The quote around the values of a match rule. -/
def quote : UInt8 := 39

/-! ## Names -/

def isInitialNameChar (b : UInt8) : Bool :=
  inRange 'a'.toUInt8 'z'.toUInt8 b || inRange 'A'.toUInt8 'Z'.toUInt8 b || b = '_'.toUInt8

def isNameChar (b : UInt8) : Bool := isInitialNameChar b || inRange '0'.toUInt8 '9'.toUInt8 b

/-- Name elements separated by single dots; `start` holds where an element begins. -/
def validNameElements (start : Bool) : Bytes → Bool
  | [] => !start
  | b :: rest =>
    if b = '.'.toUInt8 then !start && validNameElements true rest
    else (if start then isInitialNameChar b else isNameChar b) && validNameElements false rest

def maximumNameLength : Nat := 255

/-- `dbus_validate_interface (s.c_str (), nullptr)`: two or more elements. -/
def dbusValidateInterface (s : Bytes) : Bool :=
  (cStr s).length ≤ maximumNameLength && '.'.toUInt8 ∈ cStr s && validNameElements true (cStr s)

/-- `dbus_validate_member (s.c_str (), nullptr)`: one element. -/
def dbusValidateMember (s : Bytes) : Bool :=
  (cStr s).length ≤ maximumNameLength && '.'.toUInt8 ∉ cStr s && validNameElements true (cStr s)

theorem quote_notMem_of_validNameElements {start : Bool} {s : Bytes}
    (h : validNameElements start s = true) : quote ∉ s := by
  induction s generalizing start with
  | nil => simp
  | cons b rest ih =>
    simp only [validNameElements] at h
    rw [List.mem_cons, not_or]
    by_cases hdot : b = '.'.toUInt8
    · simp only [if_pos hdot, Bool.and_eq_true] at h
      exact ⟨hdot ▸ by decide, ih h.2⟩
    · simp only [if_neg hdot, Bool.and_eq_true] at h
      refine ⟨fun hquote => ?_, ih h.2⟩
      cases start <;> simp [← hquote] at h <;> exact absurd h.1 (by decide)

/-- What passes the checks has no quote in front of its first NUL. -/
theorem quote_notMem_cStr {s : Bytes}
    (h : dbusValidateInterface s = true ∨ dbusValidateMember s = true) : quote ∉ cStr s := by
  simp only [dbusValidateInterface, dbusValidateMember, Bool.and_eq_true] at h
  obtain ⟨-, h⟩ | ⟨-, h⟩ := h
  · exact quote_notMem_of_validNameElements h
  · exact quote_notMem_of_validNameElements h

/-! ## The rules -/

def makeSignalMatchRule (targetUniqueName opath interface signal : Bytes) : Bytes :=
  text "type='signal',sender='" ++ targetUniqueName ++ text "',path='" ++ opath ++ text "'" ++
    (if interface = [] then [] else text ",interface='" ++ interface ++ text "'") ++
    (if signal = [] then [] else text ",member='" ++ signal ++ text "'")

/-- A rule for a signal of the object manager. -/
def makeObjectIfaceRule (member busName opath opathArg : Bytes) : Bytes :=
  text "type='signal',sender='" ++ busName ++ text "',path='" ++ opath ++
    text "',interface='org.freedesktop.DBus.ObjectManager',member='" ++ member ++ text "'" ++
    text ",arg0path='" ++ opathArg ++ text "'"

def makeObjectIfaceAddedRule : Bytes → Bytes → Bytes → Bytes :=
  makeObjectIfaceRule (text "InterfacesAdded")

def makeObjectIfaceRemovedRule : Bytes → Bytes → Bytes → Bytes :=
  makeObjectIfaceRule (text "InterfacesRemoved")

def makePropsChangedRule (busName opath : Bytes) : Bytes :=
  text "type='signal'" ++ text ",sender='" ++ busName ++ text "',path='" ++ opath ++
    text "',interface='org.freedesktop.DBus.Properties'" ++ text ",member='PropertiesChanged'"

/-! ## Equal rules -/

variable {busName opath : Bytes}

/-- The rule of `set_properties_changed_callback` is also the rule of a signal callback. -/
theorem makePropsChangedRule_eq (busName opath : Bytes) :
    makePropsChangedRule busName opath =
      makeSignalMatchRule busName opath (text "org.freedesktop.DBus.Properties")
        (text "PropertiesChanged") := by
  have hstart : text "type='signal'" ++ text ",sender='" = text "type='signal',sender='" := by
    decide
  have hend : text "',interface='org.freedesktop.DBus.Properties'" ++
      text ",member='PropertiesChanged'" = text "'" ++
      (text ",interface='" ++ text "org.freedesktop.DBus.Properties" ++ text "'") ++
      (text ",member='" ++ text "PropertiesChanged" ++ text "'") := by decide
  rw [makePropsChangedRule, makeSignalMatchRule, if_neg (by decide), if_neg (by decide), hstart]
  simp only [List.append_assoc] at hend ⊢
  rw [hend]

theorem takeWhile_value {value : Bytes} (rest : Bytes) (hvalue : quote ∉ value) :
    (value ++ text "'" ++ rest).takeWhile (· ≠ quote) = value := by
  have hquote : text "'" = [quote] := by decide
  have hbefore : ∀ b ∈ value, decide (b ≠ quote) = true := by
    intro b hb
    simpa using fun heq : b = quote => hvalue (heq ▸ hb)
  rw [hquote, List.append_assoc, List.takeWhile_append_of_pos hbefore]
  simp

theorem value_inj {value value' rest rest' : Bytes} (hvalue : quote ∉ value)
    (hvalue' : quote ∉ value') (h : value ++ text "'" ++ rest = value' ++ text "'" ++ rest') :
    value = value' ∧ rest = rest' := by
  have heq : value = value' := by
    rw [← takeWhile_value rest hvalue, h, takeWhile_value rest' hvalue']
  subst heq
  exact ⟨rfl, List.append_cancel_left h⟩

theorem field_inj (key : Bytes) {value value' : Bytes}
    (h : (if value = [] then [] else key ++ value ++ text "'") =
      (if value' = [] then [] else key ++ value' ++ text "'")) : value = value' := by
  have hend : text "'" ≠ [] := by decide
  by_cases hempty : value = []
  · by_cases hempty' : value' = []
    · rw [hempty, hempty']
    · rw [if_pos hempty, if_neg hempty'] at h
      exact absurd (List.append_eq_nil_iff.mp h.symm).2 hend
  · by_cases hempty' : value' = []
    · rw [if_neg hempty, if_pos hempty'] at h
      exact absurd (List.append_eq_nil_iff.mp h).2 hend
    · rw [if_neg hempty, if_neg hempty', List.append_assoc, List.append_assoc,
        List.append_cancel_left_eq] at h
      exact List.append_cancel_right h

/-- The field of an interface is not the field of a signal. -/
theorem interface_ne_signal (value value' rest : Bytes) :
    text ",interface='" ++ value ++ text "'" ++ rest ≠
      if value' = [] then [] else text ",member='" ++ value' ++ text "'" := by
  intro h
  have hinterface : (text ",interface='" ++ value ++ text "'" ++ rest)[1]? = some 105 := rfl
  rw [h] at hinterface
  split at hinterface
  · cases hinterface
  · have hmember : (text ",member='" ++ value' ++ text "'")[1]? = some 109 := rfl
    rw [hmember] at hinterface
    exact absurd hinterface (by decide)

/-- The rule of a signal callback determines its interface and its signal. -/
theorem makeSignalMatchRule_inj {interface signal interface' signal' : Bytes}
    (hinterface : quote ∉ interface) (hinterface' : quote ∉ interface')
    (h : makeSignalMatchRule busName opath interface signal =
      makeSignalMatchRule busName opath interface' signal') :
    interface = interface' ∧ signal = signal' := by
  unfold makeSignalMatchRule at h
  rw [List.append_assoc, List.append_assoc _ (ite _ _ _), List.append_cancel_left_eq] at h
  by_cases hempty : interface = []
  · by_cases hempty' : interface' = []
    · rw [if_pos hempty, if_pos hempty'] at h
      exact ⟨hempty.trans hempty'.symm, field_inj _ h⟩
    · rw [if_pos hempty, if_neg hempty'] at h
      exact absurd h.symm (interface_ne_signal _ _ _)
  · by_cases hempty' : interface' = []
    · rw [if_neg hempty, if_pos hempty'] at h
      exact absurd h (interface_ne_signal _ _ _)
    · rw [if_neg hempty, if_neg hempty'] at h
      simp only [List.append_assoc, List.append_cancel_left_eq] at h
      simp only [← List.append_assoc] at h
      obtain ⟨hinterface, hrest⟩ := value_inj hinterface hinterface' h
      exact ⟨hinterface, field_inj _ hrest⟩

theorem makeObjectIfaceRule_inj {member root root' : Bytes}
    (h : makeObjectIfaceRule member busName root opath =
      makeObjectIfaceRule member busName root' opath) : root = root' := by
  simpa only [makeObjectIfaceRule, List.append_cancel_left_eq, List.append_cancel_right_eq]
    using h

theorem makeObjectIfaceAddedRule_ne_removed (root root' : Bytes) :
    makeObjectIfaceAddedRule busName root opath ≠
      makeObjectIfaceRemovedRule busName root' opath := by
  intro h
  -- The ends of the members have the same length and differ.
  have hadded : text "InterfacesAdded" = text "Interfaces" ++ text "Added" := by decide
  have hremoved : text "InterfacesRemoved" = text "InterfacesRe" ++ text "moved" := by decide
  simp only [makeObjectIfaceAddedRule, makeObjectIfaceRemovedRule, makeObjectIfaceRule,
    List.append_cancel_right_eq, hadded, hremoved] at h
  simp only [← List.append_assoc] at h
  exact absurd (List.append_inj_right' h (by decide)) (by decide)

/-! ## Quotes -/

theorem count_quote_field (key : Bytes) {value : Bytes} (hvalue : quote ∉ value) :
    (if value = [] then [] else key ++ value ++ text "'").count quote ≤ key.count quote + 1 := by
  have hend : (text "'").count quote = 1 := by decide
  split
  · simp
  · rw [List.count_append, List.count_append, List.count_eq_zero_of_not_mem hvalue, hend]

/-- The rule of a signal callback has at most two fields behind the path. -/
theorem count_quote_signal (busName opath : Bytes) {interface signal : Bytes}
    (hinterface : quote ∉ interface) (hsignal : quote ∉ signal) :
    (makeSignalMatchRule busName opath interface signal).count quote ≤
      busName.count quote + opath.count quote + 10 := by
  have hstart : (text "type='signal',sender='").count quote = 3 := by decide
  have hpath : (text "',path='").count quote = 2 := by decide
  have hend : (text "'").count quote = 1 := by decide
  have hinterface := count_quote_field (text ",interface='") hinterface
  have hsignal := count_quote_field (text ",member='") hsignal
  have hkey : (text ",interface='").count quote = 1 := by decide
  have hkey' : (text ",member='").count quote = 1 := by decide
  unfold makeSignalMatchRule
  rw [List.count_append, List.count_append, List.count_append, List.count_append,
    List.count_append, List.count_append]
  omega

theorem count_quote_objectIface {member : Bytes} (root : Bytes) (hmember : quote ∉ member) :
    (makeObjectIfaceRule member busName root opath).count quote =
      busName.count quote + opath.count quote + root.count quote + 12 := by
  have hstart : (text "type='signal',sender='").count quote = 3 := by decide
  have hpath : (text "',path='").count quote = 2 := by decide
  have hfields :
      (text "',interface='org.freedesktop.DBus.ObjectManager',member='").count quote = 4 := by
    decide
  have hmember := List.count_eq_zero_of_not_mem hmember
  have harg : (text ",arg0path='").count quote = 1 := by decide
  have hend : (text "'").count quote = 1 := by decide
  unfold makeObjectIfaceRule
  rw [List.count_append, List.count_append, List.count_append, List.count_append,
    List.count_append, List.count_append, List.count_append, List.count_append, List.count_append]
  omega

theorem makeSignalMatchRule_ne_objectIface {interface signal member : Bytes} (root : Bytes)
    (hinterface : quote ∉ interface) (hsignal : quote ∉ signal) (hmember : quote ∉ member) :
    makeSignalMatchRule busName opath interface signal ≠
      makeObjectIfaceRule member busName root opath := by
  intro h
  have hcount := count_quote_signal busName opath hinterface hsignal
  rw [h, count_quote_objectIface root hmember] at hcount
  omega

end Ultrabus.Proxy
