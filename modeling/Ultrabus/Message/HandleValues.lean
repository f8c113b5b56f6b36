import Ultrabus.Message.Handles

/-! # Message objects are values

The two results about runs of message objects: no message is used that has been freed and the
counts of libdbus are the numbers of references, and the objects hold what objects hold that are
copied, moved and changed as values. -/

namespace Ultrabus.Handles

open RefHeap (Counted Variables)
open RefHeap.Variables (held held_insert held_move held_of_lookup erase_of_lookup mem_held_iff
  mem_held_erase)

/-! ## Values -/

/-- What every message object holds; `none` where no object lives. -/
abbrev Values := Nat → Option FullMessage

namespace Values

variable (v : Values)

def put (o : Nat) (msg : Option FullMessage) : Values := Function.update v o msg

/-- A new message, if there is memory for it. -/
def emplace (o : Nat) (content : Content) (pointer : Pointer) : Values :=
  if pointer.isSome then v.put o (some ⟨some content⟩) else v

/-- A reply to a call, which must have been sent. -/
def reply (o : Nat) (call : Option Content) (setError : Bool) (errorName errorMessage : Bytes)
    (pointer : Pointer) : Values :=
  match call with
  | none => v
  | some call =>
    if call.2.serial = 0 then v
    else if setError then v.emplace o (dbusMessageNewError call errorName errorMessage) pointer
    else v.emplace o (dbusMessageNewMethodReturn call) pointer

/-- The object holds a copy of its own. -/
def copy (o source : Nat) (pointer : Pointer) : Values :=
  match (v source).bind FullMessage.ctx with
  | none => v.put o (some ⟨none⟩)
  | some content => v.emplace o (dbusMessageCopy content) pointer

/-- The message goes from one object to another. -/
def move (o source : Nat) : Values := (v.put o (v source)).put source (some ⟨none⟩)

/-- The content of one object is changed. -/
def change (o : Nat) (f : Content → Content) : Values :=
  v.put o ((v o).map fun msg => ⟨msg.ctx.map f⟩)

def step (dbusValidateBusName : Bytes → Bool) : Label → Values
  | .construct o new _ pointer =>
    if new.valid dbusValidateBusName then v.emplace o new.content pointer else v
  | .makeReply o source setError errorName errorMessage pointer =>
    v.reply o ((v source).bind FullMessage.ctx) setError errorName errorMessage pointer
  | .replyTo o msg setError errorName errorMessage pointer =>
    v.reply o (msg.map Prod.snd) setError errorName errorMessage pointer
  | .wrap o msg => v.put o (some ⟨msg.map Prod.snd⟩)
  | .copyConstruct o source pointer => v.copy o source pointer
  | .moveConstruct o source => v.move o source
  | .copyAssign o source pointer => if source = o then v else v.copy o source pointer
  | .moveAssign o source => if source = o then v else v.move o source
  | .destroy o => v.put o none
  | .set o field value ok =>
    if ok then
      v.change o fun content =>
        if field = .errorName ∧ content.1.type ≠ dbusMessageTypeError then content
        else field.write value content
    else v
  | .appendArgs o args ok left => v.change o (Content.appendArgs args ok left)
  | .send o serial => v.change o (giveSerial serial)
  | .pendingCall o reply => v.put o (some ⟨some reply.2⟩)
  | .arrive _ _ | .release _ => v

def run (dbusValidateBusName : Bytes → Bool) (labels : List Label) : Values :=
  labels.foldl (fun (v : Values) label => v.step dbusValidateBusName label) v

end Values

/-! ## States -/

/-- What the objects hold. -/
def State.values (s : State) : Values := fun o =>
  (s.objects.lookup o).map fun ctx => ⟨ctx.bind s.heap.read⟩

/-- A message is wrapped while no object holds it. -/
def State.Fresh (s : State) : Label → Prop
  | .wrap _ msg => ∀ m ∈ msg, m.1 ∉ held s.objects
  | .pendingCall _ reply => reply.1 ∉ held s.objects
  | _ => True

/-- An operation uses no freed message and keeps the counts, and objects that hold messages of
    their own keep doing so and hold the values that are to be held. -/
def Follows (s : State) (fresh : Prop) (values : Values) (result : Option Result) : Prop :=
  ∃ s' thrown, result = some (s', thrown) ∧ Counted s'.heap s'.holders ∧
    ((held s.objects).Nodup → fresh → (held s'.objects).Nodup ∧ s'.values = values)

section Objects

variable {s : State} {o r : Nat} {ctx : Option Nat}

theorem values_of_lookup (h : s.objects.lookup o = some ctx) :
    s.values o = some ⟨ctx.bind s.heap.read⟩ := by
  rw [State.values, h]
  rfl

theorem lookup_of_notMem (h : o ∉ s.objects) : s.objects.lookup o = none :=
  AList.lookup_eq_none.mpr h

theorem exists_lookup (h : o ∈ s.objects) : ∃ ctx, s.objects.lookup o = some ctx :=
  Option.isSome_iff_exists.mp (AList.lookup_isSome.mpr h)

theorem mem_holders_of_lookup (h : s.objects.lookup o = some (some r)) : r ∈ s.holders :=
  Multiset.mem_add.mpr (.inr (mem_held_iff.mpr ⟨o, h⟩))

/-- What the other objects refer to is held. -/
theorem mem_holders_of_erase (h : r ∈ held (s.objects.erase o)) : r ∈ s.holders := by
  obtain ⟨o', ho'⟩ := mem_held_iff.mp h
  have hne : o' ≠ o := by
    rintro rfl
    rw [AList.lookup_erase] at ho'
    cases ho'
  rw [AList.lookup_erase_ne hne] at ho'
  exact Multiset.mem_add.mpr (.inr (mem_held_iff.mpr ⟨o', ho'⟩))

/-- An object holds what it has held if its message has not been changed. -/
theorem values_eq {heap : RefHeap Content} {objects : Variables} {libdbus : Multiset Nat}
    (hlookup : objects.lookup o = s.objects.lookup o)
    (hread : ∀ r, s.objects.lookup o = some (some r) → heap.read r = s.heap.read r) :
    State.values ⟨heap, objects, libdbus⟩ o = s.values o := by
  simp only [State.values, hlookup]
  cases hctx : s.objects.lookup o with
  | none => rfl
  | some ctx =>
    cases ctx with
    | none => rfl
    | some r => simp [hread r hctx]

/-- So do all objects other than one. -/
theorem values_of_ne {heap : RefHeap Content} {objects : Variables} {libdbus : Multiset Nat}
    {o' : Nat} (hne : o' ≠ o) (hlookup : objects.lookup o' = s.objects.lookup o')
    (hread : ∀ r ∈ held (s.objects.erase o), heap.read r = s.heap.read r) :
    State.values ⟨heap, objects, libdbus⟩ o' = s.values o' :=
  values_eq hlookup fun r hctx => hread r (mem_held_erase hctx hne)

theorem values_of_read {heap : RefHeap Content} {libdbus : Multiset Nat}
    (hread : ∀ r ∈ held s.objects, heap.read r = s.heap.read r) :
    State.values ⟨heap, s.objects, libdbus⟩ = s.values :=
  funext fun o => values_eq rfl fun r hctx => hread r (mem_held_iff.mpr ⟨o, hctx⟩)

/-- One object has another message, and those of the other objects are as before. -/
theorem values_insert {heap : RefHeap Content} {libdbus : Multiset Nat}
    (hread : ∀ r ∈ held (s.objects.erase o), heap.read r = s.heap.read r) :
    State.values ⟨heap, s.objects.insert o ctx, libdbus⟩ =
      s.values.put o (some ⟨ctx.bind heap.read⟩) := by
  funext o'
  by_cases heq : o' = o
  · subst heq
    simp [State.values, Values.put]
  · rw [Values.put, Function.update_of_ne heq]
    exact values_of_ne heq (AList.lookup_insert_ne heq) hread

theorem values_erase {heap : RefHeap Content} {libdbus : Multiset Nat}
    (hread : ∀ r ∈ held (s.objects.erase o), heap.read r = s.heap.read r) :
    State.values ⟨heap, s.objects.erase o, libdbus⟩ = s.values.put o none := by
  funext o'
  by_cases heq : o' = o
  · subst heq
    simp [State.values, Values.put]
  · rw [Values.put, Function.update_of_ne heq]
    exact values_of_ne heq (AList.lookup_erase_ne heq) hread

/-- The content of one object has been changed where it is. -/
theorem values_change {heap : RefHeap Content} {libdbus : Multiset Nat} {f : Content → Content}
    (hlookup : s.objects.lookup o = some (some r)) (hself : heap.read r = (s.heap.read r).map f)
    (hread : ∀ r ∈ held (s.objects.erase o), heap.read r = s.heap.read r) :
    State.values ⟨heap, s.objects, libdbus⟩ = s.values.change o f := by
  funext o'
  by_cases heq : o' = o
  · subst heq
    simp [State.values, Values.change, Values.put, hlookup, hself]
  · rw [Values.change, Values.put, Function.update_of_ne heq]
    exact values_of_ne heq rfl hread

theorem nodup_erase (h : (held s.objects).Nodup) (o : Nat) : (held (s.objects.erase o)).Nodup := by
  cases hlookup : s.objects.lookup o with
  | none => rwa [erase_of_lookup hlookup]
  | some ctx =>
    rw [held_of_lookup hlookup] at h
    exact Multiset.nodup_of_le (Multiset.le_add_left _ _) h

theorem nodup_insert (h : (held s.objects).Nodup)
    (hfresh : ∀ r ∈ ctx, r ∉ held (s.objects.erase o)) :
    (held (s.objects.insert o ctx)).Nodup := by
  have herase := nodup_erase h o
  rw [held_insert]
  cases ctx with
  | none => simpa using herase
  | some r => exact Multiset.nodup_cons.mpr ⟨hfresh r rfl, herase⟩

end Objects

/-! ## Operations -/

section Operations

variable {s : State} {o source : Nat} {pointer : Pointer}

/-- The operation has no effect. -/
theorem follows_self (hcount : Counted s.heap s.holders) {fresh : Prop}
    (thrown : Option Exception) :
    Follows s fresh s.values (some (s, thrown)) :=
  ⟨s, thrown, rfl, hcount, fun happart _ => ⟨happart, rfl⟩⟩

theorem isFree_some {r : Nat} (hfree : s.isFree (some r)) : s.heap r = none := hfree r rfl

theorem emplace_follows (hcount : Counted s.heap s.holders) {fresh : Prop} (ho : o ∉ s.objects)
    (hfree : s.isFree pointer) (content : Content) :
    Follows s fresh (s.values.emplace o content pointer) (some (s.emplace o content pointer)) := by
  cases pointer with
  | none => exact follows_self hcount (some .badAlloc)
  | some r =>
    have herase : s.objects.erase o = s.objects := erase_of_lookup (lookup_of_notMem ho)
    have hnot : r ∉ held (s.objects.erase o) := fun hheld =>
      hcount.eq_none_iff.mp (isFree_some hfree) (mem_holders_of_erase hheld)
    refine ⟨_, _, rfl, ?_, fun happart _ => ⟨nodup_insert happart ?_, ?_⟩⟩
    · have hholders : s.libdbus + held (s.objects.insert o (some r)) = r ::ₘ s.holders := by
        rw [held_insert, herase, State.holders]
        exact Multiset.add_cons r s.libdbus (held s.objects)
      rw [State.holders, hholders]
      exact hcount.alloc (isFree_some hfree) content
    · intro r' hr'
      obtain rfl := Option.mem_some_iff.mp hr'
      exact hnot
    · have hread : ∀ r' ∈ held (s.objects.erase o),
          (s.heap.alloc r content).read r' = s.heap.read r' := fun r' hr' =>
        hcount.read_alloc (isFree_some hfree) content (mem_holders_of_erase hr')
      rw [values_insert hread]
      simp [Values.emplace, RefHeap.read_alloc_self]

theorem construct_follows (hcount : Counted s.heap s.holders) {fresh : Prop} (ho : o ∉ s.objects)
    (hfree : s.isFree pointer) (dbusValidateBusName : Bytes → Bool) (new : New) (what : Bytes) :
    Follows s fresh (s.values.step dbusValidateBusName (.construct o new what pointer))
      (some (s.construct dbusValidateBusName o new what pointer)) := by
  simp only [Values.step, State.construct]
  cases hvalid : new.valid dbusValidateBusName with
  | false => exact follows_self hcount _
  | true => exact emplace_follows hcount ho hfree new.content

theorem makeReply_follows (hcount : Counted s.heap s.holders) {fresh : Prop} (ho : o ∉ s.objects)
    {msg : Option Nat} (hheld : ∀ r ∈ msg, r ∈ s.holders) (hfree : s.isFree pointer)
    (setError : Bool) (errorName errorMessage : Bytes) :
    Follows s fresh
      (s.values.reply o (msg.bind s.heap.read) setError errorName errorMessage pointer)
      (s.makeReply o msg setError errorName errorMessage pointer) := by
  cases msg with
  | none => exact follows_self hcount _
  | some msg =>
    obtain ⟨call, hcall⟩ := hcount.read (hheld msg rfl)
    simp only [State.makeReply, Values.reply, hcall, Option.bind_some]
    by_cases hserial : call.2.serial = 0
    · simpa [hserial] using follows_self hcount _
    · cases setError with
      | true => simpa [hserial] using emplace_follows hcount ho hfree _
      | false => simpa [hserial] using emplace_follows hcount ho hfree _

theorem wrap_follows (hcount : Counted s.heap s.holders) (ho : o ∉ s.objects)
    {msg : Option (Nat × Content)} (hleads : ∀ m ∈ msg, s.leads m) :
    Follows s (∀ m ∈ msg, m.1 ∉ held s.objects) (s.values.put o (some ⟨msg.map Prod.snd⟩))
      (s.wrap o (msg.map Prod.fst)) := by
  have herase : s.objects.erase o = s.objects := erase_of_lookup (lookup_of_notMem ho)
  cases msg with
  | none =>
    refine ⟨_, _, rfl, ?_, fun happart _ => ⟨nodup_insert happart nofun, ?_⟩⟩
    · have hholders : s.libdbus + held (s.objects.insert o none) = s.holders := by
        rw [held_insert, herase, State.holders]
        rfl
      rw [State.holders, hholders]
      exact hcount
    · exact values_insert fun _ _ => rfl
  | some m =>
    obtain ⟨r, content⟩ := m
    obtain ⟨hheld, hcontent⟩ := hleads _ rfl
    obtain ⟨heap, href, hcount', hread⟩ := hcount.ref hheld
    refine ⟨⟨heap, s.objects.insert o (some r), s.libdbus⟩, none, ?_, ?_, fun happart hfresh =>
      ⟨nodup_insert happart ?_, ?_⟩⟩
    · simp [State.wrap, href]
    · have hholders : s.libdbus + held (s.objects.insert o (some r)) = r ::ₘ s.holders := by
        rw [held_insert, herase, State.holders]
        exact Multiset.add_cons r s.libdbus (held s.objects)
      rw [State.holders, hholders]
      exact hcount'
    · intro r' hr'
      obtain rfl := Option.mem_some_iff.mp hr'
      rw [herase]
      exact hfresh _ rfl
    · rw [values_insert fun r' _ => hread r']
      have hsame : heap.read r = some content := (hread r).trans hcontent
      simp [hsame]

theorem copyConstruct_follows (hcount : Counted s.heap s.holders) {fresh : Prop}
    (ho : o ∉ s.objects) {msg : Option Nat} (hsource : s.objects.lookup source = some msg)
    (hfree : s.isFree pointer) :
    Follows s fresh (s.values.copy o source pointer) (s.copyConstruct o msg pointer) := by
  simp only [Values.copy, values_of_lookup hsource]
  cases msg with
  | none =>
    have hnull : ∀ m ∈ (none : Option (Nat × Content)), s.leads m := nofun
    obtain ⟨s', thrown, hresult, hcount', hvalues⟩ := wrap_follows hcount ho hnull
    exact ⟨s', thrown, hresult, hcount', fun happart _ => hvalues happart nofun⟩
  | some msg =>
    obtain ⟨content, hcontent⟩ := hcount.read (mem_holders_of_lookup hsource)
    simpa [State.copyConstruct, hcontent] using
      emplace_follows hcount ho hfree (dbusMessageCopy content)

/-- A message goes from one object to another, whose own message is not used any more. -/
theorem move_follows {heap : RefHeap Content} {msg : Option Nat} (hne : source ≠ o)
    (hsource : s.objects.lookup source = some msg)
    (hcount : Counted heap (s.libdbus + held (s.objects.erase o)))
    (hread : ∀ r ∈ held (s.objects.erase o), heap.read r = s.heap.read r) {fresh : Prop} :
    Follows s fresh (s.values.move o source)
      (some (⟨heap, (s.objects.insert o msg).insert source none, s.libdbus⟩, none)) := by
  have hheld := held_move hne hsource
  refine ⟨_, _, rfl, ?_, fun happart _ => ⟨?_, funext fun o' => ?_⟩⟩
  · rw [State.holders, hheld]
    exact hcount
  · rw [hheld]
    exact nodup_erase happart o
  by_cases hsource' : o' = source
  · subst hsource'
    simp [State.values, Values.move, Values.put]
  rw [Values.move, Values.put, Function.update_of_ne hsource']
  have hlookup : ((s.objects.insert o msg).insert source none).lookup o' =
      (s.objects.insert o msg).lookup o' := AList.lookup_insert_ne hsource'
  by_cases ho : o' = o
  · subst ho
    have hself : (s.objects.insert o' msg).lookup o' = some msg := AList.lookup_insert s.objects
    rw [Values.put, Function.update_self, values_of_lookup hsource,
      values_of_lookup (hlookup.trans hself)]
    cases msg with
    | none => rfl
    | some r =>
      have hsame : heap.read r = s.heap.read r := hread r (mem_held_erase hsource hne)
      simp [hsame]
  · rw [Values.put, Function.update_of_ne ho]
    exact values_of_ne ho (hlookup.trans (AList.lookup_insert_ne ho)) hread

theorem unref_follows {heap : RefHeap Content} {ctx : Option Nat} {rest : Multiset Nat}
    (hcount : Counted heap (ctx.toList + rest)) (objects : Variables) (libdbus : Multiset Nat) :
    ∃ heap', State.unref ⟨heap, objects, libdbus⟩ ctx = some ⟨heap', objects, libdbus⟩ ∧
      Counted heap' rest ∧ ∀ r ∈ rest, heap'.read r = heap.read r := by
  cases ctx with
  | none => exact ⟨heap, rfl, by simpa using hcount, fun _ _ => rfl⟩
  | some r =>
    obtain ⟨heap', hunref, hcount', hread⟩ := RefHeap.Counted.unref hcount
    exact ⟨heap', by simp [State.unref, hunref], hcount', hread⟩

/-- The references once an object has none any more. -/
theorem holders_eq {ctx : Option Nat} (h : s.objects.lookup o = some ctx) :
    s.holders = ctx.toList + (s.libdbus + held (s.objects.erase o)) := by
  rw [State.holders, held_of_lookup h, ← Multiset.add_assoc, Multiset.add_comm s.libdbus,
    Multiset.add_assoc]

theorem copyAssign_follows (hcount : Counted s.heap s.holders) {fresh : Prop}
    {ctx msg : Option Nat} (ho : s.objects.lookup o = some ctx)
    (hsource : s.objects.lookup source = some msg) (hfree : s.isFree pointer) :
    Follows s fresh (if source = o then s.values else s.values.copy o source pointer)
      (s.copyAssign o source ctx msg pointer) := by
  by_cases hne : source ≠ o
  case neg =>
    obtain rfl := not_not.mp hne
    simpa [State.copyAssign] using follows_self hcount none
  rw [if_neg hne, Values.copy, values_of_lookup hsource]
  have hheld := holders_eq ho ▸ hcount
  cases msg with
  | none =>
    obtain ⟨heap, hunref, hcount', hread⟩ :=
      unref_follows hheld (s.objects.insert o none) s.libdbus
    refine ⟨⟨heap, s.objects.insert o none, s.libdbus⟩, none, ?_, ?_, fun happart _ =>
      ⟨nodup_insert happart nofun, ?_⟩⟩
    · simp [State.copyAssign, hne, hunref]
    · rw [State.holders, held_insert]
      simpa using hcount'
    · exact values_insert fun r hr => hread r (Multiset.mem_add.mpr (.inr hr))
  | some msg =>
    obtain ⟨content, hcontent⟩ := hcount.read (mem_holders_of_lookup hsource)
    cases pointer with
    | none =>
      have hresult : s.copyAssign o source ctx (some msg) none = some (s, some .badAlloc) := by
        simp [State.copyAssign, hne, hcontent]
      rw [hresult]
      simpa [hcontent, Values.emplace] using follows_self hcount (some Exception.badAlloc)
    | some r =>
      have hnot : r ∉ s.holders := hcount.eq_none_iff.mp (isFree_some hfree)
      have hnew := hcount.alloc (isFree_some hfree) (dbusMessageCopy content)
      have hall : r ::ₘ s.holders =
          ctx.toList + (r ::ₘ (s.libdbus + held (s.objects.erase o))) := by
        rw [holders_eq ho, Multiset.add_cons]
      obtain ⟨heap, hunref, hcount', hread⟩ :=
        unref_follows (hall ▸ hnew) (s.objects.insert o (some r)) s.libdbus
      refine ⟨⟨heap, s.objects.insert o (some r), s.libdbus⟩, none, ?_, ?_, fun happart _ =>
        ⟨nodup_insert happart ?_, ?_⟩⟩
      · simp [State.copyAssign, hne, hcontent, hunref]
      · rw [State.holders, held_insert]
        exact Multiset.add_cons r s.libdbus (held (s.objects.erase o)) ▸ hcount'
      · intro r' hr'
        obtain rfl := Option.mem_some_iff.mp hr'
        exact fun hheld => hnot (mem_holders_of_erase hheld)
      · have hothers : ∀ r' ∈ held (s.objects.erase o), heap.read r' = s.heap.read r' := by
          intro r' hr'
          have hr : r' ∈ r ::ₘ (s.libdbus + held (s.objects.erase o)) :=
            Multiset.mem_cons_of_mem (Multiset.mem_add.mpr (.inr hr'))
          rw [hread r' hr]
          exact hcount.read_alloc (isFree_some hfree) _ (mem_holders_of_erase hr')
        have hself : heap.read r = some (dbusMessageCopy content) :=
          (hread r (Multiset.mem_cons_self _ _)).trans (RefHeap.read_alloc_self ..)
        rw [values_insert hothers]
        simp [hcontent, hself, Values.emplace]

theorem moveAssign_follows (hcount : Counted s.heap s.holders) {fresh : Prop}
    {ctx msg : Option Nat} (ho : s.objects.lookup o = some ctx)
    (hsource : s.objects.lookup source = some msg) :
    Follows s fresh (if source = o then s.values else s.values.move o source)
      (s.moveAssign o source ctx msg) := by
  by_cases hne : source ≠ o
  case neg =>
    obtain rfl := not_not.mp hne
    simpa [State.moveAssign] using follows_self hcount none
  obtain ⟨heap, hunref, hcount', hread⟩ :=
    unref_follows (holders_eq ho ▸ hcount) s.objects s.libdbus
  have hresult : s.moveAssign o source ctx msg =
      some (⟨heap, (s.objects.insert o msg).insert source none, s.libdbus⟩, none) := by
    simp [State.moveAssign, hne, hunref]
  rw [if_neg hne, hresult]
  exact move_follows hne hsource hcount' fun r hr => hread r (Multiset.mem_add.mpr (.inr hr))

theorem destroy_follows (hcount : Counted s.heap s.holders) {fresh : Prop} {ctx : Option Nat}
    (ho : s.objects.lookup o = some ctx) :
    Follows s fresh (s.values.put o none) (s.destroy o ctx) := by
  obtain ⟨heap, hunref, hcount', hread⟩ :=
    unref_follows (holders_eq ho ▸ hcount) s.objects s.libdbus
  refine ⟨⟨heap, s.objects.erase o, s.libdbus⟩, none, ?_, hcount', fun happart _ =>
    ⟨nodup_erase happart o, values_erase fun r hr => hread r (Multiset.mem_add.mpr (.inr hr))⟩⟩
  simp [State.destroy, hunref]

/-- The message of one object is changed, which no other object refers to. -/
theorem change_follows {heap : RefHeap Content} {r : Nat} {libdbus : Multiset Nat} {fresh : Prop}
    {f : Content → Content} (ho : s.objects.lookup o = some (some r))
    (hcount : Counted heap (libdbus + held s.objects))
    (hself : heap.read r = (s.heap.read r).map f)
    (hothers : ∀ r', r' ≠ r → heap.read r' = s.heap.read r') :
    Follows s fresh (s.values.change o f) (some (⟨heap, s.objects, libdbus⟩, none)) := by
  refine ⟨_, _, rfl, hcount, fun happart _ => ⟨happart, values_change ho hself ?_⟩⟩
  rw [held_of_lookup ho] at happart
  have honly : (r ::ₘ held (s.objects.erase o)).Nodup := happart
  intro r' hr'
  refine hothers r' fun heq => ?_
  exact (Multiset.nodup_cons.mp honly).1 (heq ▸ hr')

/-- Nothing is changed in an object without a message. -/
theorem change_of_null (ho : s.objects.lookup o = some none) (f : Content → Content) :
    s.values.change o f = s.values := by
  funext o'
  by_cases heq : o' = o
  · subst heq
    simp [Values.change, Values.put, values_of_lookup ho]
  · rw [Values.change, Values.put, Function.update_of_ne heq]

theorem Values.change_self (v : Values) (o : Nat) {f : Content → Content}
    (h : ∀ msg ∈ v o, ∀ content ∈ msg.ctx, f content = content) : v.change o f = v := by
  funext o'
  by_cases heq : o' = o
  · subst heq
    rw [Values.change, Values.put, Function.update_self]
    cases hmsg : v o' with
    | none => rfl
    | some msg =>
      obtain ⟨ctx⟩ := msg
      cases ctx with
      | none => rfl
      | some content =>
        have hsame : f content = content := h _ (by simp [hmsg]) content rfl
        simp [hsame]
  · rw [Values.change, Values.put, Function.update_of_ne heq]

theorem set_follows (hcount : Counted s.heap s.holders) {fresh : Prop} {ctx : Option Nat}
    (ho : s.objects.lookup o = some ctx) (dbusValidateBusName : Bytes → Bool) (field : Field)
    (value : Bytes) (ok : Bool) :
    Follows s fresh (s.values.step dbusValidateBusName (.set o field value ok))
      (s.set ctx field value ok) := by
  simp only [Values.step]
  cases ctx with
  | none =>
    rw [change_of_null ho, ite_self]
    exact follows_self hcount none
  | some r =>
    have hheld := mem_holders_of_lookup ho
    obtain ⟨content, hcontent⟩ := hcount.read hheld
    by_cases hother : field = .errorName ∧ content.1.type ≠ dbusMessageTypeError
    · have hsame : (if ok then s.values.change o fun content =>
          if field = .errorName ∧ content.1.type ≠ dbusMessageTypeError then content
          else field.write value content else s.values) = s.values := by
        cases ok with
        | false => rfl
        | true =>
          refine Values.change_self s.values o fun msg hmsg content' hcontent' => ?_
          rw [values_of_lookup ho] at hmsg
          obtain rfl := Option.some.inj hmsg
          obtain rfl : content = content' := by simpa [hcontent] using hcontent'
          exact if_pos hother
      rw [hsame]
      simpa [State.set, hcontent, hother] using follows_self hcount none
    · cases ok with
      | false => simpa [State.set, hcontent, hother] using follows_self hcount _
      | true =>
        obtain ⟨heap, hmodify, hcount', hself, hothers⟩ := hcount.modify hheld (field.write value)
        have hresult : s.set (some r) field value true =
            some (⟨heap, s.objects, s.libdbus⟩, none) := by
          simp [State.set, hcontent, hother, hmodify]
        rw [hresult, if_pos rfl]
        refine change_follows ho hcount' ?_ hothers
        rw [hself, hcontent]
        exact congrArg some (if_neg hother).symm

theorem appendArgs_follows (hcount : Counted s.heap s.holders) {fresh : Prop} {ctx : Option Nat}
    (ho : s.objects.lookup o = some ctx) (args : List Arg) (ok : Bool) (left : List Wire) :
    Follows s fresh (s.values.change o (Content.appendArgs args ok left))
      (s.appendArgs ctx args ok left) := by
  cases ctx with
  | none =>
    rw [change_of_null ho]
    exact follows_self hcount none
  | some r =>
    obtain ⟨heap, hmodify, hcount', hself, hothers⟩ :=
      hcount.modify (mem_holders_of_lookup ho) (Content.appendArgs args ok left)
    have hresult : s.appendArgs (some r) args ok left =
        some (⟨heap, s.objects, s.libdbus⟩, none) := by
      simp [State.appendArgs, hmodify]
    rw [hresult]
    exact change_follows ho hcount' hself hothers

theorem send_follows (hcount : Counted s.heap s.holders) {fresh : Prop} {ctx : Option Nat}
    (ho : s.objects.lookup o = some ctx) (serial : UInt32) :
    Follows s fresh (s.values.change o (giveSerial serial)) (s.send ctx serial) := by
  cases ctx with
  | none =>
    rw [change_of_null ho]
    exact follows_self hcount none
  | some r =>
    obtain ⟨queued, href, hcount', hread⟩ := hcount.ref (mem_holders_of_lookup ho)
    obtain ⟨heap, hmodify, hcount', hself, hothers⟩ :=
      hcount'.modify (Multiset.mem_cons_self r _) (giveSerial serial)
    have hresult : s.send (some r) serial =
        some (⟨heap, s.objects, r ::ₘ s.libdbus⟩, none) := by
      simp [State.send, href, hmodify]
    rw [hresult]
    refine change_follows ho ?_ (by rw [hself, hread]) fun r' hne => by rw [hothers r' hne, hread]
    rw [Multiset.cons_add]
    exact hcount'

theorem pendingCall_follows (hcount : Counted s.heap s.holders) (ho : o ∉ s.objects)
    {reply : Nat × Content} (hgives : s.gives reply) :
    Follows s (reply.1 ∉ held s.objects) (s.values.put o (some ⟨some reply.2⟩))
      (s.pendingCall o reply.1) := by
  obtain ⟨r, content⟩ := reply
  obtain ⟨hlibdbus, hcontent⟩ := hgives
  have herase : s.objects.erase o = s.objects := erase_of_lookup (lookup_of_notMem ho)
  have hheld : r ∈ s.holders := Multiset.mem_add.mpr (.inl hlibdbus)
  obtain ⟨wrapped, href, hcount', hread⟩ := hcount.ref hheld
  obtain ⟨heap, hunref, hcount', hread'⟩ := hcount'.unref
  have hread : ∀ r' ∈ s.holders, heap.read r' = s.heap.read r' := fun r' hr' =>
    (hread' r' hr').trans (hread r')
  refine ⟨⟨heap, s.objects.insert o (some r), s.libdbus.erase r⟩, none, ?_, ?_,
    fun happart hfresh => ⟨nodup_insert happart ?_, ?_⟩⟩
  · simp [State.pendingCall, href, hunref]
  · have hholders : s.libdbus.erase r + held (s.objects.insert o (some r)) = s.holders := by
      rw [held_insert, herase, State.holders]
      show s.libdbus.erase r + (r ::ₘ held s.objects) = _
      rw [Multiset.add_cons, ← Multiset.cons_add, Multiset.cons_erase hlibdbus]
    rw [State.holders, hholders]
    exact hcount'
  · intro r' hr'
    obtain rfl := Option.mem_some_iff.mp hr'
    rw [herase]
    exact hfresh
  · rw [values_insert fun r' hr' => hread r' (mem_holders_of_erase hr')]
    have hsame : heap.read r = some content := (hread r hheld).trans hcontent
    simp [hsame]

theorem arrive_follows (hcount : Counted s.heap s.holders) {fresh : Prop} {r : Nat}
    (hfree : s.heap r = none) (content : Content) :
    Follows s fresh s.values
      (some (⟨s.heap.alloc r content, s.objects, r ::ₘ s.libdbus⟩, none)) := by
  refine ⟨_, _, rfl, ?_, fun happart _ => ⟨happart, values_of_read fun r' hr' => ?_⟩⟩
  · rw [State.holders, Multiset.cons_add]
    exact hcount.alloc hfree content
  · exact hcount.read_alloc hfree content (Multiset.mem_add.mpr (.inr hr'))

theorem release_follows (hcount : Counted s.heap s.holders) {fresh : Prop} {r : Nat}
    (hlibdbus : r ∈ s.libdbus) : Follows s fresh s.values (s.release r) := by
  have hholders : s.holders = (some r).toList + (s.libdbus.erase r + held s.objects) := by
    show _ = r ::ₘ (s.libdbus.erase r + held s.objects)
    rw [← Multiset.cons_add, Multiset.cons_erase hlibdbus, State.holders]
  obtain ⟨heap, hunref, hcount', hread⟩ :=
    unref_follows (hholders ▸ hcount) s.objects (s.libdbus.erase r)
  refine ⟨⟨heap, s.objects, s.libdbus.erase r⟩, none, ?_, hcount', fun happart _ =>
    ⟨happart, values_of_read fun r' hr' => hread r' (Multiset.mem_add.mpr (.inr hr'))⟩⟩
  simp [State.release, hunref]

end Operations

/-! ## Runs -/

section Runs

variable (dbusValidateBusName : Bytes → Bool)

def initial : State := ⟨RefHeap.empty, ∅, 0⟩

/-- Runs of message objects; `none` after a message has been used that had been freed. -/
def system : TransitionSystem (Option State) Label where
  init m := m = some initial
  step m label := m.map fun s => (exec dbusValidateBusName s label).map Prod.fst

/-- Operations are used on what lives. -/
def Enabled (m : Option State) (label : Label) : Prop := ∀ s ∈ m, s.enabled label

/-- Besides, a message is wrapped by one object at a time. -/
def EnabledFresh (m : Option State) (label : Label) : Prop :=
  ∀ s ∈ m, s.enabled label ∧ s.Fresh label

variable {dbusValidateBusName}

/-- Everything that an operation does. -/
theorem exec_follows {s : State} {label : Label} (hcount : Counted s.heap s.holders)
    (henabled : s.enabled label) :
    Follows s (s.Fresh label) (s.values.step dbusValidateBusName label)
      (exec dbusValidateBusName s label) := by
  cases label with
  | construct o new what pointer =>
    exact construct_follows hcount henabled.1 henabled.2 dbusValidateBusName new what
  | makeReply o source setError errorName errorMessage pointer =>
    obtain ⟨ho, hsource, hfree⟩ := henabled
    obtain ⟨msg, hmsg⟩ := exists_lookup hsource
    simp only [exec, Values.step, hmsg, values_of_lookup hmsg, Option.bind_eq_bind,
      Option.bind_some]
    refine makeReply_follows hcount ho ?_ hfree setError errorName errorMessage
    rintro r rfl
    exact mem_holders_of_lookup hmsg
  | replyTo o msg setError errorName errorMessage pointer =>
    obtain ⟨ho, hleads, hfree⟩ := henabled
    have hcontent : msg.map Prod.snd = (msg.map Prod.fst).bind s.heap.read := by
      cases msg with
      | none => rfl
      | some m => exact (hleads m rfl).2.symm
    rw [Values.step, hcontent]
    refine makeReply_follows hcount ho ?_ hfree setError errorName errorMessage
    intro r hr
    obtain ⟨m, hm, rfl⟩ := Option.map_eq_some_iff.mp hr
    exact (hleads m hm).1
  | wrap o msg => exact wrap_follows hcount henabled.1 henabled.2
  | copyConstruct o source pointer =>
    obtain ⟨ho, hsource, hfree⟩ := henabled
    obtain ⟨msg, hmsg⟩ := exists_lookup hsource
    simp only [exec, hmsg, Option.bind_eq_bind, Option.bind_some]
    exact copyConstruct_follows hcount ho hmsg hfree
  | moveConstruct o source =>
    obtain ⟨ho, hsource⟩ := henabled
    obtain ⟨msg, hmsg⟩ := exists_lookup hsource
    have hne : source ≠ o := fun heq => ho (heq ▸ hsource)
    have herase : s.objects.erase o = s.objects := erase_of_lookup (lookup_of_notMem ho)
    simp only [exec, hmsg, Option.bind_eq_bind, Option.bind_some]
    exact move_follows hne hmsg (herase.symm ▸ hcount) fun _ _ => rfl
  | copyAssign o source pointer =>
    obtain ⟨ho, hsource, hfree⟩ := henabled
    obtain ⟨ctx, hctx⟩ := exists_lookup ho
    obtain ⟨msg, hmsg⟩ := exists_lookup hsource
    simp only [exec, hctx, hmsg, Option.bind_eq_bind, Option.bind_some]
    exact copyAssign_follows hcount hctx hmsg hfree
  | moveAssign o source =>
    obtain ⟨ho, hsource⟩ := henabled
    obtain ⟨ctx, hctx⟩ := exists_lookup ho
    obtain ⟨msg, hmsg⟩ := exists_lookup hsource
    simp only [exec, hctx, hmsg, Option.bind_eq_bind, Option.bind_some]
    exact moveAssign_follows hcount hctx hmsg
  | destroy o =>
    obtain ⟨ctx, hctx⟩ := exists_lookup henabled
    simp only [exec, hctx, Option.bind_eq_bind, Option.bind_some]
    exact destroy_follows hcount hctx
  | set o field value ok =>
    obtain ⟨ctx, hctx⟩ := exists_lookup henabled
    simp only [exec, hctx, Option.bind_eq_bind, Option.bind_some]
    exact set_follows hcount hctx dbusValidateBusName field value ok
  | appendArgs o args ok left =>
    obtain ⟨ctx, hctx⟩ := exists_lookup henabled
    simp only [exec, hctx, Option.bind_eq_bind, Option.bind_some]
    exact appendArgs_follows hcount hctx args ok left
  | send o serial =>
    obtain ⟨ctx, hctx⟩ := exists_lookup henabled
    simp only [exec, hctx, Option.bind_eq_bind, Option.bind_some]
    exact send_follows hcount hctx serial
  | pendingCall o reply => exact pendingCall_follows hcount henabled.1 henabled.2
  | arrive r content => exact arrive_follows hcount henabled content
  | release r => exact release_follows hcount henabled

/-- A step leads to what `exec` says. -/
theorem step_follows {s : State} {label : Label} {m' : Option State}
    (hcount : Counted s.heap s.holders) (henabled : s.enabled label)
    (hstep : (system dbusValidateBusName).step (some s) label = some m') :
    ∃ s', m' = some s' ∧ Counted s'.heap s'.holders ∧
      ((held s.objects).Nodup → s.Fresh label →
        (held s'.objects).Nodup ∧ s'.values = s.values.step dbusValidateBusName label) := by
  have hfollows : Follows s (s.Fresh label) (s.values.step dbusValidateBusName label)
      (exec dbusValidateBusName s label) := exec_follows hcount henabled
  obtain ⟨s', thrown, hresult, hcount', hvalues⟩ := hfollows
  refine ⟨s', ?_, hcount', hvalues⟩
  simpa [system, hresult] using hstep.symm

/-- In every run of message objects no message is used that has been freed, and what libdbus
    counts for a message are the objects and the places in libdbus that refer to it: a message
    lives exactly as long as there is one. -/
theorem counted_of_reachable {m : Option State}
    (h : (system dbusValidateBusName).ReachableWhen Enabled m) :
    ∃ s, m = some s ∧
      (∀ r, s.heap.refs r = s.libdbus.count r + (held s.objects).count r) ∧
      ∀ r, s.heap r = none ↔ r ∉ s.libdbus ∧ ∀ o, s.objects.lookup o ≠ some (some r) := by
  have hinv : ∃ s, m = some s ∧ Counted s.heap s.holders := by
    apply h.invariant
    case initial =>
      rintro _ rfl
      exact ⟨_, rfl, RefHeap.counted_empty⟩
    case preserved =>
      rintro _ label m' ⟨s, rfl, hcount⟩ henabled hstep
      obtain ⟨s', hnext, hcount', -⟩ := step_follows hcount (henabled s rfl) hstep
      exact ⟨s', hnext, hcount'⟩
  obtain ⟨s, rfl, hcount⟩ := hinv
  refine ⟨s, rfl, fun r => ?_, fun r => ?_⟩
  · rw [hcount.refs, State.holders, Multiset.count_add]
  · rw [hcount.eq_none_iff, State.holders, Multiset.mem_add, not_or, mem_held_iff, not_exists]

/-- The objects of a run hold what values hold, from any state in which no two of them share a
    message. -/
theorem values_of_allowedRun {s : State} {labels : List Label}
    (hcount : Counted s.heap s.holders) (happart : (held s.objects).Nodup)
    (hallowed : (system dbusValidateBusName).AllowedRun EnabledFresh (some s) labels) :
    ∃ s', (system dbusValidateBusName).run (some s) labels = some (some s') ∧
      s'.values = s.values.run dbusValidateBusName labels := by
  induction labels generalizing s with
  | nil => exact ⟨s, rfl, rfl⟩
  | cons label rest ih =>
    obtain ⟨hlabel, hrest⟩ := hallowed
    obtain ⟨henabled, hfresh⟩ := hlabel s rfl
    cases hstep : (system dbusValidateBusName).step (some s) label with
    | none => simp [system] at hstep
    | some m' =>
      obtain ⟨next, rfl, hcount', hvalues⟩ := step_follows hcount henabled hstep
      obtain ⟨happart', hnext⟩ := hvalues happart hfresh
      rw [hstep] at hrest
      obtain ⟨s', hrun, hs'⟩ := ih hcount' happart' hrest
      refine ⟨s', ?_, ?_⟩
      · rw [TransitionSystem.run, hstep]
        exact hrun
      · rw [Values.run, List.foldl_cons, ← hnext]
        exact hs'

/-- In every run in which a message is wrapped by one object at a time, the objects
    behave like values: copies are independent, a moved message is in one object only, and what is
    done to an object or to libdbus changes no other object. -/
theorem behaves_like_values {labels : List Label}
    (hallowed : (system dbusValidateBusName).AllowedRun EnabledFresh (some initial) labels) :
    ∃ s, (system dbusValidateBusName).run (some initial) labels = some (some s) ∧
      s.values = Values.run (fun _ => none) dbusValidateBusName labels :=
  values_of_allowedRun RefHeap.counted_empty Multiset.nodup_zero hallowed

end Runs

/-! ### A signal that is kept -/

/-- A signal from the bus. -/
def signal : Content := dbusMessageNew dbusMessageTypeSignal none (text "/a") none (text "S")

/-- A handler copies a signal that it is given and changes the copy, which outlives the signal. -/
def keptLabels : List Label :=
  [.arrive 7 signal, .wrap 0 (some (7, signal)), .copyConstruct 1 0 (some 8),
    .set 1 .name (text "T") true, .appendArgs 1 [.cString (text "x")] true [], .destroy 0,
    .release 7]

theorem keptLabels_allowed :
    (system fun _ => true).AllowedRun EnabledFresh (some initial) keptLabels := by
  have hheld : 7 ∈ 7 ::ₘ (0 : Multiset Nat) := Multiset.mem_cons_self 7 0
  refine ⟨?_, ?_, ?_, ?_, ?_, ?_, ?_, trivial⟩
  all_goals
    intro s hs
    obtain rfl := Option.some.inj hs
  · exact ⟨rfl, trivial⟩
  · refine ⟨⟨AList.lookup_eq_none.mp rfl, fun m hm => ?_⟩, fun m hm => Multiset.notMem_zero _⟩
    obtain rfl := Option.some.inj hm
    exact ⟨hheld, rfl⟩
  · refine ⟨⟨AList.lookup_eq_none.mp rfl, AList.lookup_isSome.mp rfl, fun r hr => ?_⟩, trivial⟩
    obtain rfl := Option.some.inj hr
    rfl
  · exact ⟨AList.lookup_isSome.mp rfl, trivial⟩
  · exact ⟨AList.lookup_isSome.mp rfl, trivial⟩
  · exact ⟨AList.lookup_isSome.mp rfl, trivial⟩
  · exact ⟨hheld, trivial⟩

/-- The copy holds what it has been given. -/
theorem keptLabels_values : ∃ s, (system fun _ => true).run (some initial) keptLabels =
    some (some s) ∧ s.values = Values.run (fun _ => none) (fun _ => true) keptLabels :=
  behaves_like_values keptLabels_allowed

def kept : Option State :=
  ((system fun _ => true).run (some initial) keptLabels).getD none

/-- No other message is left behind. -/
theorem kept_counted : ∃ s, kept = some s ∧
    (∀ r, s.heap.refs r = s.libdbus.count r + (held s.objects).count r) ∧
      ∀ r, s.heap r = none ↔ r ∉ s.libdbus ∧ ∀ o, s.objects.lookup o ≠ some (some r) := by
  have hallowed : (system fun _ => true).AllowedRun Enabled (some initial) keptLabels :=
    keptLabels_allowed.mono fun m label h s hs => (h s hs).1
  exact counted_of_reachable (TransitionSystem.reachableWhen_of_run keptLabels rfl hallowed rfl)

end Ultrabus.Handles
