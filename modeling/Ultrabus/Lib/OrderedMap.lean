import Mathlib.Data.List.Forall2
import Mathlib.Data.List.Induction
import Mathlib.Order.Basic
import Mathlib.Order.Lattice
import Mathlib.Data.List.Pairwise

/-! # Ordered maps as sorted entry lists

An ordered map (a balanced search tree with a user-supplied `less`) seen through its
iteration order: a list of entries, in which a key is looked up by its lower bound
and two keys of which neither is less than the other count as the same.

The order need not be total on all keys.  `StrictWeakOn` names the set of keys on
which `less` behaves; everything about sortedness and lookup is stated on such a
set, so that a key outside it (an unordered one) can be studied separately. -/

namespace OrderedMap

variable {κ ν : Type*} (less : κ → κ → Bool)

/-- Neither key is less than the other. -/
def equiv (a b : κ) : Bool := !less a b && !less b a

/-- `items[key] = value`: the entry at the lower bound of `key` is overwritten when its
    key is equivalent (the stored key stays), otherwise a new one goes in front of it. -/
def assign (key : κ) (value : ν) : List (κ × ν) → List (κ × ν)
  | [] => [(key, value)]
  | (stored, old) :: rest =>
    if less stored key then (stored, old) :: assign key value rest
    else if less key stored then (key, value) :: (stored, old) :: rest
    else (stored, value) :: rest

/-- `items.emplace (key, value)`: an entry with an equivalent key stays as it is. -/
def emplace (key : κ) (value : ν) : List (κ × ν) → List (κ × ν)
  | [] => [(key, value)]
  | (stored, old) :: rest =>
    if less stored key then (stored, old) :: emplace key value rest
    else if less key stored then (key, value) :: (stored, old) :: rest
    else (stored, old) :: rest

/-- The value at the lower bound of `key`, if the key there is equivalent. -/
def lookup (key : κ) : List (κ × ν) → Option ν
  | [] => none
  | (stored, value) :: rest =>
    if less stored key then lookup key rest else if less key stored then none else some value

/-- The map built by assigning the entries one after the other. -/
def ofEntries (entries : List (κ × ν)) : List (κ × ν) :=
  entries.foldl (fun items entry => assign less entry.1 entry.2 items) []

/-- The value of the last entry whose key is the `same` as `key`. -/
def lastValue (same : κ → κ → Bool) (key : κ) (entries : List (κ × ν)) : Option ν :=
  entries.foldl (fun found entry => if same entry.1 key then some entry.2 else found) none

/-- `less` is a strict weak order on the keys in `S`. -/
structure StrictWeakOn (S : κ → Prop) : Prop where
  asymm : ∀ a b, S a → S b → less a b = true → less b a = false
  cotrans : ∀ a b c, S a → S b → S c → less a c = true → less a b = true ∨ less b c = true

/-- Iteration order: every key is less than all later ones. -/
def Sorted (items : List (κ × ν)) : Prop := items.Pairwise fun a b => less a.1 b.1 = true

variable {less}

theorem ofEntries_concat (entries : List (κ × ν)) (entry : κ × ν) :
    ofEntries less (entries ++ [entry]) = assign less entry.1 entry.2 (ofEntries less entries) := by
  simp [ofEntries, List.foldl_append]

theorem lastValue_concat (same : κ → κ → Bool) (key : κ) (entries : List (κ × ν))
    (entry : κ × ν) :
    lastValue same key (entries ++ [entry]) =
      if same entry.1 key then some entry.2 else lastValue same key entries := by
  simp [lastValue, List.foldl_append]

theorem lastValue_congr {same same' : κ → κ → Bool} {key key' : κ} {entries : List (κ × ν)}
    (h : ∀ entry ∈ entries, same entry.1 key = same' entry.1 key') :
    lastValue same key entries = lastValue same' key' entries := by
  induction entries using List.reverseRecOn with
  | nil => rfl
  | append_singleton entries entry ih =>
    rw [lastValue_concat, lastValue_concat, h entry (by simp), ih fun e he => h e (by simp [he])]

/-- Entry lists with the same keys and related values have related last values. -/
theorem lastValue_rel {ν' : Type*} {R : ν → ν' → Prop} (same : κ → κ → Bool) (key : κ)
    {entries : List (κ × ν)} {entries' : List (κ × ν')}
    (h : List.Forall₂ (fun e e' => e'.1 = e.1 ∧ R e.2 e'.2) entries entries') :
    Option.Rel R (lastValue same key entries) (lastValue same key entries') := by
  -- The values found so far are related all along the two folds.
  refine List.rel_foldl (P := Option.Rel R) ?_ .none h
  intro found found' hfound e e' ⟨hkey, hvalue⟩
  dsimp only
  rw [hkey]
  split
  · exact .some hvalue
  · exact hfound

/-- Assigning brings in no value but its own. -/
theorem value_of_mem_assign {key : κ} {value : ν} {items : List (κ × ν)} {e : κ × ν}
    (h : e ∈ assign less key value items) : e.2 = value ∨ ∃ e' ∈ items, e'.2 = e.2 := by
  induction items with
  | nil => exact .inl (congrArg Prod.snd (List.mem_singleton.mp h))
  | cons entry rest ih =>
    obtain ⟨stored, old⟩ := entry
    rw [assign] at h
    split at h
    case isTrue =>
      obtain rfl | h := List.mem_cons.mp h
      · exact .inr ⟨_, List.mem_cons_self, rfl⟩
      · exact (ih h).imp_right fun ⟨e', he', heq⟩ => ⟨e', List.mem_cons_of_mem _ he', heq⟩
    case isFalse =>
      split at h
      case isTrue =>
        obtain rfl | h := List.mem_cons.mp h
        · exact .inl rfl
        · exact .inr ⟨e, h, rfl⟩
      case isFalse =>
        obtain rfl | h := List.mem_cons.mp h
        · exact .inl rfl
        · exact .inr ⟨e, List.mem_cons_of_mem _ h, rfl⟩

/-- Assigning commutes with a function on the values. -/
theorem assign_map {ν' : Type*} (f : ν → ν') (key : κ) (value : ν) (items : List (κ × ν)) :
    assign less key (f value) (items.map fun i => (i.1, f i.2)) =
      (assign less key value items).map fun i => (i.1, f i.2) := by
  induction items with
  | nil => rfl
  | cons entry rest ih =>
    obtain ⟨stored, old⟩ := entry
    simp only [List.map_cons, assign, ih]
    split
    · rfl
    · split <;> rfl

/-- The second of two assignments to one key is the one that counts. -/
theorem assign_assign {key : κ} (hirrefl : less key key = false) (value value' : ν)
    (items : List (κ × ν)) :
    assign less key value' (assign less key value items) = assign less key value' items := by
  induction items with
  | nil => simp [assign, hirrefl]
  | cons entry rest ih =>
    obtain ⟨stored, old⟩ := entry
    by_cases hstored : less stored key = true
    · simp only [assign, if_pos hstored, ih]
    · by_cases hkey : less key stored = true
      · simp only [assign, if_neg hstored, if_pos hkey, hirrefl, Bool.false_eq_true, if_false]
      · simp only [assign, if_neg hstored, if_neg hkey]

theorem mem_emplace {key : κ} {value : ν} {items : List (κ × ν)} {e : κ × ν}
    (h : e ∈ emplace less key value items) : e = (key, value) ∨ e ∈ items := by
  induction items with
  | nil => exact .inl (List.mem_singleton.mp h)
  | cons entry rest ih =>
    obtain ⟨stored, old⟩ := entry
    rw [emplace] at h
    split at h
    case isTrue =>
      obtain rfl | h := List.mem_cons.mp h
      · exact .inr List.mem_cons_self
      · exact (ih h).imp_right (List.mem_cons_of_mem _)
    case isFalse =>
      split at h
      case isTrue => exact List.mem_cons.mp h
      case isFalse => exact .inr h

/-- Where equivalent keys are equal, one key is added. -/
theorem mem_keys_emplace_iff {key k : κ} {value : ν} {items : List (κ × ν)}
    (h : ∀ stored, stored ∈ items.map Prod.fst → equiv less stored key = true → stored = key) :
    k ∈ (emplace less key value items).map Prod.fst ↔ k = key ∨ k ∈ items.map Prod.fst := by
  induction items with
  | nil => simp [emplace]
  | cons entry rest ih =>
    obtain ⟨stored, old⟩ := entry
    simp only [List.map_cons, List.forall_mem_cons] at h
    have hrest := ih h.2
    simp only [emplace]
    split
    · simp only [List.map_cons, List.mem_cons, hrest]
      tauto
    · split
      · simp only [List.map_cons, List.mem_cons]
      · rename_i hless hgreater
        have hsame : stored = key := h.1 (by simp [equiv, hless, hgreater])
        simp only [List.map_cons, List.mem_cons, hsame]
        tauto

theorem equiv_comm (a b : κ) : equiv less a b = equiv less b a := by
  simp [equiv, Bool.and_comm]

namespace StrictWeakOn

variable {S : κ → Prop}

theorem irrefl (order : StrictWeakOn less S) {a : κ} (ha : S a) : less a a = false := by
  cases h : less a a with
  | false => rfl
  | true => exact h.symm.trans (order.asymm a a ha ha h)

theorem equiv_refl (order : StrictWeakOn less S) {a : κ} (ha : S a) : equiv less a a = true := by
  simp [equiv, order.irrefl ha]

theorem trans (order : StrictWeakOn less S) {a b c : κ} (ha : S a) (hb : S b) (hc : S c)
    (hab : less a b = true) (hbc : less b c = true) : less a c = true := by
  rcases order.cotrans a c b ha hc hb hab with h | h
  · exact h
  · simp [order.asymm b c hb hc hbc] at h

/-- A key equivalent to `b` compares with every key as `b` does. -/
theorem less_congr_left (order : StrictWeakOn less S) {a b c : κ} (ha : S a) (hb : S b) (hc : S c)
    (hab : equiv less a b = true) (hac : less a c = true) : less b c = true := by
  simp only [equiv, Bool.and_eq_true, Bool.not_eq_true'] at hab
  rcases order.cotrans a b c ha hb hc hac with h | h
  · simp [hab.1] at h
  · exact h

theorem less_congr_right (order : StrictWeakOn less S) {a b c : κ} (ha : S a) (hb : S b) (hc : S c)
    (hab : equiv less a b = true) (hca : less c a = true) : less c b = true := by
  simp only [equiv, Bool.and_eq_true, Bool.not_eq_true'] at hab
  rcases order.cotrans c b a hc hb ha hca with h | h
  · exact h
  · simp [hab.2] at h

theorem equiv_trans (order : StrictWeakOn less S) {a b c : κ} (ha : S a) (hb : S b) (hc : S c)
    (hab : equiv less a b = true) (hbc : equiv less b c = true) : equiv less a c = true := by
  have hba : equiv less b a = true := by rwa [equiv_comm]
  have hcb : equiv less c b = true := by rwa [equiv_comm]
  simp only [equiv, Bool.and_eq_true, Bool.not_eq_true'] at hbc ⊢
  constructor
  · cases h : less a c with
    | false => rfl
    | true => simp [order.less_congr_left ha hb hc hab h] at hbc
  · cases h : less c a with
    | false => rfl
    | true => simp [order.less_congr_right ha hb hc hab h] at hbc

theorem equiv_congr_right (order : StrictWeakOn less S) {a b c : κ} (ha : S a) (hb : S b)
    (hc : S c) (hbc : equiv less b c = true) : equiv less a b = equiv less a c := by
  have hcb : equiv less c b = true := by rwa [equiv_comm]
  apply Bool.eq_iff_iff.mpr
  constructor
  · intro hab
    exact order.equiv_trans ha hb hc hab hbc
  · intro hac
    exact order.equiv_trans ha hc hb hac hcb

/-- Keys compared by a rank in a linear order. -/
theorem of_rank {L : Type*} [LinearOrder L] (rank : κ → L)
    (h : ∀ a b, S a → S b → (less a b = true ↔ rank a < rank b)) : StrictWeakOn less S where
  asymm a b ha hb hab := by
    have hrank := (h a b ha hb).mp hab
    cases hba : less b a with
    | false => rfl
    | true => exact absurd ((h b a hb ha).mp hba) (not_lt_of_gt hrank)
  cotrans a b c ha hb hc hac := by
    rw [h a b ha hb, h b c hb hc]
    exact (lt_or_ge (rank a) (rank b)).imp_right fun hle => hle.trans_lt ((h a c ha hc).mp hac)

theorem equiv_iff_rank {L : Type*} [LinearOrder L] (rank : κ → L)
    (h : ∀ a b, S a → S b → (less a b = true ↔ rank a < rank b)) {a b : κ} (ha : S a) (hb : S b) :
    equiv less a b = true ↔ rank a = rank b := by
  have hab := h a b ha hb
  have hba := h b a hb ha
  simp only [equiv, Bool.and_eq_true, Bool.not_eq_true', ← Bool.not_eq_true, hab, hba]
  constructor
  · rintro ⟨h₁, h₂⟩
    exact le_antisymm (not_lt.mp h₂) (not_lt.mp h₁)
  · intro heq
    simp [heq]

end StrictWeakOn

/-! ## One assignment -/

theorem mem_keys_assign {key k : κ} {value : ν} {items : List (κ × ν)}
    (h : k ∈ (assign less key value items).map Prod.fst) : k = key ∨ k ∈ items.map Prod.fst := by
  induction items with
  | nil => simpa [assign] using h
  | cons entry rest ih =>
    obtain ⟨stored, old⟩ := entry
    simp only [assign] at h
    split at h
    · simp only [List.map_cons, List.mem_cons] at h ⊢
      rcases h with h | h
      · exact .inr (.inl h)
      · rcases ih h with h | h
        · exact .inl h
        · exact .inr (.inr h)
    · split at h <;> simp only [List.map_cons, List.mem_cons] at h ⊢ <;> tauto

theorem keys_subset_assign {key k : κ} {value : ν} {items : List (κ × ν)}
    (h : k ∈ items.map Prod.fst) : k ∈ (assign less key value items).map Prod.fst := by
  induction items with
  | nil => simp at h
  | cons entry rest ih =>
    obtain ⟨stored, old⟩ := entry
    simp only [List.map_cons, List.mem_cons] at h
    simp only [assign]
    split
    · rcases h with h | h
      · simp [h]
      · simp only [List.map_cons, List.mem_cons]
        exact .inr (ih h)
    · split <;> simp only [List.map_cons, List.mem_cons] <;> tauto

variable {S : κ → Prop}

/-- The keys of a map, all of them in `S`. -/
def KeysIn (S : κ → Prop) (items : List (κ × ν)) : Prop := ∀ entry ∈ items, S entry.1

theorem KeysIn.assign {key : κ} {value : ν} {items : List (κ × ν)} (hkey : S key)
    (hitems : KeysIn S items) : KeysIn S (assign less key value items) := by
  intro entry hentry
  rcases mem_keys_assign (List.mem_map_of_mem hentry) with h | h
  · exact h ▸ hkey
  · obtain ⟨other, hother, heq⟩ := List.mem_map.mp h
    exact heq ▸ hitems other hother

/-- What a sorted map says of its first entry and of the entries behind it. -/
theorem Sorted.uncons {stored : κ} {old : ν} {rest : List (κ × ν)}
    (hsorted : Sorted less ((stored, old) :: rest)) (hkeys : KeysIn S ((stored, old) :: rest)) :
    S stored ∧ KeysIn S rest ∧ (∀ e ∈ rest, less stored e.1 = true) ∧ Sorted less rest := by
  obtain ⟨hstored, hrest⟩ := List.forall_mem_cons.mp hkeys
  obtain ⟨hfirst, htail⟩ := List.pairwise_cons.mp hsorted
  exact ⟨hstored, hrest, hfirst, htail⟩

theorem Sorted.assign (order : StrictWeakOn less S) {key : κ} {value : ν} {items : List (κ × ν)}
    (hkey : S key) (hkeys : KeysIn S items) (hsorted : Sorted less items) :
    Sorted less (assign less key value items) := by
  induction items with
  | nil => simp [OrderedMap.assign, Sorted]
  | cons entry rest ih =>
    obtain ⟨stored, old⟩ := entry
    obtain ⟨hstored, hrest, hfirst, htail⟩ := hsorted.uncons hkeys
    simp only [OrderedMap.assign]
    split
    · -- The first entry stays in front of what is assigned behind it.
      rename_i hless
      refine List.pairwise_cons.mpr ⟨fun e he => ?_, ih hrest htail⟩
      rcases mem_keys_assign (List.mem_map_of_mem (f := Prod.fst) he) with h | h
      · exact h ▸ hless
      · obtain ⟨other, hother, heq⟩ := List.mem_map.mp h
        exact heq ▸ hfirst other hother
    · split
      · -- The new entry is less than the first one, and so than all others.
        rename_i hless
        refine List.pairwise_cons.mpr ⟨fun e he => ?_, hsorted⟩
        rcases List.mem_cons.mp he with h | h
        · exact h ▸ hless
        · exact order.trans hkey hstored (hrest e h) hless (hfirst e h)
      · exact List.pairwise_cons.mpr ⟨fun e he => hfirst e he, htail⟩

/-- An entry for a key that is not there is added. -/
theorem emplace_perm {key : κ} (value : ν) {items : List (κ × ν)}
    (h : ∀ entry ∈ items, equiv less entry.1 key = false) :
    (emplace less key value items).Perm ((key, value) :: items) := by
  induction items with
  | nil => exact .refl _
  | cons entry rest ih =>
    obtain ⟨stored, old⟩ := entry
    obtain ⟨hstored, hrest⟩ := List.forall_mem_cons.mp h
    simp only [emplace]
    split
    · exact ((ih hrest).cons _).trans (.swap _ _ _)
    · split
      · exact .refl _
      · rename_i hless hgreater
        simp [equiv, hless, hgreater] at hstored

/-- An entry for a key that is there is not. -/
theorem emplace_of_mem (order : StrictWeakOn less S) {key : κ} (value : ν) {items : List (κ × ν)}
    (hkey : S key) (hkeys : KeysIn S items) (hsorted : Sorted less items) {e : κ × ν}
    (he : e ∈ items) (hequiv : equiv less e.1 key = true) :
    emplace less key value items = items := by
  induction items with
  | nil => cases he
  | cons entry rest ih =>
    obtain ⟨stored, old⟩ := entry
    obtain ⟨hstored, hrest, hfirst, htail⟩ := hsorted.uncons hkeys
    simp only [equiv, Bool.and_eq_true, Bool.not_eq_true'] at hequiv
    simp only [emplace]
    obtain rfl | he := List.mem_cons.mp he
    · simp [hequiv]
    · split
      · rw [ih hrest htail he]
      · split
        · -- All entries from here on are greater than the key.
          rename_i hgreater
          have hless := order.trans hkey hstored (hrest e he) hgreater (hfirst e he)
          simp [hless] at hequiv
        · rfl

theorem Sorted.emplace (order : StrictWeakOn less S) {key : κ} {value : ν} {items : List (κ × ν)}
    (hkey : S key) (hkeys : KeysIn S items) (hsorted : Sorted less items) :
    Sorted less (emplace less key value items) := by
  induction items with
  | nil => simp [OrderedMap.emplace, Sorted]
  | cons entry rest ih =>
    obtain ⟨stored, old⟩ := entry
    obtain ⟨hstored, hrest, hfirst, htail⟩ := hsorted.uncons hkeys
    simp only [OrderedMap.emplace]
    split
    · rename_i hless
      refine List.pairwise_cons.mpr ⟨fun e he => ?_, ih hrest htail⟩
      obtain rfl | he := mem_emplace he
      · exact hless
      · exact hfirst e he
    · split
      · rename_i hless
        refine List.pairwise_cons.mpr ⟨fun e he => ?_, hsorted⟩
        obtain rfl | he := List.mem_cons.mp he
        · exact hless
        · exact order.trans hkey hstored (hrest e he) hless (hfirst e he)
      · exact hsorted

theorem assign_of_forall_less {key : κ} {value : ν} {items : List (κ × ν)}
    (h : ∀ entry ∈ items, less entry.1 key = true) :
    assign less key value items = items ++ [(key, value)] := by
  induction items with
  | nil => rfl
  | cons entry rest ih =>
    obtain ⟨stored, old⟩ := entry
    have hhead : less stored key = true := h (stored, old) List.mem_cons_self
    simp only [assign, hhead, if_true, List.cons_append,
      ih fun e he => h e (List.mem_cons_of_mem _ he)]

/-- An entry that is greater than all others goes to the end. -/
theorem emplace_of_forall_less {key : κ} (value : ν) {items : List (κ × ν)}
    (h : ∀ entry ∈ items, less entry.1 key = true) :
    emplace less key value items = items ++ [(key, value)] := by
  induction items with
  | nil => rfl
  | cons entry rest ih =>
    obtain ⟨stored, old⟩ := entry
    obtain ⟨hhead, hrest⟩ := List.forall_mem_cons.mp h
    simp only [emplace, if_pos hhead, ih hrest, List.cons_append]

/-- A look-up commutes with a renaming of the keys that keeps their order, and with a function
    on the values. -/
theorem lookup_map {κ' ν' : Type*} (less' : κ' → κ' → Bool) (f : κ → κ') (g : ν → ν') {key : κ}
    {items : List (κ × ν)} (h : ∀ i ∈ items, less' (f i.1) (f key) = less i.1 key ∧
      less' (f key) (f i.1) = less key i.1) :
    lookup less' (f key) (items.map fun i => (f i.1, g i.2)) = (lookup less key items).map g := by
  induction items with
  | nil => rfl
  | cons entry rest ih =>
    obtain ⟨stored, value⟩ := entry
    obtain ⟨⟨hless, hgreater⟩, hrest⟩ := List.forall_mem_cons.mp h
    simp only [List.map_cons, lookup, hless, hgreater, ih hrest]
    split
    · rfl
    · split <;> rfl

/-- The entries of a sorted map, assigned in order, give the map back. -/
theorem ofEntries_of_sorted {items : List (κ × ν)} (hsorted : Sorted less items) :
    ofEntries less items = items := by
  induction items using List.reverseRecOn with
  | nil => rfl
  | append_singleton items entry ih =>
    obtain ⟨hinit, -, hlast⟩ := List.pairwise_append.mp hsorted
    rw [ofEntries_concat, ih hinit, assign_of_forall_less]
    exact fun e he => hlast e he entry (List.mem_singleton_self _)

/-- After an assignment the map holds, for the keys of an entry, either the new value
    (the keys are equivalent) or an entry it had before. -/
theorem mem_assign (order : StrictWeakOn less S) {key : κ} {value : ν} {items : List (κ × ν)}
    (hkey : S key) (hkeys : KeysIn S items) (hsorted : Sorted less items) {k : κ} {v : ν}
    (h : (k, v) ∈ assign less key value items) :
    if equiv less key k then v = value else (k, v) ∈ items := by
  induction items with
  | nil =>
    simp only [assign, List.mem_singleton, Prod.mk.injEq] at h
    simp [h.1, h.2, order.equiv_refl hkey]
  | cons entry rest ih =>
    obtain ⟨stored, old⟩ := entry
    obtain ⟨hstored, hrest, hfirst, htail⟩ := hsorted.uncons hkeys
    simp only [assign] at h
    split at h
    · -- The assignment goes on behind the first entry.
      rename_i hless
      rcases List.mem_cons.mp h with h | h
      · obtain ⟨rfl, rfl⟩ := Prod.mk.inj h
        simp [equiv, hless]
      · have := ih hrest htail h
        split <;> rename_i heq
        · simpa [heq] using this
        · exact List.mem_cons_of_mem _ (by simpa [heq] using this)
    · rename_i hnot
      split at h
      · -- A new first entry, less than all that were there.
        rename_i hless
        rcases List.mem_cons.mp h with h | h
        · obtain ⟨rfl, rfl⟩ := Prod.mk.inj h
          simp [order.equiv_refl hkey]
        · have hk : less key k = true := by
            rcases List.mem_cons.mp h with h | h
            · exact (Prod.mk.inj h).1 ▸ hless
            · exact order.trans hkey hstored (hrest (k, v) h) hless (hfirst (k, v) h)
          simpa [equiv, hk] using h
      · -- The first entry has an equivalent key, which is kept.
        rename_i hnot'
        rcases List.mem_cons.mp h with h | h
        · obtain ⟨rfl, rfl⟩ := Prod.mk.inj h
          simp [equiv, hnot, hnot']
        · have heqv : equiv less stored key = true := by simp [equiv, hnot, hnot']
          have hk : less key k = true :=
            order.less_congr_left hstored hkey (hrest (k, v) h) heqv (hfirst (k, v) h)
          have hmem : (k, v) ∈ (stored, old) :: rest := List.mem_cons_of_mem _ h
          simpa [equiv, hk] using hmem

theorem exists_equiv_assign (order : StrictWeakOn less S) {key : κ} {value : ν}
    {items : List (κ × ν)} (hkey : S key) :
    ∃ k ∈ (assign less key value items).map Prod.fst, equiv less key k = true := by
  induction items with
  | nil => exact ⟨key, by simp [assign], order.equiv_refl hkey⟩
  | cons entry rest ih =>
    obtain ⟨stored, old⟩ := entry
    simp only [assign]
    split
    · obtain ⟨k, hk, heqv⟩ := ih
      exact ⟨k, by simp only [List.map_cons, List.mem_cons]; exact .inr hk, heqv⟩
    · rename_i hnot
      split
      · exact ⟨key, by simp, order.equiv_refl hkey⟩
      · rename_i hnot'
        exact ⟨stored, by simp, by simp [equiv, hnot, hnot']⟩

/-- A look-up finds what was assigned to its key, and what was there for other keys. -/
theorem lookup_assign (order : StrictWeakOn less S) {key k : κ} {value : ν}
    {items : List (κ × ν)} (hkey : S key) (hk : S k) (hkeys : KeysIn S items) :
    lookup less k (assign less key value items) =
      if equiv less key k then some value else lookup less k items := by
  induction items with
  | nil =>
    simp only [assign, lookup, equiv]
    by_cases hless : less key k = true <;> by_cases hgreater : less k key = true <;>
      simp [hless, hgreater]
  | cons entry rest ih =>
    obtain ⟨stored, old⟩ := entry
    obtain ⟨hstored, hrest⟩ := List.forall_mem_cons.mp hkeys
    by_cases hless : less stored key = true
    · -- The assignment goes on behind the first entry.
      rw [assign, if_pos hless, lookup, ih hrest, lookup]
      by_cases heqv : equiv less key k = true
      · have hk₁ := order.less_congr_right hkey hk hstored heqv hless
        rw [if_pos hk₁, if_pos heqv, if_pos heqv]
      · rw [if_neg heqv, if_neg heqv]
    · by_cases hgreater : less key stored = true
      · -- A new first entry.
        rw [assign, if_neg hless, if_pos hgreater, lookup]
        by_cases hk₁ : less key k = true
        · simp [equiv, hk₁]
        · by_cases hk₂ : less k key = true
          · have hsmall := order.trans hk hkey hstored hk₂ hgreater
            simp [equiv, hk₁, hk₂, lookup, order.asymm _ _ hk hstored hsmall, hsmall]
          · simp [equiv, hk₁, hk₂]
      · -- The first entry has an equivalent key.
        have heqv : equiv less stored key = true := by simp [equiv, hless, hgreater]
        have hsame : equiv less key k = equiv less stored k := by
          rw [equiv_comm key k, equiv_comm stored k]
          exact (order.equiv_congr_right hk hstored hkey heqv).symm
        rw [assign, if_neg hless, if_neg hgreater, lookup, hsame]
        by_cases hk₁ : less stored k = true
        · simp [equiv, hk₁, lookup]
        · by_cases hk₂ : less k stored = true
          · simp [equiv, hk₁, hk₂, lookup]
          · simp [equiv, hk₁, hk₂]

/-! ## A whole sequence of assignments -/

theorem KeysIn.ofEntries {entries : List (κ × ν)} (h : KeysIn S entries) :
    KeysIn S (ofEntries less entries) := by
  induction entries using List.reverseRecOn with
  | nil => intro e he; simp [OrderedMap.ofEntries] at he
  | append_singleton entries entry ih =>
    rw [ofEntries_concat]
    exact KeysIn.assign (h entry (by simp)) (ih fun e he => h e (by simp [he]))

theorem sorted_ofEntries (order : StrictWeakOn less S) {entries : List (κ × ν)}
    (h : KeysIn S entries) : Sorted less (ofEntries less entries) := by
  induction entries using List.reverseRecOn with
  | nil => simp [ofEntries, Sorted]
  | append_singleton entries entry ih =>
    have hinit : KeysIn S entries := fun e he => h e (by simp [he])
    rw [ofEntries_concat]
    exact Sorted.assign order (h entry (by simp)) hinit.ofEntries (ih hinit)

theorem mem_keys_of_mem_ofEntries {entries : List (κ × ν)} {k : κ}
    (h : k ∈ (ofEntries less entries).map Prod.fst) : k ∈ entries.map Prod.fst := by
  induction entries using List.reverseRecOn with
  | nil => simp [ofEntries] at h
  | append_singleton entries entry ih =>
    rw [ofEntries_concat] at h
    rcases mem_keys_assign h with h | h
    · simp [h]
    · simp only [List.map_append, List.mem_append]
      exact .inl (ih h)

theorem value_of_mem_ofEntries {entries : List (κ × ν)} {e : κ × ν}
    (h : e ∈ ofEntries less entries) : ∃ e' ∈ entries, e'.2 = e.2 := by
  induction entries using List.reverseRecOn generalizing e with
  | nil => cases h
  | append_singleton entries entry ih =>
    rw [ofEntries_concat] at h
    obtain hvalue | ⟨e', he', hvalue⟩ := value_of_mem_assign h
    · exact ⟨entry, by simp, hvalue.symm⟩
    · obtain ⟨e'', he'', hvalue'⟩ := ih he'
      exact ⟨e'', List.mem_append_left _ he'', hvalue'.trans hvalue⟩

theorem exists_equiv_ofEntries (order : StrictWeakOn less S) {entries : List (κ × ν)}
    (h : KeysIn S entries) {key : κ} (hkey : key ∈ entries.map Prod.fst) :
    ∃ k ∈ (ofEntries less entries).map Prod.fst, equiv less key k = true := by
  induction entries using List.reverseRecOn with
  | nil => simp at hkey
  | append_singleton entries entry ih =>
    have hentry : S entry.1 := h entry (by simp)
    rw [ofEntries_concat]
    simp only [List.map_append, List.mem_append, List.map_cons, List.map_nil,
      List.mem_singleton] at hkey
    rcases hkey with hkey | hkey
    · obtain ⟨k, hk, heqv⟩ := ih (fun e he => h e (by simp [he])) hkey
      exact ⟨k, keys_subset_assign hk, heqv⟩
    · subst hkey
      exact exists_equiv_assign order hentry

/-- The value the map holds for a key is the last one assigned to it. -/
theorem lastValue_of_mem_ofEntries (order : StrictWeakOn less S) {entries : List (κ × ν)}
    (h : KeysIn S entries) {k : κ} {v : ν} (hmem : (k, v) ∈ ofEntries less entries) :
    lastValue (equiv less) k entries = some v := by
  induction entries using List.reverseRecOn generalizing k v with
  | nil => simp [ofEntries] at hmem
  | append_singleton entries entry ih =>
    have hinit : KeysIn S entries := fun e he => h e (by simp [he])
    rw [ofEntries_concat] at hmem
    have := mem_assign order (h entry (by simp)) hinit.ofEntries (sorted_ofEntries order hinit) hmem
    rw [lastValue_concat]
    split <;> rename_i heqv
    · rw [if_pos heqv] at this
      rw [this]
    · rw [if_neg heqv] at this
      exact ih hinit this

/-- A look-up finds the last value that was assigned. -/
theorem lookup_ofEntries (order : StrictWeakOn less S) {entries : List (κ × ν)}
    (h : KeysIn S entries) {key : κ} (hkey : S key) :
    lookup less key (ofEntries less entries) = lastValue (equiv less) key entries := by
  induction entries using List.reverseRecOn with
  | nil => rfl
  | append_singleton entries entry ih =>
    have hinit : KeysIn S entries := fun e he => h e (by simp [he])
    rw [ofEntries_concat, lookup_assign order (h entry (by simp)) hkey hinit.ofEntries, ih hinit,
      lastValue_concat]

/-! ## Keys outside the order -/

/-- A key that compares with no other one. -/
def Unordered (less : κ → κ → Bool) (key : κ) : Prop :=
  ∀ other, less key other = false ∧ less other key = false

/-- One unordered key alone is an order, in which it is equivalent to itself. -/
theorem StrictWeakOn.of_unordered {key : κ} (h : Unordered less key) :
    StrictWeakOn less (fun k => k = key) where
  asymm a b ha hb hab := by
    subst ha hb
    exact (h b).1
  cotrans a b c ha hb hc hac := by
    subst ha hb
    simp [(h c).1] at hac

theorem assign_unordered {key stored : κ} {value old : ν} {rest : List (κ × ν)}
    (h : Unordered less key) :
    assign less key value ((stored, old) :: rest) = (stored, value) :: rest := by
  simp [assign, (h stored).1, (h stored).2]

/-- A map whose first key is unordered keeps absorbing every assignment. -/
theorem assign_singleton_unordered {key stored : κ} {value old : ν} (h : Unordered less stored) :
    assign less key value [(stored, old)] = [(stored, value)] := by
  simp [assign, (h key).1, (h key).2]

/-- When the first entry's key is unordered, it is the only key of the map. -/
theorem ofEntries_unordered_first {key : κ} {value : ν} {rest : List (κ × ν)}
    (h : Unordered less key) :
    ∃ last, ofEntries less ((key, value) :: rest) = [(key, last)] := by
  induction rest using List.reverseRecOn with
  | nil => exact ⟨value, rfl⟩
  | append_singleton rest entry ih =>
    obtain ⟨last, hitems⟩ := ih
    exact ⟨entry.2, by
      rw [← List.cons_append, ofEntries_concat, hitems, assign_singleton_unordered h]⟩

/-- When the first entry's key is in the order, no unordered key gets into the map. -/
theorem keysIn_ofEntries_of_first {first : κ × ν} {rest : List (κ × ν)} (hfirst : S first.1)
    (hrest : ∀ entry ∈ rest, S entry.1 ∨ Unordered less entry.1) :
    KeysIn S (ofEntries less (first :: rest)) := by
  -- An unordered key overwrites the first entry, so that there has to be one.
  have hne : ∀ entries : List (κ × ν), ofEntries less (first :: entries) ≠ [] := by
    intro entries
    induction entries using List.reverseRecOn with
    | nil => simp [ofEntries, assign]
    | append_singleton entries entry ih =>
      rw [← List.cons_append, ofEntries_concat]
      cases hitems : ofEntries less (first :: entries) with
      | nil => exact absurd hitems ih
      | cons head tail =>
        simp only [assign]
        split
        · simp
        · split <;> simp
  induction rest using List.reverseRecOn with
  | nil =>
    intro entry hentry
    simp only [ofEntries, List.foldl_cons, List.foldl_nil, assign, List.mem_singleton] at hentry
    exact hentry ▸ hfirst
  | append_singleton rest entry ih =>
    have hinit := ih fun e he => hrest e (by simp [he])
    rw [← List.cons_append, ofEntries_concat]
    rcases hrest entry (by simp) with hin | hout
    · exact hinit.assign hin
    · cases hitems : ofEntries less (first :: rest) with
      | nil => exact absurd hitems (hne rest)
      | cons head tail =>
        obtain ⟨stored, old⟩ := head
        rw [hitems] at hinit
        rw [assign_unordered hout]
        intro e he
        rcases List.mem_cons.mp he with h | h
        · exact h ▸ hinit (stored, old) List.mem_cons_self
        · exact hinit e (List.mem_cons_of_mem _ h)

/-- The map is sorted even if some of the keys are unordered. -/
theorem sorted_ofEntries_of_unordered (order : StrictWeakOn less S) {entries : List (κ × ν)}
    (h : ∀ entry ∈ entries, S entry.1 ∨ Unordered less entry.1) :
    Sorted less (ofEntries less entries) := by
  cases entries with
  | nil => simp [ofEntries, Sorted]
  | cons first rest =>
    obtain hfirst | hfirst := h first List.mem_cons_self
    · induction rest using List.reverseRecOn with
      | nil => simp [ofEntries, assign, Sorted]
      | append_singleton rest entry ih =>
        have hrest : ∀ e ∈ rest, S e.1 ∨ Unordered less e.1 := fun e he => h e (by simp [he])
        have hinit := ih fun e he => by
          rcases List.mem_cons.mp he with rfl | he
          · exact .inl hfirst
          · exact hrest e he
        rw [← List.cons_append, ofEntries_concat]
        obtain hin | hout := h entry (by simp)
        · exact Sorted.assign order hin (keysIn_ofEntries_of_first hfirst hrest) hinit
        · -- The value at the front is overwritten, and the keys stay.
          cases hitems : ofEntries less (first :: rest) with
          | nil => simp [assign, Sorted]
          | cons head tail =>
            rw [hitems, Sorted, List.pairwise_cons] at hinit
            rw [assign_unordered hout, Sorted, List.pairwise_cons]
            exact hinit
    · have honly : ∃ last, ofEntries less (first :: rest) = [(first.1, last)] :=
        ofEntries_unordered_first hfirst
      obtain ⟨last, hitems⟩ := honly
      rw [hitems]
      simp [Sorted]

end OrderedMap
