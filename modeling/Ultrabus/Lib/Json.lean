import Mathlib.Data.List.TakeWhile
import Mathlib.Tactic.Common

/-! # JSON texts

A JSON text is a sequence of bytes in UTF-8.  `Json.Denotes` is its grammar, with the value
that a text stands for.  `Json.render` writes a value without white space, and `Json.read`
reads what `render` writes: `read_render` says that nothing is lost on the way, and
`denotes_render` that what is written is in the grammar. -/

/-- A JSON value.  A number is kept as it is written, strings and names are UTF-8 texts. -/
inductive Json where
  | null
  | boolean (value : Bool)
  | number (lexeme : List UInt8)
  | string (value : List UInt8)
  | array (items : List Json)
  | object (members : List (List UInt8 × Json))
deriving Repr

namespace Json

/-! ## Characters -/

/-- The bytes of an ASCII text. -/
def ascii (s : String) : List UInt8 := s.toList.map Char.toUInt8

abbrev quote : UInt8 := 0x22
abbrev backslash : UInt8 := 0x5C
abbrev comma : UInt8 := 0x2C
abbrev colon : UInt8 := 0x3A
abbrev beginArray : UInt8 := 0x5B
abbrev endArray : UInt8 := 0x5D
abbrev beginObject : UInt8 := 0x7B
abbrev endObject : UInt8 := 0x7D

def Between (low high b : UInt8) : Prop := low ≤ b ∧ b ≤ high

abbrev Tail (b : UInt8) : Prop := Between 0x80 0xBF b

/-- One character in UTF-8: the shortest form, and no surrogate. -/
inductive Utf8Char : List UInt8 → Prop where
  | ascii {b : UInt8} : b < 0x80 → Utf8Char [b]
  | two {b c : UInt8} : Between 0xC2 0xDF b → Tail c → Utf8Char [b, c]
  | three {b c d : UInt8} : Between 0xE0 0xEF b →
      Between (if b = 0xE0 then 0xA0 else 0x80) (if b = 0xED then 0x9F else 0xBF) c →
      Tail d → Utf8Char [b, c, d]
  | four {b c d e : UInt8} : Between 0xF0 0xF4 b →
      Between (if b = 0xF0 then 0x90 else 0x80) (if b = 0xF4 then 0x8F else 0xBF) c →
      Tail d → Tail e → Utf8Char [b, c, d, e]

/-- A text in UTF-8. -/
inductive Utf8 : List UInt8 → Prop where
  | nil : Utf8 []
  | cons {c s : List UInt8} : Utf8Char c → Utf8 s → Utf8 (c ++ s)

/-- The UTF-8 bytes of a character by its number. -/
def encode (n : Nat) : List UInt8 :=
  if n < 0x80 then [.ofNat n]
  else if n < 0x800 then [.ofNat (0xC0 + n / 0x40), .ofNat (0x80 + n % 0x40)]
  else if n < 0x10000 then
    [.ofNat (0xE0 + n / 0x1000), .ofNat (0x80 + n / 0x40 % 0x40), .ofNat (0x80 + n % 0x40)]
  else
    [.ofNat (0xF0 + n / 0x40000), .ofNat (0x80 + n / 0x1000 % 0x40),
      .ofNat (0x80 + n / 0x40 % 0x40), .ofNat (0x80 + n % 0x40)]

/-! ## Strings -/

/-- The escapes of one letter that a string needs, with what they stand for. -/
def shortEscapes : List (UInt8 × UInt8) :=
  [(quote, quote), (backslash, backslash), (0x62, 0x08), (0x66, 0x0C), (0x6E, 0x0A), (0x72, 0x0D),
    (0x74, 0x09)]

/-- All escapes of one letter: a slash may be escaped as well. -/
def escapes : List (UInt8 × UInt8) := (0x2F, 0x2F) :: shortEscapes

def hexDigit? (b : UInt8) : Option Nat :=
  if 0x30 ≤ b ∧ b ≤ 0x39 then some (b.toNat - 0x30)
  else if 0x41 ≤ b ∧ b ≤ 0x46 then some (b.toNat - 0x41 + 10)
  else if 0x61 ≤ b ∧ b ≤ 0x66 then some (b.toNat - 0x61 + 10)
  else none

/-- Four hexadecimal digits and the number that they make. -/
def IsHex (digits : List UInt8) (n : Nat) : Prop :=
  ∃ b c d e i j k l, digits = [b, c, d, e] ∧ hexDigit? b = some i ∧ hexDigit? c = some j ∧
    hexDigit? d = some k ∧ hexDigit? e = some l ∧ n = ((i * 16 + j) * 16 + k) * 16 + l

/-- What stands between the quotes of a string, and the text that it denotes.  Surrogates
    are written in pairs. -/
inductive Chars : List UInt8 → List UInt8 → Prop where
  | nil : Chars [] []
  | unescaped {c t s : List UInt8} : Utf8Char c →
      (∀ b ∈ c, 0x20 ≤ b ∧ b ≠ quote ∧ b ≠ backslash) → Chars t s → Chars (c ++ t) (c ++ s)
  | escaped {e b : UInt8} {t s : List UInt8} : (e, b) ∈ escapes → Chars t s →
      Chars (backslash :: e :: t) (b :: s)
  | hex {h t s : List UInt8} {n : Nat} : IsHex h n → ¬ (0xD800 ≤ n ∧ n < 0xE000) → Chars t s →
      Chars (backslash :: 0x75 :: (h ++ t)) (encode n ++ s)
  | surrogates {h l t s : List UInt8} {m n : Nat} : IsHex h m → 0xD800 ≤ m ∧ m < 0xDC00 →
      IsHex l n → 0xDC00 ≤ n ∧ n < 0xE000 → Chars t s →
      Chars (backslash :: 0x75 :: (h ++ backslash :: 0x75 :: (l ++ t)))
        (encode (0x10000 + (m - 0xD800) * 0x400 + (n - 0xDC00)) ++ s)

/-! ## Numbers -/

def IsDigit (b : UInt8) : Prop := Between 0x30 0x39 b

def Digits (t : List UInt8) : Prop := t ≠ [] ∧ ∀ b ∈ t, IsDigit b

/-- No leading zeros. -/
def IntPart (t : List UInt8) : Prop := Digits t ∧ (t.head? = some 0x30 → t = [0x30])

def FractionPart (t : List UInt8) : Prop := t = [] ∨ ∃ ds, t = 0x2E :: ds ∧ Digits ds

def ExponentPart (t : List UInt8) : Prop :=
  t = [] ∨ ∃ e sign ds, t = e :: (sign ++ ds) ∧ (e = 0x65 ∨ e = 0x45) ∧
    (sign = [] ∨ sign = [0x2B] ∨ sign = [0x2D]) ∧ Digits ds

def IsNumber (t : List UInt8) : Prop :=
  ∃ minus int frac exp, t = minus ++ int ++ frac ++ exp ∧ (minus = [] ∨ minus = [0x2D]) ∧
    IntPart int ∧ FractionPart frac ∧ ExponentPart exp

/-! ## The grammar -/

/-- White space. -/
def Ws (t : List UInt8) : Prop := ∀ b ∈ t, b = 0x20 ∨ b = 0x09 ∨ b = 0x0A ∨ b = 0x0D

mutual
/-- A text without white space around it, and the value that it denotes. -/
inductive Denotes : List UInt8 → Json → Prop where
  | null : Denotes (ascii "null") .null
  | true : Denotes (ascii "true") (.boolean .true)
  | false : Denotes (ascii "false") (.boolean .false)
  | number {t : List UInt8} : IsNumber t → Denotes t (.number t)
  | string {t s : List UInt8} : Chars t s → Denotes (quote :: (t ++ [quote])) (.string s)
  | emptyArray {w : List UInt8} : Ws w → Denotes (beginArray :: (w ++ [endArray])) (.array [])
  | array {t : List UInt8} {items : List Json} : Elements t items →
      Denotes (beginArray :: (t ++ [endArray])) (.array items)
  | emptyObject {w : List UInt8} : Ws w → Denotes (beginObject :: (w ++ [endObject])) (.object [])
  | object {t : List UInt8} {members : List (List UInt8 × Json)} : Members t members →
      Denotes (beginObject :: (t ++ [endObject])) (.object members)

/-- One or more values with commas between them. -/
inductive Elements : List UInt8 → List Json → Prop where
  | one {l t r : List UInt8} {v : Json} : Ws l → Denotes t v → Ws r →
      Elements (l ++ (t ++ r)) [v]
  | more {l t r ts : List UInt8} {v : Json} {vs : List Json} : Ws l → Denotes t v → Ws r →
      Elements ts vs → Elements (l ++ (t ++ (r ++ comma :: ts))) (v :: vs)

/-- One or more names with values. -/
inductive Members : List UInt8 → List (List UInt8 × Json) → Prop where
  | one {l k m m' t r name : List UInt8} {v : Json} : Ws l → Chars k name → Ws m → Ws m' →
      Denotes t v → Ws r →
      Members (l ++ quote :: (k ++ quote :: (m ++ colon :: (m' ++ (t ++ r))))) [(name, v)]
  | more {l k m m' t r ts name : List UInt8} {v : Json} {vs : List (List UInt8 × Json)} :
      Ws l → Chars k name → Ws m → Ws m' → Denotes t v → Ws r → Members ts vs →
      Members (l ++ quote :: (k ++ quote :: (m ++ colon :: (m' ++ (t ++ (r ++ comma :: ts))))))
        ((name, v) :: vs)
end

/-- A JSON text and its value. -/
def IsText (t : List UInt8) (v : Json) : Prop :=
  ∃ l t' r, t = l ++ (t' ++ r) ∧ Ws l ∧ Denotes t' v ∧ Ws r

/-! ## Writing -/

/-- A hexadecimal digit in lower case. -/
def hexByte (n : Nat) : UInt8 := if n < 10 then .ofNat (0x30 + n) else .ofNat (0x57 + n)

/-- A byte of a string: escaped if it is a control character, a quote or a backslash. -/
def renderByte (b : UInt8) : List UInt8 :=
  match shortEscapes.find? (·.2 = b) with
  | some e => [backslash, e.1]
  | none =>
    if b < 0x20 then
      [backslash, 0x75, 0x30, 0x30, hexByte (b.toNat / 16), hexByte (b.toNat % 16)]
    else [b]

def renderString (s : List UInt8) : List UInt8 := quote :: (s.flatMap renderByte ++ [quote])

mutual
/-- The text of a value, without white space. -/
def render : Json → List UInt8
  | .null => ascii "null"
  | .boolean value => if value then ascii "true" else ascii "false"
  | .number lexeme => lexeme
  | .string value => renderString value
  | .array items => beginArray :: (renderItems items ++ [endArray])
  | .object members => beginObject :: (renderMembers members ++ [endObject])

def renderItems : List Json → List UInt8
  | [] => []
  | v :: vs => render v ++ renderMoreItems vs

def renderMoreItems : List Json → List UInt8
  | [] => []
  | v :: vs => comma :: (render v ++ renderMoreItems vs)

def renderMembers : List (List UInt8 × Json) → List UInt8
  | [] => []
  | (name, v) :: vs => renderString name ++ colon :: (render v ++ renderMoreMembers vs)

def renderMoreMembers : List (List UInt8 × Json) → List UInt8
  | [] => []
  | (name, v) :: vs =>
    comma :: (renderString name ++ colon :: (render v ++ renderMoreMembers vs))
end

/-- Values that have a text: numbers as they may be written, and texts in UTF-8. -/
inductive WellFormed : Json → Prop where
  | null : WellFormed .null
  | boolean {value : Bool} : WellFormed (.boolean value)
  | number {t : List UInt8} : IsNumber t → WellFormed (.number t)
  | string {s : List UInt8} : Utf8 s → WellFormed (.string s)
  | array {items : List Json} : (∀ item ∈ items, WellFormed item) → WellFormed (.array items)
  | object {members : List (List UInt8 × Json)} : (∀ m ∈ members, Utf8 m.1) →
      (∀ m ∈ members, WellFormed m.2) → WellFormed (.object members)

/-! ## Reading -/

/-- The string up to the closing quote, and what follows. -/
def readString : List UInt8 → Option (List UInt8 × List UInt8)
  | [] => none
  | b :: rest =>
    if b = quote then some ([], rest)
    else if b = backslash then
      match rest with
      | [] => none
      | e :: rest =>
        if e = 0x75 then
          match rest with
          | _ :: _ :: h :: l :: rest => do
            let i ← hexDigit? h
            let j ← hexDigit? l
            let (s, rest) ← readString rest
            return (.ofNat (i * 16 + j) :: s, rest)
          | _ => none
        else do
          let (_, b) ← escapes.find? (·.1 = e)
          let (s, rest) ← readString rest
          return (b :: s, rest)
    else do
      let (s, rest) ← readString rest
      return (b :: s, rest)

/-- A byte that occurs in numbers. -/
def isNumberByte (b : UInt8) : Bool :=
  (0x30 ≤ b && b ≤ 0x39) || b = 0x2D || b = 0x2B || b = 0x2E || b = 0x65 || b = 0x45

mutual
/-- A value in front of a text, and what follows. -/
def readValue : Nat → List UInt8 → Option (Json × List UInt8)
  | 0, _ | _, [] => none
  | fuel + 1, b :: rest =>
    if b = quote then (readString rest).map fun (s, rest) => (.string s, rest)
    else if b = beginArray then
      if rest.head? = some endArray then some (.array [], rest.tail)
      else (readItems fuel rest).map fun (vs, rest) => (.array vs, rest)
    else if b = beginObject then
      if rest.head? = some endObject then some (.object [], rest.tail)
      else (readMembers fuel rest).map fun (vs, rest) => (.object vs, rest)
    else if isNumberByte b then
      some (.number (b :: rest.takeWhile isNumberByte), rest.dropWhile isNumberByte)
    else if (ascii "null").isPrefixOf (b :: rest) then some (.null, rest.drop 3)
    else if (ascii "true").isPrefixOf (b :: rest) then some (.boolean true, rest.drop 3)
    else if (ascii "false").isPrefixOf (b :: rest) then some (.boolean false, rest.drop 4)
    else none

/-- Values with commas between them, up to the end of the array. -/
def readItems : Nat → List UInt8 → Option (List Json × List UInt8)
  | 0, _ => none
  | fuel + 1, t => do
    let (v, rest) ← readValue fuel t
    if rest.head? = some endArray then return ([v], rest.tail)
    else if rest.head? = some comma then
      let (vs, rest) ← readItems fuel rest.tail
      return (v :: vs, rest)
    else none

/-- Names with values, up to the end of the object. -/
def readMembers : Nat → List UInt8 → Option (List (List UInt8 × Json) × List UInt8)
  | 0, _ | _, [] => none
  | fuel + 1, b :: t => do
    if b ≠ quote then none
    else
      let (name, rest) ← readString t
      if rest.head? ≠ some colon then none
      else
        let (v, rest) ← readValue fuel rest.tail
        if rest.head? = some endObject then return ([(name, v)], rest.tail)
        else if rest.head? = some comma then
          let (vs, rest) ← readMembers fuel rest.tail
          return ((name, v) :: vs, rest)
        else none
end

/-- The value of a text that `render` has written. -/
def read (t : List UInt8) : Option Json :=
  match readValue (t.length + 1) t with
  | some (v, []) => some v
  | _ => none

/-! ## Strings that are written -/

/-- How a byte of a string is written. -/
theorem renderByte_cases (b : UInt8) :
    (∃ e, (e, b) ∈ shortEscapes ∧ renderByte b = [backslash, e]) ∨
    (b.toNat < 0x20 ∧ renderByte b =
      [backslash, 0x75, 0x30, 0x30, hexByte (b.toNat / 16), hexByte (b.toNat % 16)]) ∨
    (0x20 ≤ b ∧ b ≠ quote ∧ b ≠ backslash ∧ renderByte b = [b]) := by
  unfold renderByte
  cases hfind : shortEscapes.find? (·.2 = b) with
  | some e =>
    have heq : e.2 = b := by simpa using List.find?_some hfind
    exact .inl ⟨e.1, heq ▸ List.mem_of_find?_eq_some hfind, rfl⟩
  | none =>
    by_cases hcontrol : b < 0x20
    · exact .inr (.inl ⟨UInt8.lt_iff_toNat_lt.mp hcontrol, if_pos hcontrol⟩)
    · have hnot := List.find?_eq_none.mp hfind
      refine .inr (.inr ⟨UInt8.not_lt.mp hcontrol, ?_, ?_, if_neg hcontrol⟩)
      · rintro rfl
        exact absurd rfl
          (of_decide_eq_false (Bool.eq_false_iff.mpr (hnot (quote, quote) (by decide))))
      · rintro rfl
        exact absurd rfl
          (of_decide_eq_false (Bool.eq_false_iff.mpr (hnot (backslash, backslash) (by decide))))

theorem hexDigit?_hexByte {n : Nat} (h : n < 16) : hexDigit? (hexByte n) = some n := by
  revert n
  decide

/-- The two digits of a byte. -/
theorem ofNat_digits (b : UInt8) : UInt8.ofNat (b.toNat / 16 * 16 + b.toNat % 16) = b := by
  rw [Nat.div_add_mod', UInt8.ofNat_toNat]

/-- Put a byte in front of a string that has been read. -/
def consRead (b : UInt8) (r : Option (List UInt8 × List UInt8)) :
    Option (List UInt8 × List UInt8) :=
  r.map fun (s, rest) => (b :: s, rest)

theorem readString_plain {b : UInt8} (hquote : b ≠ quote) (hbackslash : b ≠ backslash)
    (rest : List UInt8) : readString (b :: rest) = consRead b (readString rest) := by
  rw [readString.eq_def]
  simp only [if_neg hquote, if_neg hbackslash]
  cases readString rest <;> rfl

theorem readString_escape {e b : UInt8} (hmem : (e, b) ∈ shortEscapes) (rest : List UInt8) :
    readString (backslash :: e :: rest) = consRead b (readString rest) := by
  have hletters : ∀ x ∈ shortEscapes, x.1 ≠ 0x75 ∧ escapes.find? (·.1 = x.1) = some x := by
    simp only [shortEscapes, List.forall_mem_cons]
    exact ⟨by decide, by decide, by decide, by decide, by decide, by decide, by decide, nofun⟩
  obtain ⟨hne, hfind⟩ := hletters _ hmem
  rw [readString.eq_def]
  simp only [if_neg (show backslash ≠ quote by decide), if_true, if_neg hne, hfind]
  cases readString rest <;> rfl

theorem readString_hex {h l : UInt8} {i j : Nat} (hh : hexDigit? h = some i)
    (hl : hexDigit? l = some j) (rest : List UInt8) :
    readString (backslash :: 0x75 :: 0x30 :: 0x30 :: h :: l :: rest) =
      consRead (.ofNat (i * 16 + j)) (readString rest) := by
  rw [readString.eq_def]
  simp only [if_neg (show backslash ≠ quote by decide), if_true, hh, hl]
  cases readString rest <;> rfl

theorem readString_renderByte (b : UInt8) (rest : List UInt8) :
    readString (renderByte b ++ rest) = consRead b (readString rest) := by
  obtain ⟨e, hmem, hrender⟩ | ⟨hcontrol, hrender⟩ | ⟨-, hquote, hbackslash, hrender⟩ :=
    renderByte_cases b
  · rw [hrender]
    exact readString_escape hmem rest
  · rw [hrender]
    have hhigh := hexDigit?_hexByte (show b.toNat / 16 < 16 by omega)
    have hlow := hexDigit?_hexByte (show b.toNat % 16 < 16 by omega)
    exact (readString_hex hhigh hlow rest).trans (by rw [ofNat_digits])
  · rw [hrender]
    exact readString_plain hquote hbackslash rest

theorem readString_render (s rest : List UInt8) :
    readString (s.flatMap renderByte ++ quote :: rest) = some (s, rest) := by
  induction s with
  | nil =>
    rw [List.flatMap_nil, List.nil_append, readString.eq_def]
    exact if_pos rfl
  | cons b s ih =>
    rw [List.flatMap_cons, List.append_assoc, readString_renderByte, ih]
    rfl

/-- Characters other than ASCII are written as they are. -/
theorem renderByte_of_ge {b : UInt8} (h : 0x80 ≤ b) : renderByte b = [b] := by
  obtain ⟨e, hmem, -⟩ | ⟨hcontrol, -⟩ | ⟨-, -, -, hrender⟩ := renderByte_cases b
  · have hascii : ∀ x ∈ shortEscapes, ¬ 0x80 ≤ x.2 := by
      simp only [shortEscapes, List.forall_mem_cons]
      exact ⟨by decide, by decide, by decide, by decide, by decide, by decide, by decide, nofun⟩
    exact absurd h (hascii _ hmem)
  · have hge := UInt8.le_iff_toNat_le.mp h
    have : (0x80 : UInt8).toNat = 0x80 := rfl
    omega
  · exact hrender

/-- What is written for an ASCII character denotes it. -/
theorem Chars.renderByte {b : UInt8} (hb : b < 0x80) {t s : List UInt8} (h : Chars t s) :
    Chars (renderByte b ++ t) (b :: s) := by
  obtain ⟨e, hmem, hrender⟩ | ⟨hcontrol, hrender⟩ | ⟨hge, hquote, hbackslash, hrender⟩ :=
    renderByte_cases b
  · rw [hrender]
    exact .escaped (List.mem_cons_of_mem _ hmem) h
  · have hhex : IsHex [0x30, 0x30, hexByte (b.toNat / 16), hexByte (b.toNat % 16)] b.toNat :=
      ⟨_, _, _, _, 0, 0, _, _, rfl, rfl, rfl, hexDigit?_hexByte (by omega),
        hexDigit?_hexByte (by omega), by omega⟩
    have hencode : encode b.toNat = [b] := by
      rw [encode, if_pos (by omega), UInt8.ofNat_toNat]
    rw [hrender]
    have hchars := Chars.hex hhex (by omega) h
    rw [hencode] at hchars
    exact hchars
  · rw [hrender]
    exact .unescaped (.ascii hb) (by simpa using ⟨hge, hquote, hbackslash⟩) h

/-- The bytes of other characters are not in the ASCII range. -/
theorem Utf8Char.ascii_or_ge {c : List UInt8} (h : Utf8Char c) :
    (∃ b, c = [b] ∧ b < 0x80) ∨ ∀ b ∈ c, 0x80 ≤ b := by
  have hle : ∀ {low b : UInt8}, 0x80 ≤ low → low ≤ b → 0x80 ≤ b := fun h h' => UInt8.le_trans h h'
  cases h with
  | ascii hb => exact .inl ⟨_, rfl, hb⟩
  | two hb hc =>
    refine .inr ?_
    simp only [List.forall_mem_cons, List.not_mem_nil, false_imp_iff, implies_true, and_true]
    exact ⟨hle (by decide) hb.1, hc.1⟩
  | @three b c d hb hc hd =>
    refine .inr ?_
    simp only [List.forall_mem_cons, List.not_mem_nil, false_imp_iff, implies_true, and_true]
    refine ⟨hle (by decide) hb.1, hle ?_ hc.1, hd.1⟩
    split <;> decide
  | @four b c d e hb hc hd he =>
    refine .inr ?_
    simp only [List.forall_mem_cons, List.not_mem_nil, false_imp_iff, implies_true, and_true]
    refine ⟨hle (by decide) hb.1, hle ?_ hc.1, hd.1, he.1⟩
    split <;> decide

theorem flatMap_renderByte_of_ge {c : List UInt8} (h : ∀ b ∈ c, 0x80 ≤ b) :
    c.flatMap Json.renderByte = c := by
  induction c with
  | nil => rfl
  | cons b c ih =>
    obtain ⟨hb, hc⟩ := List.forall_mem_cons.mp h
    rw [List.flatMap_cons, renderByte_of_ge hb, ih hc, List.singleton_append]

/-- What is written for a text denotes it. -/
theorem chars_render {s : List UInt8} (h : Utf8 s) : Chars (s.flatMap Json.renderByte) s := by
  induction h with
  | nil => exact .nil
  | @cons c s hc _ ih =>
    rw [List.flatMap_append]
    obtain ⟨b, rfl, hb⟩ | hge := hc.ascii_or_ge
    · rw [List.flatMap_singleton]
      exact ih.renderByte hb
    · rw [flatMap_renderByte_of_ge hge]
      refine .unescaped hc (fun b hb => ?_) ih
      have hb := hge b hb
      refine ⟨UInt8.le_trans (by decide) hb, ?_, ?_⟩
      · rintro rfl
        exact absurd hb (by decide)
      · rintro rfl
        exact absurd hb (by decide)

/-! ## Integers -/

def natText (n : Nat) : List UInt8 := (Nat.toDigits 10 n).map Char.toUInt8

/-- An integer in decimal digits. -/
def intText : Int → List UInt8
  | .ofNat n => natText n
  | .negSucc n => 0x2D :: natText (n + 1)

def ofNatText (t : List UInt8) : Nat := Nat.ofDigitChars 10 (t.map fun b => Char.ofNat b.toNat) 0

/-- The integer that decimal digits make. -/
def ofIntText : List UInt8 → Int
  | 0x2D :: t => -(ofNatText t : Int)
  | t => ofNatText t

/-- The byte of a digit, and the way back. -/
theorem toUInt8_of_isDigit {c : Char} (h : c.isDigit = true) :
    IsDigit c.toUInt8 ∧ Char.ofNat c.toUInt8.toNat = c := by
  simp only [Char.isDigit, Bool.and_eq_true, decide_eq_true_eq, ge_iff_le,
    UInt32.le_iff_toNat_le] at h
  have hnine : '9'.val.toNat = 57 := rfl
  have hbyte : c.toUInt8.toNat = c.val.toNat := by
    show c.val.toNat % 256 = c.val.toNat
    omega
  refine ⟨?_, ?_⟩
  · rw [IsDigit, Between, UInt8.le_iff_toNat_le, UInt8.le_iff_toNat_le, hbyte]
    exact h
  · rw [hbyte]
    exact Char.ofNat_toNat c

/-- Only zero starts with a zero. -/
theorem eq_zero_of_head_toDigits {n : Nat} (h : (Nat.toDigits 10 n).head? = some '0') : n = 0 := by
  induction n using Nat.strongRecOn with
  | ind n ih =>
    by_cases hlt : n < 10
    · rw [Nat.toDigits_of_lt_base hlt] at h
      exact Nat.digitChar_eq_zero.mp (Option.some.inj h)
    · rw [Nat.toDigits_of_base_le (by decide) (by omega),
        List.head?_append, List.head?_eq_some_head Nat.toDigits_ne_nil, Option.some_or] at h
      have := ih (n / 10) (by omega) (by rw [List.head?_eq_some_head Nat.toDigits_ne_nil, h])
      omega

theorem natText_digits (n : Nat) : Digits (natText n) := by
  refine ⟨by simp [natText, Nat.toDigits_ne_nil], ?_⟩
  intro b hb
  obtain ⟨c, hc, rfl⟩ := List.mem_map.mp hb
  exact (toUInt8_of_isDigit (Nat.isDigit_of_mem_toDigits (by decide) (by decide) hc)).1

theorem natText_intPart (n : Nat) : IntPart (natText n) := by
  refine ⟨natText_digits n, fun hhead => ?_⟩
  have hdigits : (Nat.toDigits 10 n).head? = some '0' := by
    rw [natText, List.head?_map] at hhead
    obtain ⟨c, hc, hzero⟩ := Option.map_eq_some_iff.mp hhead
    have hmem := List.mem_of_mem_head? hc
    have hback := (toUInt8_of_isDigit (Nat.isDigit_of_mem_toDigits (by decide) (by decide) hmem)).2
    rw [hzero] at hback
    rw [hc, ← hback]
    rfl
  rw [eq_zero_of_head_toDigits hdigits]
  rfl

/-- Integers are written as numbers. -/
theorem intText_isNumber (n : Int) : IsNumber (intText n) := by
  cases n with
  | ofNat n =>
    exact ⟨[], natText n, [], [], by simp [intText], .inl rfl, natText_intPart n, .inl rfl,
      .inl rfl⟩
  | negSucc n =>
    exact ⟨[0x2D], natText (n + 1), [], [], by simp [intText], .inr rfl, natText_intPart _,
      .inl rfl, .inl rfl⟩

theorem ofNatText_natText (n : Nat) : ofNatText (natText n) = n := by
  have hmap : (natText n).map (fun b => Char.ofNat b.toNat) = Nat.toDigits 10 n := by
    rw [natText, List.map_map]
    refine (List.map_congr_left fun c hc => ?_).trans (List.map_id _)
    exact (toUInt8_of_isDigit (Nat.isDigit_of_mem_toDigits (by decide) (by decide) hc)).2
  rw [ofNatText, hmap, Nat.ofDigitChars_ten_toDigits]

theorem ofIntText_intText (n : Int) : ofIntText (intText n) = n := by
  cases n with
  | ofNat n =>
    rw [intText, ofIntText]
    · rw [ofNatText_natText]
      rfl
    · intro t ht
      have hdigit := (natText_digits n).2 0x2D (by rw [ht]; exact List.mem_cons_self)
      exact absurd hdigit.1 (by decide)
  | negSucc n =>
    rw [intText, ofIntText, ofNatText_natText]
    rfl

/-! ## What is written is in the grammar -/

theorem ws_nil : Ws [] := fun _ hb => by cases hb

theorem elements_render {v : Json} {vs : List Json}
    (h : ∀ item ∈ v :: vs, Denotes (render item) item) :
    Elements (renderItems (v :: vs)) (v :: vs) := by
  obtain ⟨hv, hvs⟩ := List.forall_mem_cons.mp h
  induction vs generalizing v with
  | nil => simpa [renderItems, renderMoreItems] using Elements.one ws_nil hv ws_nil
  | cons v' vs ih =>
    obtain ⟨hv', hvs'⟩ := List.forall_mem_cons.mp hvs
    simpa [renderItems, renderMoreItems] using Elements.more ws_nil hv ws_nil (ih hvs hv' hvs')

theorem members_render {name : List UInt8} {v : Json} {vs : List (List UInt8 × Json)}
    (hnames : ∀ m ∈ (name, v) :: vs, Utf8 m.1)
    (h : ∀ m ∈ (name, v) :: vs, Denotes (render m.2) m.2) :
    Members (renderMembers ((name, v) :: vs)) ((name, v) :: vs) := by
  obtain ⟨hname, hnames'⟩ := List.forall_mem_cons.mp hnames
  obtain ⟨hv, hvs⟩ := List.forall_mem_cons.mp h
  induction vs generalizing name v with
  | nil =>
    simpa [renderMembers, renderMoreMembers, renderString] using
      Members.one ws_nil (chars_render hname) ws_nil ws_nil hv ws_nil
  | cons m vs ih =>
    obtain ⟨hname', hnames''⟩ := List.forall_mem_cons.mp hnames'
    obtain ⟨hv', hvs'⟩ := List.forall_mem_cons.mp hvs
    simpa [renderMembers, renderMoreMembers, renderString] using
      Members.more ws_nil (chars_render hname) ws_nil ws_nil hv ws_nil
        (ih hnames' hvs hname' hnames'' hv' hvs')

theorem denotes_render {v : Json} (h : v.WellFormed) : Denotes (render v) v := by
  induction h with
  | null => exact .null
  | @boolean value =>
    cases value with
    | false => exact .false
    | true => exact .true
  | number ht => exact .number ht
  | string hs => exact .string (chars_render hs)
  | @array items _ ih =>
    cases items with
    | nil => exact .emptyArray ws_nil
    | cons v vs => exact .array (elements_render ih)
  | @object members hnames _ ih =>
    cases members with
    | nil => exact .emptyObject ws_nil
    | cons m vs => exact .object (members_render hnames ih)

theorem isText_render {v : Json} (h : v.WellFormed) : IsText (render v) v :=
  ⟨[], render v, [], by simp, ws_nil, denotes_render h, ws_nil⟩

/-! ## What is written is read back -/

/-- No number goes on in the text. -/
def EndsNumber (t : List UInt8) : Prop := ∀ b, t.head? = some b → isNumberByte b = false

theorem endsNumber_cons {b : UInt8} (h : isNumberByte b = false) (t : List UInt8) :
    EndsNumber (b :: t) := by
  rintro _ ⟨⟩
  exact h

theorem Digits.isNumberByte {t : List UInt8} (h : Digits t) : ∀ b ∈ t, isNumberByte b = true := by
  intro b hb
  obtain ⟨hlow, hhigh⟩ := h.2 b hb
  simp [Json.isNumberByte, hlow, hhigh]

/-- A number is made of bytes of numbers. -/
theorem IsNumber.bytes {t : List UInt8} (h : IsNumber t) :
    t ≠ [] ∧ ∀ b ∈ t, isNumberByte b = true := by
  obtain ⟨minus, int, frac, exp, rfl, hminus, hint, hfrac, hexp⟩ := h
  refine ⟨by simp [hint.1.1], ?_⟩
  simp only [List.forall_mem_append]
  refine ⟨⟨⟨?_, hint.1.isNumberByte⟩, ?_⟩, ?_⟩
  · obtain rfl | rfl := hminus
    · exact nofun
    · exact List.forall_mem_singleton.mpr rfl
  · obtain rfl | ⟨ds, rfl, hds⟩ := hfrac
    · simp
    · exact List.forall_mem_cons.mpr ⟨by decide, hds.isNumberByte⟩
  · obtain rfl | ⟨e, sign, ds, rfl, he, hsign, hds⟩ := hexp
    · simp
    · refine List.forall_mem_cons.mpr ⟨?_, List.forall_mem_append.mpr ⟨?_, hds.isNumberByte⟩⟩
      · obtain rfl | rfl := he <;> decide
      · obtain rfl | rfl | rfl := hsign
        · exact nofun
        · exact List.forall_mem_singleton.mpr rfl
        · exact List.forall_mem_singleton.mpr rfl

theorem takeWhile_number {t rest : List UInt8} (ht : ∀ b ∈ t, isNumberByte b = true)
    (hrest : EndsNumber rest) :
    (t ++ rest).takeWhile isNumberByte = t ∧ (t ++ rest).dropWhile isNumberByte = rest := by
  have hstop : rest.takeWhile isNumberByte = [] ∧ rest.dropWhile isNumberByte = rest := by
    cases rest with
    | nil => exact ⟨rfl, rfl⟩
    | cons b rest => simp [hrest b rfl]
  rw [List.takeWhile_append_of_pos ht, List.dropWhile_append_of_pos ht, hstop.1, hstop.2]
  exact ⟨List.append_nil t, rfl⟩

/-- The value is read from its text, and the rest is left. -/
def ReadsBack (v : Json) : Prop :=
  ∀ fuel rest, (render v).length ≤ fuel → EndsNumber rest →
    readValue fuel (render v ++ rest) = some (v, rest)

theorem readsBack_number {t : List UInt8} (h : IsNumber t) : ReadsBack (.number t) := by
  obtain ⟨hne, hbytes⟩ := h.bytes
  intro fuel rest hfuel hrest
  rw [render] at *
  cases t with
  | nil => exact absurd rfl hne
  | cons b t =>
    obtain ⟨hb, ht⟩ := List.forall_mem_cons.mp hbytes
    have hspecial : b ≠ quote ∧ b ≠ beginArray ∧ b ≠ beginObject := by
      refine ⟨?_, ?_, ?_⟩ <;> rintro rfl <;> exact absurd hb (by decide)
    obtain ⟨htake, hdrop⟩ := takeWhile_number ht hrest
    cases fuel with
    | zero => simp at hfuel
    | succ fuel =>
      simp only [List.cons_append, readValue, if_neg hspecial.1, if_neg hspecial.2.1,
        if_neg hspecial.2.2, hb, if_true, htake, hdrop]

theorem readsBack_string (s : List UInt8) : ReadsBack (.string s) := by
  intro fuel rest hfuel _
  cases fuel with
  | zero => simp [render, renderString] at hfuel
  | succ fuel =>
    simp only [render, renderString, List.cons_append, List.append_assoc, List.nil_append,
      readValue, if_true, readString_render, Option.map_some]

theorem readsBack_literal {v : Json} (hv : v = .null ∨ ∃ value, v = .boolean value) :
    ReadsBack v := by
  intro fuel rest hfuel _
  obtain rfl | ⟨value, rfl⟩ := hv
  · cases fuel with
    | zero => simp [render, ascii] at hfuel
    | succ fuel => rfl
  · cases value <;> cases fuel with
    | zero => simp [render, ascii] at hfuel
    | succ fuel => rfl

/-- No value starts like the end of an array. -/
theorem head_render {v : Json} (h : v.WellFormed) :
    ∃ b t, render v = b :: t ∧ b ≠ endArray := by
  cases h with
  | null => exact ⟨_, _, rfl, by decide⟩
  | @boolean value => cases value <;> exact ⟨_, _, rfl, by decide⟩
  | @number t ht =>
    obtain ⟨hne, hbytes⟩ := ht.bytes
    cases t with
    | nil => exact absurd rfl hne
    | cons b t =>
      refine ⟨b, t, rfl, ?_⟩
      rintro rfl
      exact absurd (hbytes endArray List.mem_cons_self) (by decide)
  | string _ => exact ⟨_, _, rfl, by decide⟩
  | array _ => exact ⟨_, _, by rw [render], by decide⟩
  | object _ _ => exact ⟨_, _, by rw [render], by decide⟩

theorem readItems_render {v : Json} {vs : List Json} (h : ∀ item ∈ v :: vs, ReadsBack item)
    {fuel : Nat} {rest : List UInt8} (hfuel : (renderItems (v :: vs)).length < fuel) :
    readItems fuel (renderItems (v :: vs) ++ endArray :: rest) = some (v :: vs, rest) := by
  induction vs generalizing v fuel with
  | nil =>
    have hv := (List.forall_mem_cons.mp h).1
    cases fuel with
    | zero => cases hfuel
    | succ fuel =>
      simp only [renderItems, renderMoreItems, List.append_nil] at *
      have hread := hv fuel (endArray :: rest) (by omega) (endsNumber_cons (by decide) _)
      simp [readItems, hread]
  | cons v' vs ih =>
    obtain ⟨hv, hvs⟩ := List.forall_mem_cons.mp h
    cases fuel with
    | zero => cases hfuel
    | succ fuel =>
      have htext : renderItems (v :: v' :: vs) = render v ++ comma :: renderItems (v' :: vs) := by
        simp only [renderItems, renderMoreItems]
      rw [htext, List.length_append, List.length_cons] at hfuel
      have hread := hv fuel (comma :: (renderItems (v' :: vs) ++ endArray :: rest)) (by omega)
        (endsNumber_cons (by decide) _)
      have hmore : readItems fuel (renderItems (v' :: vs) ++ endArray :: rest) =
          some (v' :: vs, rest) := ih hvs (by omega)
      rw [htext, List.append_assoc, List.cons_append, readItems, hread]
      simp [hmore, show comma ≠ endArray by decide]

theorem readMembers_render {name : List UInt8} {v : Json} {vs : List (List UInt8 × Json)}
    (h : ∀ m ∈ (name, v) :: vs, ReadsBack m.2) {fuel : Nat} {rest : List UInt8}
    (hfuel : (renderMembers ((name, v) :: vs)).length < fuel) :
    readMembers fuel (renderMembers ((name, v) :: vs) ++ endObject :: rest) =
      some ((name, v) :: vs, rest) := by
  induction vs generalizing name v fuel with
  | nil =>
    have hv : ReadsBack v := (List.forall_mem_cons.mp h).1
    cases fuel with
    | zero => cases hfuel
    | succ fuel =>
      simp only [renderMembers, renderMoreMembers, List.append_nil, List.length_append,
        List.length_cons] at hfuel
      have hread := hv fuel (endObject :: rest) (by omega) (endsNumber_cons (by decide) _)
      simp [renderMembers, renderMoreMembers, renderString, readMembers, readString_render, hread]
  | cons m vs ih =>
    obtain ⟨hfirst, hvs⟩ := List.forall_mem_cons.mp h
    have hv : ReadsBack v := hfirst
    obtain ⟨name', v'⟩ := m
    cases fuel with
    | zero => cases hfuel
    | succ fuel =>
      have htext : renderMembers ((name, v) :: (name', v') :: vs) =
          renderString name ++
            colon :: (render v ++ comma :: renderMembers ((name', v') :: vs)) := by
        simp only [renderMembers, renderMoreMembers]
      rw [htext] at hfuel
      simp only [List.length_append, List.length_cons] at hfuel
      have hread := hv fuel (comma :: (renderMembers ((name', v') :: vs) ++ endObject :: rest))
        (by omega) (endsNumber_cons (by decide) _)
      have hmore : readMembers fuel (renderMembers ((name', v') :: vs) ++ endObject :: rest) =
          some ((name', v') :: vs, rest) := ih hvs (by omega)
      rw [htext]
      simp only [renderString, List.cons_append, List.append_assoc, List.nil_append, readMembers,
        readString_render]
      simp [hread, hmore, show comma ≠ endObject by decide]

theorem WellFormed.readsBack {v : Json} (h : v.WellFormed) : ReadsBack v := by
  induction h with
  | null => exact readsBack_literal (.inl rfl)
  | @boolean value => exact readsBack_literal (.inr ⟨value, rfl⟩)
  | number ht => exact readsBack_number ht
  | string _ => exact readsBack_string _
  | @array items hitems ih =>
    intro fuel rest hfuel _
    cases fuel with
    | zero => simp [render] at hfuel
    | succ fuel =>
      cases items with
      | nil => rfl
      | cons v vs =>
        obtain ⟨b, t, hhead, hb⟩ := head_render (hitems v List.mem_cons_self)
        have hstart : (renderItems (v :: vs) ++ endArray :: rest).head? = some b := by
          rw [renderItems, hhead]
          rfl
        simp only [render, List.length_cons, List.length_append, List.length_nil] at hfuel
        have hread : readItems fuel (renderItems (v :: vs) ++ endArray :: rest) =
            some (v :: vs, rest) := readItems_render ih (by omega)
        simp only [render, List.cons_append, List.append_assoc, List.nil_append, readValue, hstart]
        simp [hb, hread, show beginArray ≠ quote by decide]
  | @object members _ _ ih =>
    intro fuel rest hfuel _
    cases fuel with
    | zero => simp [render] at hfuel
    | succ fuel =>
      cases members with
      | nil => rfl
      | cons m vs =>
        obtain ⟨name, v⟩ := m
        have hstart : (renderMembers ((name, v) :: vs) ++ endObject :: rest).head? =
            some quote := by
          rw [renderMembers, renderString]
          rfl
        simp only [render, List.length_cons, List.length_append, List.length_nil] at hfuel
        have hread : readMembers fuel (renderMembers ((name, v) :: vs) ++ endObject :: rest) =
            some ((name, v) :: vs, rest) := readMembers_render ih (by omega)
        simp only [render, List.cons_append, List.append_assoc, List.nil_append, readValue, hstart]
        simp [hread, show beginObject ≠ quote by decide, show beginObject ≠ beginArray by decide,
          show quote ≠ endObject by decide]

/-- Nothing is lost in writing. -/
theorem read_render {v : Json} (h : v.WellFormed) : read (render v) = some v := by
  have hread := h.readsBack ((render v).length + 1) [] (by omega) fun _ hb => by cases hb
  rw [List.append_nil] at hread
  rw [read, hread]

/-! ## How texts go on -/

def IsWs (b : UInt8) : Prop := b = 0x20 ∨ b = 0x09 ∨ b = 0x0A ∨ b = 0x0D

instance (b : UInt8) : Decidable (IsWs b) := inferInstanceAs (Decidable (_ ∨ _))

/-- No white space in front of other characters. -/
theorem Ws.eq_nil_of_append {w x y : List UInt8} {b : UInt8} (h : Ws w) (hb : ¬ IsWs b)
    (heq : w ++ x = b :: y) : w = [] ∧ x = b :: y := by
  cases w with
  | nil => exact ⟨rfl, heq⟩
  | cons b' w =>
    obtain ⟨rfl, -⟩ := List.cons.inj heq
    exact absurd (h b' List.mem_cons_self) hb

/-- A text that stands in a string as it is. -/
def Unquoted (p : List UInt8) : Prop := ∀ b ∈ p, b < 0x80 ∧ b ≠ quote ∧ b ≠ backslash

/-- A string ends at its first quote, if nothing is escaped before. -/
theorem Chars.eq_of_append {k s p x y : List UInt8} (h : Chars k s) (hp : Unquoted p)
    (heq : k ++ quote :: x = p ++ quote :: y) : k = p ∧ x = y := by
  have hescape : ∀ {p t : List UInt8}, Unquoted p → backslash :: t ≠ p ++ quote :: y := by
    intro p t hp heq
    cases p with
    | nil => exact absurd (List.cons.inj heq).1 (by decide)
    | cons b p => exact (hp b List.mem_cons_self).2.2 (List.cons.inj heq).1.symm
  induction h generalizing p with
  | nil =>
    cases p with
    | nil => exact ⟨rfl, (List.cons.inj heq).2⟩
    | cons b p => exact absurd (List.cons.inj heq).1.symm (hp b List.mem_cons_self).2.1
  | @unescaped c t s hc hplain _ ih =>
    obtain ⟨b, c, rfl⟩ : ∃ b c', c = b :: c' := by
      cases hc <;> exact ⟨_, _, rfl⟩
    cases p with
    | nil => exact absurd (List.cons.inj heq).1 (hplain b List.mem_cons_self).2.1
    | cons b' p =>
      obtain ⟨rfl, htail⟩ := List.cons.inj heq
      obtain ⟨hb, hp⟩ := List.forall_mem_cons.mp hp
      -- An ASCII character is one byte.
      obtain ⟨b', hsingle, -⟩ | hge := hc.ascii_or_ge
      · obtain ⟨rfl, rfl⟩ := List.cons.inj hsingle
        obtain ⟨rfl, rfl⟩ := ih hp htail
        exact ⟨rfl, rfl⟩
      · exact absurd hb.1 (UInt8.not_lt.mpr (hge b List.mem_cons_self))
  | escaped _ _ _ => exact absurd heq (hescape hp)
  | hex _ _ _ _ => exact absurd heq (hescape hp)
  | surrogates _ _ _ _ _ _ => exact absurd heq (hescape hp)

/-- Only strings start with a quote. -/
theorem Denotes.string_of_append {t x y : List UInt8} {v : Json} (h : Denotes t v)
    (heq : t ++ x = quote :: y) :
    ∃ k s, Chars k s ∧ t = quote :: (k ++ [quote]) := by
  cases h with
  | string hchars => exact ⟨_, _, hchars, rfl⟩
  | number hnumber =>
    obtain ⟨hne, hbytes⟩ := hnumber.bytes
    cases t with
    | nil => exact absurd rfl hne
    | cons b t =>
      obtain ⟨rfl, -⟩ := List.cons.inj heq
      exact absurd (hbytes quote List.mem_cons_self) (by decide)
  | null => exact absurd (List.cons.inj heq).1 (by decide)
  | true => exact absurd (List.cons.inj heq).1 (by decide)
  | false => exact absurd (List.cons.inj heq).1 (by decide)
  | emptyArray _ => exact absurd (List.cons.inj heq).1 (by decide)
  | array _ => exact absurd (List.cons.inj heq).1 (by decide)
  | emptyObject _ => exact absurd (List.cons.inj heq).1 (by decide)
  | object _ => exact absurd (List.cons.inj heq).1 (by decide)

/-- The first of the members, when its value is a string. -/
theorem first_member {l k name m m' t x p q z : List UInt8} {v : Json} (hl : Ws l)
    (hk : Chars k name) (hm : Ws m) (hm' : Ws m') (ht : Denotes t v) (hp : Unquoted p)
    (hq : Unquoted q)
    (heq : l ++ quote :: (k ++ quote :: (m ++ colon :: (m' ++ (t ++ x)))) =
      quote :: (p ++ quote :: colon :: quote :: (q ++ quote :: z))) : x = z := by
  obtain ⟨rfl, heq⟩ := hl.eq_nil_of_append (by decide) heq
  obtain ⟨-, hvalue⟩ := hk.eq_of_append hp (List.cons.inj heq).2
  obtain ⟨rfl, hcolon⟩ := hm.eq_nil_of_append (by decide) hvalue
  obtain ⟨rfl, hstring⟩ := hm'.eq_nil_of_append (by decide) (List.cons.inj hcolon).2
  obtain ⟨k', s, hchars, rfl⟩ := ht.string_of_append hstring
  have hchars' : k' ++ quote :: x = q ++ quote :: z := by
    simpa using hstring
  exact (hchars.eq_of_append hq hchars').2

/-- After a member whose value is a string, the members end or there is a comma. -/
theorem Members.next {ts w p q z : List UInt8} {vs : List (List UInt8 × Json)} {b : UInt8}
    (h : Members ts vs) (hp : Unquoted p) (hq : Unquoted q) (hb : ¬ IsWs b)
    (heq : ts ++ w = quote :: (p ++ quote :: colon :: quote :: (q ++ quote :: b :: z))) :
    w = b :: z ∨ (b = comma ∧ ∃ ts' vs', Members ts' vs' ∧ z = ts' ++ w) := by
  cases h with
  | @one l k m m' t r name v hl hk hm hm' ht hr =>
    have hend : r ++ w = b :: z :=
      first_member hl hk hm hm' ht hp hq (by simpa using heq)
    exact .inl (hr.eq_nil_of_append hb hend).2
  | @more l k m m' t r ts name v vs hl hk hm hm' ht hr hmore =>
    have hend : r ++ comma :: (ts ++ w) = b :: z :=
      first_member hl hk hm hm' ht hp hq (by simpa using heq)
    obtain ⟨rfl, hcomma⟩ := List.cons.inj (hr.eq_nil_of_append hb hend).2
    exact .inr ⟨rfl, ts, vs, hmore, hcomma.symm⟩

/-- A text that starts like an object with members has members. -/
theorem IsText.members {t : List UInt8} {vs : List (List UInt8 × Json)}
    (h : IsText (beginObject :: quote :: t) (.object vs)) :
    ∃ ts r, Members ts vs ∧ ts ++ endObject :: r = quote :: t := by
  obtain ⟨l, t', r, heq, hl, ht, -⟩ := h
  obtain ⟨-, heq⟩ := hl.eq_nil_of_append (by decide) heq.symm
  cases ht with
  | @emptyObject w hw =>
    have hend : w ++ endObject :: r = quote :: t := by
      simpa using heq
    exact absurd (List.cons.inj (hw.eq_nil_of_append (by decide) hend).2).1 (by decide)
  | @object ts _ hmembers => exact ⟨ts, r, hmembers, by simpa using heq⟩

end Json
