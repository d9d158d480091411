import Mathlib.Data.List.Forall2
import ServicePlatform.Text.Fields
import ServicePlatform.Text.Hex

/-! A reader of JSON texts, as an encoder writes them: one blank after each comma
and colon, and lower-case escapes. Numbers are kept as they are written. -/
namespace Text

inductive Json where
  | null
  | bool (b : Bool)
  | number (text : List Char)
  | str (text : String)
  | arr (items : List Json)
  | obj (members : List (String × Json))

/-- What a single letter stands for after a backslash. -/
def unescape (c : Char) : Option Char :=
  [('"', '"'), ('\\', '\\'), ('/', '/'), ('n', '\n'), ('r', '\r'), ('t', '\t'), ('b', '\x08'), ('f', '\x0c')].lookup c

/-- A string from after its opening quote, and what follows it. -/
def readString : List Char → Option (List Char × List Char)
  | [] => none
  | c :: rest =>
      if c = '"' then some ([], rest)
      else if c = '\\' then match rest with
        | 'u' :: d₁ :: d₂ :: d₃ :: d₄ :: rest =>
            if ∀ d ∈ [d₁, d₂, d₃, d₄], IsHexDigit d then
              (readString rest).map fun read => (Char.ofNat (hexValue [d₁, d₂, d₃, d₄]) :: read.1, read.2)
            else none
        | letter :: rest => (unescape letter).bind fun c => (readString rest).map fun read => (c :: read.1, read.2)
        | [] => none
      else if c.toNat < 32 then none
      else (readString rest).map fun read => (c :: read.1, read.2)

/-- What follows a token. -/
def after (token text : List Char) : Option (List Char) :=
  if token.isPrefixOf text then some (text.drop token.length) else none

/-- A character of a number, or of a name such as `null`. -/
def isWordChar (c : Char) : Bool := c.isAlphanum || c = '+' || c = '-' || c = '.'

def readWord (word : List Char) : Json :=
  if word = "null".toList then .null
  else if word = "true".toList then .bool true
  else if word = "false".toList then .bool false
  else .number word

mutual

/-- A value at the beginning of a text, and what follows it. -/
def readValue : Nat → List Char → Option (Json × List Char)
  | 0, _ => none
  | _ + 1, [] => none
  | fuel + 1, c :: rest =>
      if c = '"' then (readString rest).map fun read => (.str (String.ofList read.1), read.2)
      else if c = '[' then match after "]".toList rest with
        | some rest => some (.arr [], rest)
        | none => (readItems fuel rest).map fun read => (.arr read.1, read.2)
      else if c = '\x7b' then match after "\x7d".toList rest with
        | some rest => some (.obj [], rest)
        | none => (readMembers fuel rest).map fun read => (.obj read.1, read.2)
      else if isWordChar c then
        some (readWord ((c :: rest).takeWhile isWordChar), (c :: rest).dropWhile isWordChar)
      else none

def readItems : Nat → List Char → Option (List Json × List Char)
  | 0, _ => none
  | fuel + 1, text => (readValue fuel text).bind fun value => match after ", ".toList value.2 with
    | some rest => (readItems fuel rest).map fun read => (value.1 :: read.1, read.2)
    | none => (after "]".toList value.2).map fun rest => ([value.1], rest)

def readMembers : Nat → List Char → Option (List (String × Json) × List Char)
  | 0, _ => none
  | fuel + 1, text =>
      ((after "\"".toList text).bind readString).bind fun name =>
        ((after ": ".toList name.2).bind (readValue fuel)).bind fun value => match after ", ".toList value.2 with
          | some rest =>
              (readMembers fuel rest).map fun read => ((String.ofList name.1, value.1) :: read.1, read.2)
          | none => (after "\x7d".toList value.2).map fun rest => ([(String.ofList name.1, value.1)], rest)

end

/-- The value of a text that holds nothing else. A value is never deeper than its
text is long. -/
def readJson (text : List Char) : Option Json :=
  match readValue (text.length + 1) text with
  | some (value, []) => some value
  | _ => none

/-- What the member of a name is in an object. -/
def Json.member (name : String) : Json → Option Json
  | .obj members => (members.find? fun member => member.1 = name).map Prod.snd
  | _ => none

section Reading

variable {text rest : List Char}

theorem after_append (token : List Char) : after token (token ++ rest) = some rest := by
  rw [after, if_pos (List.isPrefixOf_iff_prefix.mpr (List.prefix_append token rest)), List.drop_left]

/-- Another character stands where a token would begin. -/
theorem after_cons_of_ne {t c : Char} {token : List Char} (h : t ≠ c) : after (t :: token) (c :: rest) = none := by
  simp [after, h]

/-- The text goes on with no further character of a word. -/
def EndsWord (rest : List Char) : Prop := ∀ c ∈ rest.head?, isWordChar c = false

theorem endsWord_cons {c : Char} (h : isWordChar c = false) : EndsWord (c :: rest) := by
  intro other hOther
  cases hOther
  exact h

theorem span_word (hText : ∀ c ∈ text, isWordChar c = true) (hRest : EndsWord rest) :
    (text ++ rest).takeWhile isWordChar = text ∧ (text ++ rest).dropWhile isWordChar = rest := by
  rw [List.takeWhile_append_of_pos hText, List.dropWhile_append_of_pos hText]
  cases rest with
  | nil => exact ⟨List.append_nil text, rfl⟩
  | cons c rest =>
      have hEnd := hRest c rfl
      rw [List.takeWhile_cons_of_neg (by simp [hEnd]), List.dropWhile_cons_of_neg (by simp [hEnd])]
      exact ⟨List.append_nil text, rfl⟩

theorem readString_quote : readString ('"' :: rest) = some ([], rest) := by
  rw [readString.eq_def]
  simp only [if_pos]

theorem readString_plain {c : Char} (hQuote : c ≠ '"') (hSlash : c ≠ '\\') (hPrinted : ¬ c.toNat < 32) :
    readString (c :: rest) = (readString rest).map fun read => (c :: read.1, read.2) := by
  rw [readString.eq_def]
  simp only [if_neg hQuote, if_neg hSlash, if_neg hPrinted]

theorem readString_letter {letter c : Char} (hLetter : letter ≠ 'u') (hStands : unescape letter = some c) :
    readString ('\\' :: letter :: rest) = (readString rest).map fun read => (c :: read.1, read.2) := by
  rw [readString, if_neg (by decide), if_pos rfl, hStands, Option.bind_some]
  intro d₁ d₂ d₃ d₄ more hSame
  cases hSame
  exact absurd rfl hLetter

theorem readString_code {n : Nat} (hn : n < 16 ^ 4) :
    readString ('\\' :: 'u' :: (hexDigits 4 n ++ rest)) =
      (readString rest).map fun read => (Char.ofNat n :: read.1, read.2) := by
  have hDigits : ∃ d₁ d₂ d₃ d₄, hexDigits 4 n = [d₁, d₂, d₃, d₄] := ⟨_, _, _, _, rfl⟩
  obtain ⟨d₁, d₂, d₃, d₄, hDigits⟩ := hDigits
  have hHex : ∀ d ∈ [d₁, d₂, d₃, d₄], IsHexDigit d := hDigits ▸ fun d hd => isHexDigit_of_mem hd
  have hValue : hexValue [d₁, d₂, d₃, d₄] = n := hDigits ▸ hexValue_hexDigits hn
  rw [hDigits, List.cons_append, List.cons_append, List.cons_append, List.singleton_append, readString,
    if_neg (by decide), if_pos rfl, if_pos hHex, hValue]

/-- A text is read as a value, wherever it ends a word. -/
def Reads (text : List Char) (value : Json) : Prop :=
  ∀ fuel rest, text.length < fuel → EndsWord rest → readValue fuel (text ++ rest) = some (value, rest)

/-- A word is read up to its end. -/
theorem reads_word (hSome : text ≠ []) (hText : ∀ c ∈ text, isWordChar c = true) : Reads text (readWord text) := by
  intro fuel rest hFuel hRest
  obtain ⟨hTake, hDrop⟩ := span_word hText hRest
  obtain ⟨c, more, rfl⟩ := List.exists_cons_of_ne_nil hSome
  obtain ⟨fuel, rfl⟩ := Nat.exists_eq_add_one.mpr (Nat.zero_lt_of_lt hFuel)
  have hWord := hText c List.mem_cons_self
  have hOther : ∀ other, isWordChar other = false → c ≠ other := by
    rintro other hOther rfl
    cases hWord.symm.trans hOther
  rw [List.cons_append] at hTake hDrop ⊢
  rw [readValue, if_neg (hOther '"' rfl), if_neg (hOther '[' rfl), if_neg (hOther '\x7b' rfl), if_pos hWord,
    hTake, hDrop]

/-- The characters between two quotes are read as a string. -/
def ReadsString (chars text : List Char) : Prop := ∀ rest, readString (chars ++ '"' :: rest) = some (text, rest)

theorem reads_string {chars : List Char} (h : ReadsString chars text) :
    Reads ('"' :: chars ++ ['"']) (.str (String.ofList text)) := by
  intro fuel rest hFuel hRest
  obtain ⟨fuel, rfl⟩ := Nat.exists_eq_add_one.mpr (Nat.zero_lt_of_lt hFuel)
  rw [List.cons_append, List.cons_append, List.append_assoc, List.singleton_append, readValue, if_pos rfl, h,
    Option.map_some]

/-- No value begins with a closing bracket. -/
theorem Reads.exists_cons {value : Json} (h : Reads text value) : ∃ c more, text = c :: more ∧ ']' ≠ c := by
  have hRead := h (text.length + 1) [] (Nat.lt_succ_self _) (fun c hc => by cases hc)
  cases text with
  | nil => cases hRead
  | cons c more =>
      refine ⟨c, more, rfl, ?_⟩
      rintro rfl
      rw [List.cons_append, readValue, if_neg (by decide), if_neg (by decide), if_neg (by decide),
        if_neg (by decide)] at hRead
      cases hRead

section Steps

variable {fuel : Nat} {value : Json} {more : List Char}

theorem readItems_last (h : readValue fuel text = some (value, ']' :: rest)) :
    readItems (fuel + 1) text = some ([value], rest) := by
  have hNone : after ", ".toList (']' :: rest) = none := after_cons_of_ne (by decide)
  have hClose : after "]".toList (']' :: rest) = some rest := after_append _
  simp only [readItems, h, Option.bind_some, hNone, hClose, Option.map_some]

theorem readItems_next (h : readValue fuel text = some (value, ", ".toList ++ more)) :
    readItems (fuel + 1) text = (readItems fuel more).map fun read => (value :: read.1, read.2) := by
  simp only [readItems, h, Option.bind_some, after_append]

variable {chars name : List Char}

theorem readMembers_last (hName : ReadsString chars name) (h : readValue fuel text = some (value, '\x7d' :: rest)) :
    readMembers (fuel + 1) ('"' :: (chars ++ '"' :: (": ".toList ++ text))) =
      some ([(String.ofList name, value)], rest) := by
  have hOpen (text : List Char) : after "\"".toList ('"' :: text) = some text := after_append _
  have hNone : after ", ".toList ('\x7d' :: rest) = none := after_cons_of_ne (by decide)
  have hClose : after "\x7d".toList ('\x7d' :: rest) = some rest := after_append _
  simp only [readMembers, hOpen, hName _, after_append, h, Option.bind_some, hNone, hClose, Option.map_some]

theorem readMembers_next (hName : ReadsString chars name)
    (h : readValue fuel text = some (value, ", ".toList ++ more)) :
    readMembers (fuel + 1) ('"' :: (chars ++ '"' :: (": ".toList ++ text))) =
      (readMembers fuel more).map fun read => ((String.ofList name, value) :: read.1, read.2) := by
  have hOpen (text : List Char) : after "\"".toList ('"' :: text) = some text := after_append _
  simp only [readMembers, hOpen, hName _, after_append, h, Option.bind_some]

end Steps

theorem endsWord_comma : EndsWord (", ".toList ++ rest) := endsWord_cons rfl

theorem readItems_intercalate {value : Json} {texts : List (List Char)} {values : List Json} (hHead : Reads text value)
    (hTail : List.Forall₂ Reads texts values) {fuel : Nat}
    (hFuel : (List.intercalate ", ".toList (text :: texts)).length + 1 < fuel) :
    readItems fuel (List.intercalate ", ".toList (text :: texts) ++ ']' :: rest) = some (value :: values, rest) := by
  induction hTail generalizing text value fuel with
  | nil =>
      obtain ⟨fuel, rfl⟩ := Nat.exists_eq_add_one.mpr (Nat.zero_lt_of_lt hFuel)
      rw [List.intercalate_singleton] at hFuel ⊢
      exact readItems_last (hHead fuel _ (by omega) (endsWord_cons rfl))
  | cons hNext hTail ih =>
      obtain ⟨fuel, rfl⟩ := Nat.exists_eq_add_one.mpr (Nat.zero_lt_of_lt hFuel)
      rw [List.intercalate_cons_cons, List.append_assoc] at hFuel ⊢
      simp only [List.length_append, show (", ".toList).length = 2 from rfl] at hFuel
      rw [List.append_assoc, readItems_next (hHead fuel _ (by omega) endsWord_comma),
        ih hNext (by omega), Option.map_some]

theorem reads_arr {texts : List (List Char)} {values : List Json} (h : List.Forall₂ Reads texts values) :
    Reads ('[' :: List.intercalate ", ".toList texts ++ [']']) (.arr values) := by
  intro fuel rest hFuel hRest
  obtain ⟨fuel, rfl⟩ := Nat.exists_eq_add_one.mpr (Nat.zero_lt_of_lt hFuel)
  simp only [List.cons_append, List.append_assoc, List.length_cons, List.length_append, List.nil_append,
    List.length_nil] at hFuel ⊢
  rw [readValue, if_neg (by decide), if_pos rfl]
  cases h with
  | nil => rfl
  | @cons text value texts values hHead hTail =>
      obtain ⟨c, more, hText, hOther⟩ := hHead.exists_cons
      have hOpen : after "]".toList (List.intercalate ", ".toList (text :: texts) ++ ']' :: rest) = none := by
        rw [hText, List.intercalate_cons_cons_left]
        exact after_cons_of_ne hOther
      rw [hOpen]
      simp only []
      rw [readItems_intercalate hHead hTail (by omega), Option.map_some]

/-- The text of a member: its quoted name and its value. -/
def ReadsMember (text : List Char) (member : String × Json) : Prop :=
  ∃ chars valueText, text = '"' :: (chars ++ '"' :: (": ".toList ++ valueText)) ∧
    ReadsString chars member.1.toList ∧ Reads valueText member.2

theorem readMembers_intercalate {member : String × Json} {texts : List (List Char)} {members : List (String × Json)}
    (hHead : ReadsMember text member) (hTail : List.Forall₂ ReadsMember texts members) {fuel : Nat}
    (hFuel : (List.intercalate ", ".toList (text :: texts)).length + 1 < fuel) :
    readMembers fuel (List.intercalate ", ".toList (text :: texts) ++ '\x7d' :: rest) =
      some (member :: members, rest) := by
  induction hTail generalizing text member fuel with
  | nil =>
      obtain ⟨fuel, rfl⟩ := Nat.exists_eq_add_one.mpr (Nat.zero_lt_of_lt hFuel)
      obtain ⟨chars, valueText, rfl, hName, hValue⟩ := hHead
      rw [List.intercalate_singleton] at hFuel ⊢
      simp only [List.cons_append, List.append_assoc, List.length_cons, List.length_append] at hFuel ⊢
      rw [readMembers_last hName (hValue fuel _ (by omega) (endsWord_cons rfl)), String.ofList_toList]
  | cons hNext hTail ih =>
      obtain ⟨fuel, rfl⟩ := Nat.exists_eq_add_one.mpr (Nat.zero_lt_of_lt hFuel)
      obtain ⟨chars, valueText, rfl, hName, hValue⟩ := hHead
      rw [List.intercalate_cons_cons, List.append_assoc] at hFuel ⊢
      simp only [List.cons_append, List.append_assoc, List.length_cons, List.length_append] at hFuel ⊢
      rw [readMembers_next hName (hValue fuel _ (by omega) endsWord_comma), ih hNext (by omega), Option.map_some,
        String.ofList_toList]

theorem reads_obj {texts : List (List Char)} {members : List (String × Json)}
    (h : List.Forall₂ ReadsMember texts members) :
    Reads ('\x7b' :: List.intercalate ", ".toList texts ++ ['\x7d']) (.obj members) := by
  intro fuel rest hFuel hRest
  obtain ⟨fuel, rfl⟩ := Nat.exists_eq_add_one.mpr (Nat.zero_lt_of_lt hFuel)
  simp only [List.cons_append, List.append_assoc, List.length_cons, List.length_append, List.nil_append,
    List.length_nil] at hFuel ⊢
  rw [readValue, if_neg (by decide), if_neg (by decide), if_pos rfl]
  cases h with
  | nil => rfl
  | @cons text member texts members hHead hTail =>
      have ⟨chars, valueText, hText, _⟩ := hHead
      have hOpen : after "\x7d".toList (List.intercalate ", ".toList (text :: texts) ++ '\x7d' :: rest) = none := by
        rw [hText, List.intercalate_cons_cons_left]
        exact after_cons_of_ne (by decide)
      rw [hOpen]
      simp only []
      rw [readMembers_intercalate hHead hTail (by omega), Option.map_some]

theorem readJson_of_reads {value : Json} (h : Reads text value) : readJson text = some value := by
  have hRead := h (text.length + 1) [] (Nat.lt_succ_self _) (fun c hc => by cases hc)
  rw [List.append_nil] at hRead
  rw [readJson, hRead]

end Reading

end Text
