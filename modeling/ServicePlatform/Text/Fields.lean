import Mathlib.Algebra.BigOperators.Group.List.Basic
import Mathlib.Algebra.GroupWithZero.Nat
import Mathlib.Data.List.DropRight
import Mathlib.Data.List.Forall2
import Mathlib.Data.List.Induction
import Mathlib.Data.List.Infix

/-! Lines and fields of a text, cut as Python's string methods cut them. -/
namespace Text

/-- The characters at which `str.splitlines` ends a line. -/
def lineBreaks : List Char :=
  ['\n', '\r', '\x0b', '\x0c', '\x1c', '\x1d', '\x1e', '\u0085', '\u2028', '\u2029']

/-- The characters that `str.strip` takes off. -/
def spaces : List Char :=
  ['\t', '\n', '\x0b', '\x0c', '\r', '\x1c', '\x1d', '\x1e', '\x1f', ' ', '\u0085', '\u00a0', '\u1680',
    '\u2000', '\u2001', '\u2002', '\u2003', '\u2004', '\u2005', '\u2006', '\u2007', '\u2008', '\u2009',
    '\u200a', '\u2028', '\u2029', '\u202f', '\u205f', '\u3000']

/-- What holds of all characters of a text is decided along the text. -/
instance (priority := high) decidableForallMem (p : Char → Prop) [DecidablePred p] (text : List Char) :
    Decidable (∀ c ∈ text, p c) := List.decidableBAll p text

/-- The text has no line break. -/
def OneLine (text : List Char) : Prop := ∀ c ∈ text, c ∉ lineBreaks

instance (text : List Char) : Decidable (OneLine text) := inferInstanceAs (Decidable (∀ c ∈ text, _))

/-- The lines from here on, with the part of the first that was read. A line
feed right after a carriage return belongs to the same break. -/
def splitlinesFrom : Bool → List Char → List Char → List (List Char)
  | _, line, [] => if line = [] then [] else [line]
  | returned, line, c :: rest =>
      if returned ∧ c = '\n' then splitlinesFrom false [] rest
      else if c ∈ lineBreaks then line :: splitlinesFrom (c = '\r') [] rest
      else splitlinesFrom false (line ++ [c]) rest

/-- `str.splitlines`. -/
def splitlines (text : List Char) : List (List Char) := splitlinesFrom false [] text

/-- `str.strip`. -/
def strip (text : List Char) : List Char := (text.dropWhile (· ∈ spaces)).rdropWhile (· ∈ spaces)

/-- `str.split(c, 1)`, when the character occurs. -/
def splitOnce (c : Char) : List Char → Option (List Char × List Char)
  | [] => none
  | d :: rest =>
      if d = c then some ([], rest) else (splitOnce c rest).map fun parts => (d :: parts.1, parts.2)

/-- `str.rsplit(c, 1)`, when the character occurs. -/
def rsplitOnce (c : Char) : List Char → Option (List Char × List Char)
  | [] => none
  | d :: rest =>
      match rsplitOnce c rest with
      | some (front, back) => some (d :: front, back)
      | none => if d = c then some ([], rest) else none

theorem oneLine_append {front back : List Char} : OneLine (front ++ back) ↔ OneLine front ∧ OneLine back :=
  List.forall_mem_append

theorem oneLine_cons {c : Char} {text : List Char} : OneLine (c :: text) ↔ c ∉ lineBreaks ∧ OneLine text :=
  List.forall_mem_cons

theorem forall_mem_intercalate {α : Type*} {p : α → Prop} {separator : List α} (hSeparator : ∀ a ∈ separator, p a)
    {pieces : List (List α)} :
    (∀ a ∈ separator.intercalate pieces, p a) ↔ ∀ piece ∈ pieces, ∀ a ∈ piece, p a := by
  induction pieces with
  | nil => exact iff_of_true (List.forall_mem_nil p) (List.forall_mem_nil _)
  | cons piece pieces ih =>
      cases pieces with
      | nil => rw [List.intercalate_singleton, List.forall_mem_singleton]
      | cons next pieces =>
          rw [List.intercalate_cons_cons, List.forall_mem_append, List.forall_mem_append, ih,
            and_iff_left hSeparator]
          simp only [List.mem_cons, forall_eq_or_imp]

theorem oneLine_intercalate {sep : List Char} {parts : List (List Char)} (hSep : OneLine sep)
    (h : ∀ part ∈ parts, OneLine part) : OneLine (sep.intercalate parts) :=
  (forall_mem_intercalate hSep).mpr h

theorem splitlinesFrom_oneLine {text : List Char} (h : OneLine text) (line rest : List Char) :
    splitlinesFrom false line (text ++ rest) = splitlinesFrom false (line ++ text) rest := by
  induction text generalizing line with
  | nil => rw [List.nil_append, List.append_nil]
  | cons c text ih =>
      obtain ⟨hc, hText⟩ := oneLine_cons.mp h
      rw [List.cons_append, splitlinesFrom, if_neg (by simp), if_neg hc, ih hText, List.append_assoc,
        List.singleton_append]

theorem splitlinesFrom_break {c : Char} (hc : c ∈ lineBreaks) (line rest : List Char) :
    splitlinesFrom false line (c :: rest) = line :: splitlinesFrom (c = '\r') [] rest := by
  rw [splitlinesFrom, if_neg (by simp), if_pos hc]

/-- A line feed ends a line, and what comes after it is cut on its own. -/
theorem splitlinesFrom_lineFeed (returned : Bool) (line text rest : List Char) :
    splitlinesFrom returned line (text ++ '\n' :: rest) =
      splitlinesFrom returned line (text ++ ['\n']) ++ splitlines rest := by
  induction text generalizing returned line with
  | nil =>
      rw [List.nil_append, List.nil_append, splitlinesFrom, splitlinesFrom]
      split
      · rfl
      · rfl
  | cons c text ih =>
      rw [List.cons_append, List.cons_append, splitlinesFrom, splitlinesFrom]
      split
      · exact ih false []
      · split
        · rw [ih (c = '\r') []]
          rfl
        · exact ih false (line ++ [c])

/-- Written lines are cut one by one. -/
theorem splitlines_flatMap (lines : List (List Char)) :
    splitlines (lines.flatMap (· ++ ['\n'])) = lines.flatMap fun line => splitlines (line ++ ['\n']) := by
  induction lines with
  | nil => rfl
  | cons line lines ih =>
      rw [List.flatMap_cons, List.flatMap_cons, List.append_assoc, List.singleton_append, splitlines,
        splitlinesFrom_lineFeed, ih]
      rfl

/-- A written line is cut at its first break. -/
theorem mem_splitlines_of_break {piece : List Char} {c : Char} (hPiece : OneLine piece) (hc : c ∈ lineBreaks)
    (after : List Char) : piece ∈ splitlines (piece ++ c :: after) := by
  rw [splitlines, splitlinesFrom_oneLine hPiece, splitlinesFrom_break hc]
  exact List.mem_cons_self

/-- A written line without a break of its own is read back. -/
theorem splitlines_line {line : List Char} (h : OneLine line) : splitlines (line ++ ['\n']) = [line] := by
  rw [splitlines, splitlinesFrom_oneLine h, splitlinesFrom_break (by decide)]
  rfl

/-- The text behind the last break is a line of its own. -/
theorem splitlinesFrom_last {c : Char} {back : List Char} (hc : c ∈ lineBreaks) (hBack : OneLine back)
    (hNonempty : back ≠ []) (returned : Bool) (line front : List Char) :
    splitlinesFrom returned line (front ++ c :: (back ++ ['\n'])) =
      splitlinesFrom returned line (front ++ [c]) ++ [back] := by
  have hLast : ∀ b, splitlinesFrom b [] (back ++ ['\n']) = [back] := by
    intro b
    obtain ⟨d, back, rfl⟩ := List.exists_cons_of_ne_nil hNonempty
    have hd : d ∉ lineBreaks := (oneLine_cons.mp hBack).1
    have hFeed : d ≠ '\n' := by
      rintro rfl
      exact hd (by decide)
    have hLine := splitlines_line hBack
    rw [splitlines, List.cons_append, splitlinesFrom, if_neg (by simp), if_neg hd] at hLine
    rw [List.cons_append, splitlinesFrom, if_neg (fun h => hFeed h.2), if_neg hd]
    exact hLine
  induction front generalizing returned line with
  | nil =>
      rw [List.nil_append, List.nil_append, splitlinesFrom, splitlinesFrom]
      split
      · rw [hLast]
        rfl
      · rw [hLast]
        rfl
  | cons d front ih =>
      rw [List.cons_append, List.cons_append, splitlinesFrom, splitlinesFrom]
      split
      · exact ih false []
      · split
        · rw [ih]
          rfl
        · exact ih false (line ++ [d])

/-- A text that is not one line has a last break. -/
theorem exists_last_break {text : List Char} (h : ¬ OneLine text) :
    ∃ front c back, text = front ++ c :: back ∧ c ∈ lineBreaks ∧ OneLine back := by
  induction text with
  | nil => exact absurd (List.forall_mem_nil _) h
  | cons c text ih =>
      by_cases hText : OneLine text
      · have hc : c ∈ lineBreaks := by
          by_contra hPlain
          exact h (oneLine_cons.mpr ⟨hPlain, hText⟩)
        exact ⟨[], c, text, rfl, hc, hText⟩
      · obtain ⟨front, d, back, rfl, hd, hBack⟩ := ih hText
        exact ⟨c :: front, d, back, rfl, hd, hBack⟩

theorem oneLine_of_mem {returned : Bool} {line text piece : List Char} (hLine : OneLine line)
    (h : piece ∈ splitlinesFrom returned line text) : OneLine piece := by
  have hNil : OneLine [] := List.forall_mem_nil _
  induction text generalizing returned line with
  | nil =>
      rw [splitlinesFrom] at h
      split at h
      · cases h
      · rw [List.mem_singleton.mp h]
        exact hLine
  | cons c text ih =>
      rw [splitlinesFrom] at h
      split at h
      · exact ih hNil h
      · split at h
        · rcases List.mem_cons.mp h with rfl | hLater
          · exact hLine
          · exact ih hNil hLater
        · next hc => exact ih (oneLine_append.mpr ⟨hLine, oneLine_cons.mpr ⟨hc, hNil⟩⟩) h

/-- A piece is what was read and the beginning of the text, or lies inside the text. -/
theorem piece_of_mem {returned : Bool} {line text piece : List Char}
    (h : piece ∈ splitlinesFrom returned line text) :
    (∃ front, front <+: text ∧ piece = line ++ front) ∨ piece <:+: text := by
  induction text generalizing returned line with
  | nil =>
      rw [splitlinesFrom] at h
      split at h
      · cases h
      · exact Or.inl ⟨[], List.prefix_rfl, by rw [List.mem_singleton.mp h, List.append_nil]⟩
  | cons c text ih =>
      have hInside : ∀ {b : Bool}, piece ∈ splitlinesFrom b [] text → piece <:+: c :: text := by
        intro b hMem
        rcases ih hMem with ⟨front, hFront, rfl⟩ | hInfix
        · exact List.infix_cons hFront.isInfix
        · exact List.infix_cons hInfix
      rw [splitlinesFrom] at h
      split at h
      · exact Or.inr (hInside h)
      · split at h
        · rcases List.mem_cons.mp h with rfl | hLater
          · exact Or.inl ⟨[], List.nil_prefix, (List.append_nil _).symm⟩
          · exact Or.inr (hInside hLater)
        · rcases ih h with ⟨front, hFront, rfl⟩ | hInfix
          · exact Or.inl ⟨c :: front, List.prefix_cons_inj c |>.mpr hFront, by simp⟩
          · exact Or.inr (List.infix_cons hInfix)

theorem prefix_append_cons {word front back : List Char} {c : Char} (hc : c ∉ word)
    (h : word <+: front ++ c :: back) : word <+: front := by
  induction word generalizing front with
  | nil => exact List.nil_prefix
  | cons d word ih =>
      obtain ⟨hNe, hWord⟩ := not_or.mp (fun hMem => hc (List.mem_cons.mpr hMem))
      cases front with
      | nil => exact absurd (List.cons_prefix_cons.mp h).1 (Ne.symm hNe)
      | cons e front =>
          obtain ⟨rfl, hRest⟩ := List.cons_prefix_cons.mp h
          exact List.cons_prefix_cons.mpr ⟨rfl, ih hWord hRest⟩

/-- A text that neither begins nor ends with a space. -/
def Trimmed (text : List Char) : Prop :=
  (∀ c, text.head? = some c → c ∉ spaces) ∧ ∀ c, text.getLast? = some c → c ∉ spaces

theorem strip_trimmed {text : List Char} (h : Trimmed text) : strip text = text := by
  have hFront : text.dropWhile (· ∈ spaces) = text := by
    rw [List.dropWhile_eq_self_iff]
    intro hLength
    have hHead := h.1 _ (List.head?_eq_some_head (List.length_pos_iff.mp hLength))
    simpa [List.head_eq_getElem] using hHead
  unfold strip
  rw [hFront, List.rdropWhile_eq_self_iff]
  intro hNonempty
  simpa using h.2 _ (List.getLast?_eq_some_getLast hNonempty)

theorem splitOnce_append {c : Char} {front : List Char} (h : c ∉ front) (back : List Char) :
    splitOnce c (front ++ c :: back) = some (front, back) := by
  induction front with
  | nil => rw [List.nil_append, splitOnce, if_pos rfl]
  | cons d front ih =>
      obtain ⟨hNe, hFront⟩ := not_or.mp (fun hc => h (List.mem_cons.mpr hc))
      rw [List.cons_append, splitOnce, if_neg (Ne.symm hNe), ih hFront]
      rfl

theorem splitOnce_eq_none {c : Char} {text : List Char} (h : c ∉ text) : splitOnce c text = none := by
  induction text with
  | nil => rfl
  | cons d text ih =>
      obtain ⟨hNe, hText⟩ := not_or.mp (fun hc => h (List.mem_cons.mpr hc))
      rw [splitOnce, if_neg (Ne.symm hNe), ih hText]
      rfl

theorem rsplitOnce_eq_none {c : Char} {text : List Char} (h : c ∉ text) : rsplitOnce c text = none := by
  induction text with
  | nil => rfl
  | cons d text ih =>
      obtain ⟨hNe, hText⟩ := not_or.mp (fun hc => h (List.mem_cons.mpr hc))
      rw [rsplitOnce, ih hText]
      exact if_neg (Ne.symm hNe)

theorem rsplitOnce_append {c : Char} {back : List Char} (h : c ∉ back) (front : List Char) :
    rsplitOnce c (front ++ c :: back) = some (front, back) := by
  induction front with
  | nil =>
      rw [List.nil_append, rsplitOnce, rsplitOnce_eq_none h]
      exact if_pos rfl
  | cons d front ih => rw [List.cons_append, rsplitOnce, ih]

/-- Where the text is cut at the first such character. -/
theorem splitOnce_of_mem {c : Char} {text : List Char} (h : c ∈ text) :
    splitOnce c text = some (text.takeWhile (· ≠ c), (text.dropWhile (· ≠ c)).tail) := by
  induction text with
  | nil => cases h
  | cons d text ih =>
      by_cases hSame : d = c
      · simp [splitOnce, hSame]
      · have hRest : c ∈ text := (List.mem_cons.mp h).resolve_left (Ne.symm hSame)
        rw [splitOnce, if_neg hSame, ih hRest]
        simp [hSame]

theorem rsplitOnce_isSome_iff {c : Char} {text : List Char} : (rsplitOnce c text).isSome = true ↔ c ∈ text := by
  constructor
  · intro hSome
    by_contra hNot
    rw [rsplitOnce_eq_none hNot] at hSome
    cases hSome
  · intro hMem
    induction text with
    | nil => cases hMem
    | cons d text ih =>
        rw [rsplitOnce]
        split
        · rfl
        · next hNone =>
            rcases List.mem_cons.mp hMem with rfl | hRest
            · rw [if_pos rfl]
              rfl
            · rw [hNone] at ih
              cases ih hRest

/-- Only the part behind a character that is no space can be shortened. -/
theorem rdropWhile_append_cons {c : Char} (hc : c ∉ spaces) (front back : List Char) :
    (front ++ c :: back).rdropWhile (· ∈ spaces) = front ++ c :: back.rdropWhile (· ∈ spaces) := by
  induction back using List.reverseRecOn with
  | nil => exact List.rdropWhile_concat_neg _ _ _ (by simpa using hc)
  | append_singleton back d ih =>
      rw [← List.cons_append, ← List.append_assoc]
      by_cases hd : d ∈ spaces
      · rw [List.rdropWhile_concat_pos _ _ _ (by simpa using hd),
          List.rdropWhile_concat_pos _ _ _ (by simpa using hd),
          ih]
      · rw [List.rdropWhile_concat_neg _ _ _ (by simpa using hd),
          List.rdropWhile_concat_neg _ _ _ (by simpa using hd),
          List.append_assoc, List.cons_append]

theorem strip_cons {c : Char} (hc : c ∉ spaces) (text : List Char) :
    strip (c :: text) = c :: text.rdropWhile (· ∈ spaces) := by
  unfold strip
  rw [List.dropWhile_cons_of_neg (by simpa using hc)]
  exact rdropWhile_append_cons hc [] text

theorem strip_space_cons {c : Char} (hc : c ∈ spaces) (text : List Char) : strip (c :: text) = strip text := by
  unfold strip
  rw [List.dropWhile_cons_of_pos (by simpa using hc)]

/-- A text that ends without a space is not shortened, whatever is before it. -/
theorem rdropWhile_append_trimmed {text : List Char} (h : Trimmed text) (hNonempty : text ≠ [])
    (front : List Char) : (front ++ text).rdropWhile (· ∈ spaces) = front ++ text := by
  obtain ⟨c, rest, rfl⟩ := List.exists_cons_of_ne_nil hNonempty
  have hc : c ∉ spaces := h.1 c rfl
  have hRest := strip_trimmed h
  rw [strip_cons hc] at hRest
  rw [rdropWhile_append_cons hc, hRest]

/-- Around a character that is no space, each side is stripped on its own. -/
theorem strip_append_cons {c : Char} (hc : c ∉ spaces) (front back : List Char) :
    strip (front ++ c :: back) = front.dropWhile (· ∈ spaces) ++ c :: back.rdropWhile (· ∈ spaces) := by
  have hFront : (front ++ c :: back).dropWhile (· ∈ spaces) = front.dropWhile (· ∈ spaces) ++ c :: back := by
    induction front with
    | nil => exact List.dropWhile_cons_of_neg (by simpa using hc)
    | cons d front ih =>
        by_cases hd : d ∈ spaces
        · rw [List.cons_append, List.dropWhile_cons_of_pos (by simpa using hd),
            List.dropWhile_cons_of_pos (by simpa using hd), ih]
        · rw [List.cons_append, List.dropWhile_cons_of_neg (by simpa using hd),
            List.dropWhile_cons_of_neg (by simpa using hd)]
          rfl
  unfold strip
  rw [hFront, rdropWhile_append_cons hc]

theorem strip_within (text : List Char) : strip text <:+: text :=
  (List.rdropWhile_prefix _ _).isInfix.trans (List.dropWhile_suffix _).isInfix

theorem eq_of_splitOnce {c : Char} {text front back : List Char} (h : splitOnce c text = some (front, back)) :
    text = front ++ c :: back := by
  induction text generalizing front back with
  | nil => cases h
  | cons d text ih =>
      rw [splitOnce] at h
      split at h
      · next hSame =>
          cases h
          rw [hSame]
          rfl
      · obtain ⟨⟨first, rest⟩, hParts, hEq⟩ := Option.map_eq_some_iff.mp h
        cases hEq
        rw [ih hParts]
        rfl

theorem eq_of_rsplitOnce {c : Char} {text front back : List Char} (h : rsplitOnce c text = some (front, back)) :
    text = front ++ c :: back := by
  induction text generalizing front back with
  | nil => cases h
  | cons d text ih =>
      rw [rsplitOnce] at h
      split at h
      · next hParts =>
          cases h
          rw [ih hParts]
          rfl
      · split at h
        · next hSame =>
            cases h
            rw [hSame]
            rfl
        · cases h

/-- The characters of some texts, without what separates them. -/
def textsLength (texts : List (List Char)) : Nat := (texts.map List.length).sum

theorem length_intercalate (separator : List Char) (texts : List (List Char)) :
    (List.intercalate separator texts).length = textsLength texts + separator.length * (texts.length - 1) := by
  induction texts with
  | nil => rfl
  | cons text texts ih =>
      cases texts with
      | nil => simp [List.intercalate, textsLength]
      | cons next texts =>
          have hSplit : List.intercalate separator (text :: next :: texts) =
              text ++ separator ++ List.intercalate separator (next :: texts) := by
            simp [List.intercalate]
          rw [hSplit, List.length_append, List.length_append, ih]
          simp only [textsLength, List.map_cons, List.sum_cons, List.length_cons]
          have hMul : separator.length * (texts.length + 1 + 1 - 1) =
              separator.length * (texts.length + 1 - 1) + separator.length := by
            rw [Nat.add_sub_cancel, Nat.add_sub_cancel, Nat.mul_succ]
          omega

/-- Texts of the same number are joined to more characters when they have more. -/
theorem length_intercalate_lt (separator : List Char) {texts others : List (List Char)}
    (hCount : texts.length = others.length) (h : textsLength texts < textsLength others) :
    (List.intercalate separator texts).length < (List.intercalate separator others).length := by
  rw [length_intercalate, length_intercalate, hCount]
  omega

theorem intercalate_concat_append {α : Type*} (separator : List α) (pieces : List (List α)) (last extra : List α) :
    separator.intercalate (pieces ++ [last ++ extra]) = separator.intercalate (pieces ++ [last]) ++ extra := by
  induction pieces with
  | nil => simp
  | cons piece pieces ih =>
      rw [List.cons_append, List.cons_append, List.intercalate_cons_of_ne_nil (by simp),
        List.intercalate_cons_of_ne_nil (by simp), ih]
      simp

theorem not_mem_of_mem_splitOn {c : Char} {text piece : List Char} (h : piece ∈ text.splitOn c) : c ∉ piece := by
  induction text generalizing piece with
  | nil =>
      rw [List.splitOn_nil, List.mem_singleton] at h
      exact h ▸ List.not_mem_nil
  | cons d text ih =>
      rw [List.splitOn_cons_eq_if_modifyHead] at h
      split at h
      · rcases List.mem_cons.mp h with rfl | h
        · exact List.not_mem_nil
        · exact ih h
      · next hd =>
          obtain ⟨first, pieces, hSplit⟩ := List.exists_cons_of_ne_nil (List.splitOn_ne_nil c text)
          rw [hSplit, List.modifyHead_cons, List.mem_cons] at h
          rw [hSplit] at ih
          rcases h with rfl | h
          · rw [List.mem_cons, not_or]
            exact ⟨fun hc => hd (beq_iff_eq.mpr hc.symm), ih List.mem_cons_self⟩
          · exact ih (List.mem_cons_of_mem _ h)

theorem forall₂_and_right {α β : Type*} {R : α → β → Prop} {p : β → Prop} {l : List α} {u : List β} :
    List.Forall₂ (fun a b => R a b ∧ p b) l u ↔ List.Forall₂ R l u ∧ ∀ b ∈ u, p b := by
  constructor
  · intro h
    induction h with
    | nil => exact ⟨.nil, List.forall_mem_nil p⟩
    | cons h _ ih => exact ⟨.cons h.1 ih.1, List.forall_mem_cons.mpr ⟨h.2, ih.2⟩⟩
  · rintro ⟨h, hAll⟩
    induction h with
    | nil => exact .nil
    | cons h _ ih =>
        rw [List.forall_mem_cons] at hAll
        exact .cons ⟨h, hAll.1⟩ (ih hAll.2)

theorem forall₂_concat_iff {α β : Type*} {R : α → β → Prop} {l : List α} {u : List β} {a : α} {b : β} :
    List.Forall₂ R (l ++ [a]) (u ++ [b]) ↔ List.Forall₂ R l u ∧ R a b := by
  rw [← List.forall₂_reverse_iff, List.reverse_concat, List.reverse_concat, List.forall₂_cons,
    List.forall₂_reverse_iff, and_comm]

end Text
