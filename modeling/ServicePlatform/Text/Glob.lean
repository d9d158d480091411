import Mathlib.Data.List.Infix

/-! Glob patterns over characters: `*` for any text, `?` for one character, a
class in square brackets for one of its members, and the backslash for a
character as it is. A class that is not closed ends with the pattern. -/
namespace Text

inductive GlobToken where
  | char (c : Char)
  | one
  | many
  | oneOf (negated : Bool) (ranges : List (Char × Char))
  deriving DecidableEq

/-- Where the reader of a pattern is, with what it has read of a class. -/
inductive GlobMode where
  | outside
  | inside (negated : Bool) (ranges : List (Char × Char))

def globTokensFrom : GlobMode → List Char → List GlobToken
  | .outside, [] => []
  | .outside, '*' :: rest => .many :: globTokensFrom .outside rest
  | .outside, '?' :: rest => .one :: globTokensFrom .outside rest
  | .outside, '[' :: '^' :: rest => globTokensFrom (.inside true []) rest
  | .outside, '[' :: rest => globTokensFrom (.inside false []) rest
  | .outside, '\\' :: c :: rest => .char c :: globTokensFrom .outside rest
  | .outside, c :: rest => .char c :: globTokensFrom .outside rest
  | .inside negated ranges, [] => [.oneOf negated ranges]
  | .inside negated ranges, '\\' :: c :: rest => globTokensFrom (.inside negated ((c, c) :: ranges)) rest
  | .inside negated ranges, ']' :: rest => .oneOf negated ranges :: globTokensFrom .outside rest
  | .inside negated ranges, first :: '-' :: last :: rest =>
      globTokensFrom (.inside negated ((first, last) :: ranges)) rest
  | .inside negated ranges, c :: rest => globTokensFrom (.inside negated ((c, c) :: ranges)) rest

/-- The character is between the ends, whichever comes first. -/
def inRange (c : Char) (range : Char × Char) : Bool :=
  (range.1 ≤ c && c ≤ range.2) || (range.2 ≤ c && c ≤ range.1)

def tokensMatch : List GlobToken → List Char → Bool
  | [], text => text.isEmpty
  | .many :: tokens, text => text.tails.any (tokensMatch tokens)
  | _ :: _, [] => false
  | .char expected :: tokens, c :: text => expected = c && tokensMatch tokens text
  | .one :: tokens, _ :: text => tokensMatch tokens text
  | .oneOf negated ranges :: tokens, c :: text =>
      xor negated (ranges.any (inRange c)) && tokensMatch tokens text

/-- The pattern matches the whole text. -/
def glob (pattern text : String) : Bool := tokensMatch (globTokensFrom .outside pattern.toList) text.toList

/-- The characters that do not stand for themselves. -/
def globSigns : List Char := ['*', '?', '[', '\\']

section Literal

variable {literal rest text : List Char} {tokens : List GlobToken}

theorem globTokensFrom_cons {c : Char} (h : c ∉ globSigns) :
    globTokensFrom .outside (c :: rest) = .char c :: globTokensFrom .outside rest := by
  simp only [globSigns, List.mem_cons, List.not_mem_nil, or_false, not_or] at h
  obtain ⟨hMany, hOne, hClass, hEscape⟩ := h
  rw [globTokensFrom]
  · exact hMany
  · exact hOne
  · exact fun _ hSame => absurd hSame hClass
  · exact hClass
  · exact fun _ _ hSame => absurd hSame hEscape

theorem globTokensFrom_append (h : ∀ c ∈ literal, c ∉ globSigns) :
    globTokensFrom .outside (literal ++ rest) = literal.map .char ++ globTokensFrom .outside rest := by
  induction literal with
  | nil => rfl
  | cons c literal ih =>
      obtain ⟨hHere, hRest⟩ := List.forall_mem_cons.mp h
      rw [List.cons_append, globTokensFrom_cons hHere, ih hRest]
      rfl

theorem tokensMatch_append : tokensMatch (literal.map .char ++ tokens) text = true ↔
    ∃ rest, text = literal ++ rest ∧ tokensMatch tokens rest = true := by
  induction literal generalizing text with
  | nil => simp
  | cons expected literal ih =>
      cases text with
      | nil => simp [tokensMatch]
      | cons c text =>
          rw [List.map_cons, List.cons_append, tokensMatch, Bool.and_eq_true, decide_eq_true_iff, ih]
          constructor
          · rintro ⟨rfl, rest, rfl, hRest⟩
            exact ⟨rest, rfl, hRest⟩
          · rintro ⟨rest, hText, hRest⟩
            obtain ⟨rfl, rfl⟩ := List.cons_eq_cons.mp hText
            exact ⟨rfl, rest, rfl, hRest⟩

theorem tokensMatch_many (text : List Char) : tokensMatch [.many] text = true := by
  rw [tokensMatch, List.any_eq_true]
  exact ⟨[], (List.mem_tails _ _).mpr List.nil_suffix, rfl⟩

/-- A literal text before a star matches what begins with it. -/
theorem glob_literal_star {stem key : String} (h : ∀ c ∈ stem.toList, c ∉ globSigns) :
    glob (stem ++ "*") key = true ↔ stem.toList <+: key.toList := by
  have hStar : globTokensFrom .outside "*".toList = [.many] := rfl
  rw [glob, String.toList_append, globTokensFrom_append h, hStar, tokensMatch_append]
  constructor
  · rintro ⟨rest, hKey, -⟩
    exact ⟨rest, hKey.symm⟩
  · rintro ⟨rest, hKey⟩
    exact ⟨rest, hKey.symm, tokensMatch_many rest⟩

end Literal

example : glob "h[a-c]ll?o*" "hbll!o world" = true ∧ glob "h[^a-c]llo" "hallo" = false := by decide

end Text
