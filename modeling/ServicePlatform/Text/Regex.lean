import Mathlib.Data.List.Basic
import Mathlib.Logic.Relation

/-! Regular expressions over texts: what of a text is left behind a match, and the
syntax with groups, classes, repeats and anchors. Escapes, extensions that begin
with `(?` and possessive repeats are not read. -/
namespace Text

inductive Regex where
  | empty
  | char (accepts : Char → Bool)
  | start
  | stop
  | seq (first second : Regex)
  | alt (first second : Regex)
  | star (body : Regex)

/-- What repeated steps lead to, with at most so many of them. -/
def iterate {α : Type*} (step : α → List α) : Nat → α → List α
  | 0, a => [a]
  | n + 1, a => a :: (step a).flatMap (iterate step n)

namespace Regex

/-- What is left of the rest of a text after a match at its beginning. A text may
end in a line feed behind its last anchor. -/
def remainders (whole : List Char) : Regex → List Char → List (List Char)
  | empty, rest => [rest]
  | char accepts, rest => match rest with
    | c :: rest => if accepts c then [rest] else []
    | [] => []
  | start, rest => if rest = whole then [rest] else []
  | stop, rest => if rest = [] ∨ rest = ['\n'] then [rest] else []
  | seq first second, rest => (first.remainders whole rest).flatMap (second.remainders whole)
  | alt first second, rest => first.remainders whole rest ++ second.remainders whole rest
  | star body, rest => iterate (body.remainders whole) rest.length rest

/-- `re.match`. -/
def Matches (regex : Regex) (text : List Char) : Prop := regex.remainders text text ≠ []

instance (regex : Regex) (text : List Char) : Decidable (regex.Matches text) :=
  inferInstanceAs (Decidable (_ ≠ _))

/-- How many characters a match needs at most, when nothing is repeated. -/
def atoms : Regex → Nat
  | empty | start | stop | star _ => 0
  | char _ => 1
  | seq first second => first.atoms + second.atoms
  | alt first second => first.atoms + second.atoms

/-- Expressions one behind another. -/
def concat (items : List Regex) : Regex := items.foldr seq empty

/-- One or more of them. -/
def plus (body : Regex) : Regex := seq body (star body)

section Remainders

variable {whole rest left : List Char} {regex first second body : Regex}

theorem remainders_char_nil (accepts : Char → Bool) : (char accepts).remainders whole [] = [] := rfl

theorem remainders_char_cons (accepts : Char → Bool) (c : Char) :
    (char accepts).remainders whole (c :: rest) = if accepts c then [rest] else [] := rfl

theorem remainders_start : start.remainders whole rest = if rest = whole then [rest] else [] := rfl

theorem remainders_stop : stop.remainders whole rest = if rest = [] ∨ rest = ['\n'] then [rest] else [] := rfl

theorem remainders_seq : (seq first second).remainders whole rest =
    (first.remainders whole rest).flatMap (second.remainders whole) := rfl

theorem remainders_alt : (alt first second).remainders whole rest =
    first.remainders whole rest ++ second.remainders whole rest := rfl

theorem matches_iff {text : List Char} : regex.Matches text ↔ ∃ left, left ∈ regex.remainders text text := by
  rw [Matches, ne_eq, List.eq_nil_iff_forall_not_mem, not_forall_not]

theorem mem_char_iff {accepts : Char → Bool} :
    left ∈ (char accepts).remainders whole rest ↔ ∃ c, rest = c :: left ∧ accepts c = true := by
  cases rest with
  | nil => simp [remainders_char_nil]
  | cons c rest =>
      rw [remainders_char_cons]
      split
      · next hc =>
          rw [List.mem_singleton]
          constructor
          · rintro rfl
            exact ⟨c, rfl, hc⟩
          · rintro ⟨d, hd, -⟩
            exact (List.cons.inj hd).2.symm
      · next hc =>
          refine iff_of_false List.not_mem_nil ?_
          rintro ⟨d, hd, hAccepts⟩
          cases hd
          exact hc hAccepts

theorem mem_start_iff : left ∈ start.remainders whole rest ↔ left = rest ∧ rest = whole := by
  rw [remainders_start]
  split <;> simp_all

theorem mem_stop_iff : left ∈ stop.remainders whole rest ↔ left = rest ∧ (rest = [] ∨ rest = ['\n']) := by
  rw [remainders_stop]
  split
  · next h => simp [h]
  · next h => simp [h]

theorem mem_seq_iff : left ∈ (seq first second).remainders whole rest ↔
    ∃ middle, middle ∈ first.remainders whole rest ∧ left ∈ second.remainders whole middle := by
  rw [remainders_seq, List.mem_flatMap]

theorem mem_concat_cons_iff {items : List Regex} : left ∈ (concat (first :: items)).remainders whole rest ↔
    ∃ middle, middle ∈ first.remainders whole rest ∧ left ∈ (concat items).remainders whole middle :=
  mem_seq_iff

theorem mem_concat_nil_iff : left ∈ (concat []).remainders whole rest ↔ left = rest := List.mem_singleton

theorem mem_concat_append_iff {items items' : List Regex} :
    left ∈ (concat (items ++ items')).remainders whole rest ↔
      ∃ middle, middle ∈ (concat items).remainders whole rest ∧ left ∈ (concat items').remainders whole middle := by
  induction items generalizing rest with
  | nil => simp [mem_concat_nil_iff]
  | cons item items ih =>
      simp only [List.cons_append, mem_concat_cons_iff, ih]
      constructor
      · rintro ⟨next, hItem, middle, hItems, hLeft⟩
        exact ⟨middle, ⟨next, hItem, hItems⟩, hLeft⟩
      · rintro ⟨middle, ⟨next, hItem, hItems⟩, hLeft⟩
        exact ⟨next, hItem, middle, hItems, hLeft⟩

theorem mem_alt_iff : left ∈ (alt first second).remainders whole rest ↔
    left ∈ first.remainders whole rest ∨ left ∈ second.remainders whole rest := by
  rw [remainders_alt, List.mem_append]

theorem self_mem_iterate {α : Type*} (step : α → List α) (n : Nat) (a : α) : a ∈ iterate step n a := by
  cases n with
  | zero => exact List.mem_singleton_self a
  | succ n => exact List.mem_cons_self

theorem mem_iterate_induction {α : Type*} {step : α → List α} {R : α → α → Prop} (refl : ∀ a, R a a)
    (head : ∀ a b c, b ∈ step a → R b c → R a c) {n : Nat} {a c : α} (h : c ∈ iterate step n a) : R a c := by
  induction n generalizing a with
  | zero =>
      rw [iterate, List.mem_singleton] at h
      exact h ▸ refl a
  | succ n ih =>
      rw [iterate, List.mem_cons] at h
      rcases h with rfl | h
      · exact refl _
      · obtain ⟨b, hb, hc⟩ := List.mem_flatMap.mp h
        exact head a b c hb (ih hc)

/-- A match takes characters from the front. -/
theorem suffix_of_mem (h : left ∈ regex.remainders whole rest) : left <:+ rest := by
  induction regex generalizing rest left with
  | empty => exact List.mem_singleton.mp h ▸ List.suffix_refl _
  | char accepts =>
      obtain ⟨c, rfl, -⟩ := mem_char_iff.mp h
      exact List.suffix_cons c left
  | start => exact (mem_start_iff.mp h).1 ▸ List.suffix_refl _
  | stop => exact (mem_stop_iff.mp h).1 ▸ List.suffix_refl _
  | seq first second ihFirst ihSecond =>
      obtain ⟨middle, hFirst, hSecond⟩ := mem_seq_iff.mp h
      exact (ihSecond hSecond).trans (ihFirst hFirst)
  | alt first second ihFirst ihSecond =>
      rcases mem_alt_iff.mp h with hFirst | hSecond
      · exact ihFirst hFirst
      · exact ihSecond hSecond
  | star body ih =>
      exact mem_iterate_induction (R := fun rest left => left <:+ rest) List.suffix_refl
        (fun _ _ _ hStep hRest => hRest.trans (ih hStep)) h

/-- Repeats are all that a chain of matches leads to. -/
theorem mem_star_iff : left ∈ (star body).remainders whole rest ↔
    Relation.ReflTransGen (fun rest left => left ∈ body.remainders whole rest) rest left := by
  constructor
  · exact mem_iterate_induction (fun _ => .refl) fun _ _ _ hStep hRest => .head hStep hRest
  · intro h
    have hEnough : ∀ n, rest.length ≤ n → left ∈ iterate (body.remainders whole) n rest := by
      induction h using Relation.ReflTransGen.head_induction_on with
      | refl => exact fun n _ => self_mem_iterate _ n left
      | @head rest middle hStep hRest ih =>
          intro n hn
          -- A match that takes nothing can be left out.
          have hShorter := (suffix_of_mem hStep).length_le
          by_cases hSame : middle.length = rest.length
          · rw [← (suffix_of_mem hStep).eq_of_length hSame]
            exact ih n (by omega)
          · obtain ⟨n, rfl⟩ := Nat.exists_eq_add_one.mpr (show 0 < n by omega)
            exact List.mem_cons_of_mem _ (List.mem_flatMap.mpr ⟨middle, hStep, ih n (by omega)⟩)
    exact hEnough _ (Nat.le_refl _)

/-- A match of a whole text, or of all of it but a line feed at its end. -/
theorem matches_anchored_iff {items : List Regex} {text : List Char} :
    (concat (start :: (items ++ [stop]))).Matches text ↔
      ∃ left, left ∈ (concat items).remainders text text ∧ (left = [] ∨ left = ['\n']) := by
  rw [matches_iff]
  constructor
  · rintro ⟨left, hLeft⟩
    obtain ⟨begun, hBegun, hLeft⟩ := mem_concat_cons_iff.mp hLeft
    obtain ⟨ended, hItems, hLeft⟩ := mem_concat_append_iff.mp hLeft
    obtain ⟨last, hStop, -⟩ := mem_concat_cons_iff.mp hLeft
    rw [(mem_start_iff.mp hBegun).1] at hItems
    exact ⟨ended, hItems, (mem_stop_iff.mp hStop).2⟩
  · rintro ⟨left, hItems, hEnd⟩
    refine ⟨left, mem_concat_cons_iff.mpr ⟨text, mem_start_iff.mpr ⟨rfl, rfl⟩, ?_⟩⟩
    refine mem_concat_append_iff.mpr ⟨left, hItems, ?_⟩
    exact mem_concat_cons_iff.mpr ⟨left, mem_stop_iff.mpr ⟨rfl, hEnd⟩, mem_concat_nil_iff.mpr rfl⟩

/-- One or more characters of a kind. -/
theorem mem_plus_char_iff {accepts : Char → Bool} : left ∈ (plus (char accepts)).remainders whole rest ↔
    ∃ taken, rest = taken ++ left ∧ taken ≠ [] ∧ ∀ c ∈ taken, accepts c = true := by
  rw [plus, mem_seq_iff]
  constructor
  · rintro ⟨middle, hFirst, hMore⟩
    obtain ⟨c, rfl, hc⟩ := mem_char_iff.mp hFirst
    have hTaken : ∃ taken, middle = taken ++ left ∧ ∀ c ∈ taken, accepts c = true := by
      replace hMore := mem_star_iff.mp hMore
      clear hFirst
      induction hMore using Relation.ReflTransGen.head_induction_on with
      | refl => exact ⟨[], rfl, List.forall_mem_nil _⟩
      | head hStep _ ih =>
          obtain ⟨d, rfl, hd⟩ := mem_char_iff.mp hStep
          obtain ⟨taken, rfl, hAll⟩ := ih
          exact ⟨d :: taken, rfl, List.forall_mem_cons.mpr ⟨hd, hAll⟩⟩
    obtain ⟨taken, rfl, hAll⟩ := hTaken
    exact ⟨c :: taken, rfl, List.cons_ne_nil _ _, List.forall_mem_cons.mpr ⟨hc, hAll⟩⟩
  · rintro ⟨taken, rfl, hNonempty, hAll⟩
    obtain ⟨c, taken, rfl⟩ := List.exists_cons_of_ne_nil hNonempty
    replace ⟨hc, hAll⟩ := List.forall_mem_cons.mp hAll
    refine ⟨taken ++ left, mem_char_iff.mpr ⟨c, rfl, hc⟩, mem_star_iff.mpr ?_⟩
    clear hNonempty
    induction taken with
    | nil => exact .refl
    | cons d taken ih =>
        obtain ⟨hd, hAll⟩ := List.forall_mem_cons.mp hAll
        exact .head (mem_char_iff.mpr ⟨d, rfl, hd⟩) (ih hAll)

theorem mem_plus_char_cons_iff {accepts : Char → Bool} {c : Char} :
    left ∈ (plus (char accepts)).remainders whole (c :: rest) ↔
      accepts c = true ∧ (left = rest ∨ left ∈ (plus (char accepts)).remainders whole rest) := by
  simp only [mem_plus_char_iff]
  constructor
  · rintro ⟨taken, hTaken, hNonempty, hAll⟩
    obtain ⟨d, taken, rfl⟩ := List.exists_cons_of_ne_nil hNonempty
    obtain ⟨rfl, rfl⟩ := List.cons.inj hTaken
    replace ⟨hc, hAll⟩ := List.forall_mem_cons.mp hAll
    refine ⟨hc, ?_⟩
    by_cases hEmpty : taken = []
    · exact Or.inl (hEmpty ▸ rfl)
    · exact Or.inr ⟨taken, rfl, hEmpty, hAll⟩
  · rintro ⟨hc, rfl | ⟨taken, rfl, -, hAll⟩⟩
    · exact ⟨[c], rfl, List.cons_ne_nil _ _, List.forall_mem_singleton.mpr hc⟩
    · exact ⟨c :: taken, rfl, List.cons_ne_nil _ _, List.forall_mem_cons.mpr ⟨hc, hAll⟩⟩

/-- What a match takes can be cut down to its atoms, and what it leaves to any
part of it; a repeat then takes nothing. -/
theorem shorter_match {consumed : List Char} (hSuffix : consumed ++ left <:+ whole)
    (h : left ∈ regex.remainders whole (consumed ++ left)) {left' : List Char} (hLeft : left'.Sublist left) :
    ∃ consumed', consumed'.Sublist consumed ∧ consumed'.length ≤ regex.atoms ∧
      ∀ whole', (consumed ++ left = whole → consumed' ++ left' = whole') →
        left' ∈ regex.remainders whole' (consumed' ++ left') := by
  induction regex generalizing consumed left left' with
  | empty => exact ⟨[], List.nil_sublist _, Nat.le_refl 0, fun _ _ => List.mem_singleton_self _⟩
  | char accepts =>
      obtain ⟨c, hc, hAccepts⟩ := mem_char_iff.mp h
      have hBehind : consumed ++ left = [c] ++ left := hc
      have hConsumed : consumed = [c] := List.append_cancel_right hBehind
      refine ⟨consumed, List.Sublist.refl _, ?_, fun _ _ => ?_⟩
      · rw [hConsumed]
        exact Nat.le_refl 1
      · rw [hConsumed]
        exact mem_char_iff.mpr ⟨c, rfl, hAccepts⟩
  | start =>
      refine ⟨[], List.nil_sublist _, Nat.le_refl 0, fun whole' hWhole => ?_⟩
      exact mem_start_iff.mpr ⟨rfl, hWhole (mem_start_iff.mp h).2⟩
  | stop =>
      obtain ⟨hSame, hEnd⟩ := mem_stop_iff.mp h
      refine ⟨[], List.nil_sublist _, Nat.le_refl 0, fun _ _ => mem_stop_iff.mpr ⟨rfl, ?_⟩⟩
      rw [← hSame] at hEnd
      rcases hEnd with rfl | rfl
      · exact Or.inl (List.sublist_nil.mp hLeft)
      · exact List.sublist_singleton.mp hLeft
  | seq first second ihFirst ihSecond =>
      obtain ⟨middle, hFirst, hSecond⟩ := mem_seq_iff.mp h
      obtain ⟨back, rfl⟩ := suffix_of_mem hSecond
      obtain ⟨front, hFront⟩ := suffix_of_mem hFirst
      rw [← List.append_assoc] at hFront
      obtain rfl : consumed = front ++ back := (List.append_cancel_right hFront).symm
      rw [List.append_assoc] at hSuffix hFirst
      have hBack : back ++ left <:+ whole := (List.suffix_append front _).trans hSuffix
      obtain ⟨back', hBackPart, hBackAtoms, hBackMatch⟩ := ihSecond hBack hSecond hLeft
      obtain ⟨front', hFrontPart, hFrontAtoms, hFrontMatch⟩ :=
        ihFirst hSuffix hFirst (hBackPart.append hLeft)
      refine ⟨front' ++ back', hFrontPart.append hBackPart, ?_, fun whole' hWhole => ?_⟩
      · rw [List.length_append, atoms]
        exact Nat.add_le_add hFrontAtoms hBackAtoms
      rw [List.append_assoc, List.append_assoc] at hWhole
      rw [List.append_assoc]
      refine mem_seq_iff.mpr ⟨back' ++ left', hFrontMatch whole' hWhole, hBackMatch whole' fun hStart => ?_⟩
      -- The second match begins the text only if the first one takes nothing.
      have hNothing : front = [] := by
        have hLength := hSuffix.length_le
        rw [List.length_append, hStart] at hLength
        exact List.length_eq_zero_iff.mp (by omega)
      subst hNothing
      rw [← hWhole hStart, List.sublist_nil.mp hFrontPart, List.nil_append]
  | alt first second ihFirst ihSecond =>
      rcases mem_alt_iff.mp h with hFirst | hSecond
      · obtain ⟨consumed', hPart, hAtoms, hMatch⟩ := ihFirst hSuffix hFirst hLeft
        exact ⟨consumed', hPart, Nat.le_add_right_of_le hAtoms,
          fun whole' hWhole => mem_alt_iff.mpr (Or.inl (hMatch whole' hWhole))⟩
      · obtain ⟨consumed', hPart, hAtoms, hMatch⟩ := ihSecond hSuffix hSecond hLeft
        exact ⟨consumed', hPart, Nat.le_add_left_of_le hAtoms,
          fun whole' hWhole => mem_alt_iff.mpr (Or.inr (hMatch whole' hWhole))⟩
  | star body ih =>
      exact ⟨[], List.nil_sublist _, Nat.le_refl 0, fun _ _ => mem_star_iff.mpr .refl⟩

/-- What matches at all matches a text that is no longer than the atoms. -/
theorem Matches.exists_short {text : List Char} (h : regex.Matches text) :
    ∃ short, regex.Matches short ∧ short.length ≤ regex.atoms := by
  obtain ⟨left, hLeft⟩ := matches_iff.mp h
  obtain ⟨consumed, rfl⟩ := suffix_of_mem hLeft
  obtain ⟨short, -, hAtoms, hMatch⟩ := shorter_match (List.suffix_refl _) hLeft (List.nil_sublist left)
  rw [List.append_nil] at hMatch
  exact ⟨short, matches_iff.mpr ⟨[], hMatch short fun _ => rfl⟩, hAtoms⟩

end Remainders

end Regex

end Text
