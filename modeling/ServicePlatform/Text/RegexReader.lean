import Mathlib.Data.List.Chain
import ServicePlatform.Text.Fields
import ServicePlatform.Text.Regex

/-! Reading a regular expression one character at a time. -/
namespace Text

/-- What a repeat that follows would do to the last item of a branch. -/
inductive ItemKind where
  | unrepeatable
  | single
  | greedy
  | lazy
  deriving DecidableEq

/-- An unfinished group: what stands before its last `|`, the branch behind it, and
the last item of that branch. -/
structure Frame where
  choices : Option Regex
  branch : Regex
  item : Regex
  kind : ItemKind

namespace Frame

def fresh : Frame := ⟨none, .empty, .empty, .unrepeatable⟩

def current (frame : Frame) : Regex := .seq frame.branch frame.item

def body (frame : Frame) : Regex :=
  match frame.choices with
  | none => frame.current
  | some choices => .alt choices frame.current

def push (frame : Frame) (item : Regex) (kind : ItemKind) : Frame :=
  { frame with branch := frame.current, item := item, kind := kind }

def next (frame : Frame) : Frame := { fresh with choices := some frame.body }

/-- A repeat of the last item; `none` when there is nothing to repeat. -/
def repeated (frame : Frame) (wrap : Regex → Regex) : Option Frame :=
  if frame.kind = .single then some { frame with item := wrap frame.item, kind := .greedy } else none

def atoms (frame : Frame) : Nat := frame.body.atoms

end Frame

/-- The characters of a class, without a leading `^`. -/
def classMembers : List Char → Option (Char → Bool)
  | lowest :: dash :: highest :: rest =>
      if dash = '-' then
        if highest < lowest then none
        else (classMembers rest).map fun members c => (lowest ≤ c && c ≤ highest) || members c
      else (classMembers (dash :: highest :: rest)).map fun members c => c == lowest || members c
  | [member, last] => some fun c => c == member || c == last
  | [member] => some fun c => c == member
  | [] => some fun _ => false

/-- The characters that a class accepts. -/
def classSet (content : List Char) : Option (Char → Bool) :=
  match content with
  | [] => classMembers []
  | mark :: members =>
      if mark = '^' then (classMembers members).map fun members c => !members c
      else classMembers content

inductive RegexReader where
  | outside (frame : Frame) (outer : List Frame)
  | inClass (frame : Frame) (outer : List Frame) (content : List Char)

namespace RegexReader

/-- An expression for one character that is no operator. -/
def plainItem (c : Char) : Regex := if c = '.' then .char fun d => d != '\n' else .char fun d => d == c

def stepOutside (frame : Frame) (outer : List Frame) (c : Char) : Option RegexReader :=
  if c = '(' then some (outside Frame.fresh (frame :: outer))
  else if c = ')' then
    match outer with
    | [] => none
    | below :: outer => some (outside (below.push frame.body .single) outer)
  else if c = '|' then some (outside frame.next outer)
  else if c = '*' then (frame.repeated .star).map (outside · outer)
  else if c = '+' then (frame.repeated .plus).map (outside · outer)
  else if c = '?' then
    if frame.kind = .greedy then some (outside { frame with kind := .lazy } outer)
    else (frame.repeated (.alt · .empty)).map (outside · outer)
  else if c = '^' then some (outside (frame.push .start .unrepeatable) outer)
  else if c = '$' then some (outside (frame.push .stop .unrepeatable) outer)
  else if c = '[' then some (inClass frame outer [])
  else if c = '\\' then none
  else some (outside (frame.push (plainItem c) .single) outer)

/-- A bracket that comes first in a class belongs to it. -/
def stepInClass (frame : Frame) (outer : List Frame) (content : List Char) (c : Char) : Option RegexReader :=
  if c = '\\' then none
  else if c = ']' ∧ content ≠ [] ∧ content ≠ ['^'] then
    (classSet content).map fun accepts => outside (frame.push (.char accepts) .single) outer
  else some (inClass frame outer (content ++ [c]))

def step : RegexReader → Char → Option RegexReader
  | outside frame outer, c => stepOutside frame outer c
  | inClass frame outer content, c => stepInClass frame outer content c

def finish : RegexReader → Option Regex
  | outside frame [] => some frame.body
  | _ => none

def atoms : RegexReader → Nat
  | outside frame outer | inClass frame outer _ => frame.atoms + (outer.map Frame.atoms).sum

end RegexReader

/-- `re.compile`; `none` for an error, and for syntax that is not read. -/
def Regex.parse (text : List Char) : Option Regex :=
  (text.foldlM RegexReader.step (.outside Frame.fresh [])).bind RegexReader.finish

/-- One or more characters other than a separator. -/
def negatedPlus (separator : Char) : List Char := ['[', '^', separator, ']', '+']

/-- The characters that mean something to a regular expression outside a class,
except the one for any character. -/
def operators : List Char := ['(', ')', '|', '*', '+', '?', '^', '$', '[', '\\']

/-- The syntax that is read: no escapes, counted repeats, extensions or possessive repeats. -/
def Regex.Standard (text : List Char) : Prop :=
  (∀ c ∈ text, c ≠ '\\' ∧ c ≠ '\x7b') ∧
    text.IsChain fun c d => ¬ (c = '(' ∧ d = '?') ∧ ¬ (c ∈ ['*', '+', '?'] ∧ d = '+')

instance : DecidablePred Regex.Standard := fun _ => inferInstanceAs (Decidable (_ ∧ _))

theorem Regex.Standard.append {text text' : List Char} (h : Standard text) (h' : Standard text')
    (hHead : ∀ c ∈ text'.head?, c ∉ ['+', '?']) : Standard (text ++ text') := by
  constructor
  · intro c hc
    rcases List.mem_append.mp hc with hc | hc
    · exact h.1 c hc
    · exact h'.1 c hc
  · refine List.isChain_append.mpr ⟨h.2, h'.2, fun c _ d hd => ?_⟩
    have hFollows := hHead d hd
    constructor
    · rintro ⟨-, rfl⟩
      exact hFollows (by decide)
    · rintro ⟨-, rfl⟩
      exact hFollows (by decide)

section Atoms

variable {frame frame' : Frame} {reader reader' : RegexReader} {c : Char}

theorem Frame.atoms_push (frame : Frame) (item : Regex) (kind : ItemKind) :
    (frame.push item kind).atoms = frame.atoms + item.atoms := by
  unfold atoms body push current
  cases frame.choices with
  | none => rfl
  | some choices =>
      simp only [Regex.atoms]
      omega

theorem Frame.atoms_repeated {wrap : Regex → Regex} (h : frame.repeated wrap = some frame')
    (hWrap : ∀ item, (wrap item).atoms ≤ item.atoms) : frame'.atoms ≤ frame.atoms := by
  unfold repeated at h
  split at h
  · cases h
    have hItem := hWrap frame.item
    unfold atoms body current
    cases frame.choices with
    | none => exact Nat.add_le_add_left hItem _
    | some choices => exact Nat.add_le_add_left (Nat.add_le_add_left hItem _) _
  · cases h

namespace RegexReader

theorem atoms_plainItem (c : Char) : (plainItem c).atoms = 1 := by
  unfold plainItem
  split <;> rfl

theorem atoms_open {outer : List Frame} :
    (outside Frame.fresh (frame :: outer)).atoms = (outside frame outer).atoms := by
  simp only [atoms, List.map_cons, List.sum_cons, Frame.atoms, Frame.fresh, Frame.body, Frame.current, Regex.atoms]
  omega

theorem atoms_close {below : Frame} {outer : List Frame} :
    (outside (below.push frame.body .single) outer).atoms = (outside frame (below :: outer)).atoms := by
  simp only [atoms, Frame.atoms_push, List.map_cons, List.sum_cons]
  unfold Frame.atoms
  omega

theorem atoms_push {outer : List Frame} (item : Regex) (kind : ItemKind) :
    (outside (frame.push item kind) outer).atoms = (outside frame outer).atoms + item.atoms := by
  simp only [atoms, Frame.atoms_push]
  omega

theorem atoms_repeated {outer : List Frame} {wrap : Regex → Regex}
    (h : (frame.repeated wrap).map (outside · outer) = some reader)
    (hWrap : ∀ item, (wrap item).atoms ≤ item.atoms) : reader.atoms ≤ (outside frame outer).atoms := by
  obtain ⟨frame', hRepeated, rfl⟩ := Option.map_eq_some_iff.mp h
  exact Nat.add_le_add_right (Frame.atoms_repeated hRepeated hWrap) _

theorem atoms_stepOutside {outer : List Frame} (h : stepOutside frame outer c = some reader) :
    reader.atoms ≤ (outside frame outer).atoms ∨
      c ∉ operators ∧ reader.atoms ≤ (outside frame outer).atoms + 1 := by
  unfold stepOutside at h
  by_cases hOpen : c = '('
  · rw [if_pos hOpen] at h
    cases h
    exact Or.inl (Nat.le_of_eq atoms_open)
  rw [if_neg hOpen] at h
  by_cases hClose : c = ')'
  · rw [if_pos hClose] at h
    cases outer with
    | nil => cases h
    | cons below outer =>
        cases h
        exact Or.inl (Nat.le_of_eq atoms_close)
  rw [if_neg hClose] at h
  by_cases hBar : c = '|'
  · rw [if_pos hBar] at h
    cases h
    exact Or.inl (Nat.le_refl _)
  rw [if_neg hBar] at h
  by_cases hStar : c = '*'
  · rw [if_pos hStar] at h
    exact Or.inl (atoms_repeated h fun _ => Nat.zero_le _)
  rw [if_neg hStar] at h
  by_cases hPlus : c = '+'
  · rw [if_pos hPlus] at h
    exact Or.inl (atoms_repeated h fun _ => Nat.le_refl _)
  rw [if_neg hPlus] at h
  by_cases hOption : c = '?'
  · rw [if_pos hOption] at h
    split at h
    · cases h
      exact Or.inl (Nat.le_refl _)
    · exact Or.inl (atoms_repeated h fun _ => Nat.le_refl _)
  rw [if_neg hOption] at h
  by_cases hStart : c = '^'
  · rw [if_pos hStart] at h
    cases h
    exact Or.inl (Nat.le_of_eq (atoms_push ..))
  rw [if_neg hStart] at h
  by_cases hStop : c = '$'
  · rw [if_pos hStop] at h
    cases h
    exact Or.inl (Nat.le_of_eq (atoms_push ..))
  rw [if_neg hStop] at h
  by_cases hClass : c = '['
  · rw [if_pos hClass] at h
    cases h
    exact Or.inl (Nat.le_refl _)
  rw [if_neg hClass] at h
  by_cases hEscape : c = '\\'
  · rw [if_pos hEscape] at h
    cases h
  rw [if_neg hEscape] at h
  cases h
  right
  constructor
  · simp only [operators, List.mem_cons, List.not_mem_nil, or_false, not_or]
    exact ⟨hOpen, hClose, hBar, hStar, hPlus, hOption, hStart, hStop, hClass, hEscape⟩
  · rw [atoms_push, atoms_plainItem]

theorem stepInClass_eq {outer : List Frame} {content : List Char} (h : stepInClass frame outer content c = some reader) :
    (c = ']' ∧ ∃ accepts, reader = outside (frame.push (.char accepts) .single) outer) ∨
      reader = inClass frame outer (content ++ [c]) := by
  unfold stepInClass at h
  split at h
  · cases h
  split at h
  · next hClose =>
      obtain ⟨accepts, -, rfl⟩ := Option.map_eq_some_iff.mp h
      exact Or.inl ⟨hClose.1, accepts, rfl⟩
  · cases h
    exact Or.inr rfl

/-- A character adds one atom at most, and an operator none. -/
theorem atoms_step (h : reader.step c = some reader') :
    reader'.atoms ≤ reader.atoms ∨ c ∉ operators ∧ reader'.atoms ≤ reader.atoms + 1 := by
  cases reader with
  | outside frame outer => exact atoms_stepOutside h
  | inClass frame outer content =>
      rcases stepInClass_eq h with ⟨rfl, accepts, rfl⟩ | rfl
      · right
        refine ⟨by decide, ?_⟩
        simp only [atoms, Frame.atoms_push, Regex.atoms]
        omega
      · exact Or.inl (Nat.le_refl _)

/-- Behind a bracket there is a class, whatever stands before it. -/
theorem step_bracket (h : reader.step '[' = some reader') :
    ∃ frame outer content, reader' = inClass frame outer content ∧ reader'.atoms = reader.atoms := by
  cases reader with
  | outside frame outer =>
      cases h
      exact ⟨frame, outer, [], rfl, rfl⟩
  | inClass frame outer content =>
      rcases stepInClass_eq h with ⟨hClose, -⟩ | rfl
      · exact absurd hClose (by decide)
      · exact ⟨frame, outer, content ++ ['['], rfl, rfl⟩

theorem atoms_negatedPlus {separator : Char} (hSeparator : separator ≠ ']')
    (h : (negatedPlus separator).foldlM step reader = some reader') : reader'.atoms ≤ reader.atoms + 1 := by
  simp only [negatedPlus, List.foldlM_cons, List.foldlM_nil, Option.bind_eq_bind, Option.bind_eq_some_iff,
    Option.pure_def, Option.some.injEq] at h
  obtain ⟨opened, hOpened, negated, hNegated, separated, hSeparated, closed, hClosed, last, hLast, rfl⟩ := h
  obtain ⟨frame, outer, content, rfl, hAtoms⟩ := step_bracket hOpened
  obtain rfl : negated = inClass frame outer (content ++ ['^']) :=
    (stepInClass_eq hNegated).resolve_left fun hClose => absurd hClose.1 (by decide)
  obtain rfl : separated = inClass frame outer (content ++ ['^'] ++ [separator]) :=
    (stepInClass_eq hSeparated).resolve_left fun hClose => hSeparator hClose.1
  have hClass : (inClass frame outer (content ++ ['^'] ++ [separator])).atoms = reader.atoms := hAtoms
  have hClosedAtoms : closed.atoms ≤ reader.atoms + 1 := by
    rcases atoms_step hClosed with hSame | ⟨-, hMore⟩ <;> omega
  rcases atoms_step hLast with hSame | ⟨hOperator, -⟩
  · omega
  · exact absurd (by decide) hOperator

end RegexReader

end Atoms

section Plain

/-- In any group a text is read as these expressions, one behind another. -/
def ReadsAs (text : List Char) (items : List Regex) : Prop :=
  ∀ frame outer, ∃ frame', text.foldlM RegexReader.step (.outside frame outer) = some (.outside frame' outer) ∧
    frame'.choices = frame.choices ∧
    ∀ whole rest left, left ∈ frame'.current.remainders whole rest ↔
      ∃ middle, middle ∈ frame.current.remainders whole rest ∧ left ∈ (Regex.concat items).remainders whole middle

variable {text text' : List Char} {items items' : List Regex} {c : Char}

theorem readsAs_nil : ReadsAs [] [] := by
  intro frame outer
  refine ⟨frame, rfl, rfl, fun whole rest left => ?_⟩
  simp [Regex.mem_concat_nil_iff]

theorem ReadsAs.append (h : ReadsAs text items) (h' : ReadsAs text' items') :
    ReadsAs (text ++ text') (items ++ items') := by
  intro frame outer
  obtain ⟨middle, hRead, hChoices, hMatch⟩ := h frame outer
  obtain ⟨last, hRead', hChoices', hMatch'⟩ := h' middle outer
  refine ⟨last, ?_, hChoices'.trans hChoices, fun whole rest left => ?_⟩
  · rw [List.foldlM_append, hRead]
    exact hRead'
  · rw [hMatch']
    simp only [hMatch, Regex.mem_concat_append_iff]
    constructor
    · rintro ⟨behind, ⟨before, hBefore, hItems⟩, hItems'⟩
      exact ⟨before, hBefore, behind, hItems, hItems'⟩
    · rintro ⟨before, hBefore, behind, hItems, hItems'⟩
      exact ⟨behind, ⟨before, hBefore, hItems⟩, hItems'⟩

theorem readsAs_of_push {item : Regex} (kind : ItemKind) (h : ∀ frame outer,
    text.foldlM RegexReader.step (.outside frame outer) = some (.outside (frame.push item kind) outer)) :
    ReadsAs text [item] := by
  intro frame outer
  refine ⟨frame.push item kind, h frame outer, rfl, fun whole rest left => ?_⟩
  rw [Frame.current, Regex.mem_seq_iff]
  simp only [Regex.mem_concat_cons_iff, Regex.mem_concat_nil_iff, exists_eq_right', Frame.push]

theorem readsAs_start : ReadsAs ['^'] [.start] := readsAs_of_push .unrepeatable fun _ _ => rfl

theorem readsAs_stop : ReadsAs ['$'] [.stop] := readsAs_of_push .unrepeatable fun _ _ => rfl

theorem readsAs_plain (h : c ∉ operators) : ReadsAs [c] [RegexReader.plainItem c] := by
  have hNe : ∀ operator ∈ operators, c ≠ operator := fun _ hMem hEq => h (hEq ▸ hMem)
  refine readsAs_of_push .single fun frame outer => ?_
  have hStep : RegexReader.stepOutside frame outer c =
      some (.outside (frame.push (RegexReader.plainItem c) .single) outer) := by
    unfold RegexReader.stepOutside
    repeat rw [if_neg (hNe _ (by decide))]
  rw [List.foldlM_cons, RegexReader.step, hStep]
  rfl

theorem readsAs_negatedPlus {separator : Char} (hClose : separator ≠ ']') (hEscape : separator ≠ '\\') :
    ReadsAs (negatedPlus separator) [.plus (.char fun c => c != separator)] := by
  refine readsAs_of_push .greedy fun frame outer => ?_
  have hStep : RegexReader.stepInClass frame outer ['^'] separator =
      some (.inClass frame outer ['^', separator]) := by
    rw [RegexReader.stepInClass, if_neg hEscape, if_neg fun h => hClose h.1]
    rfl
  show (RegexReader.stepInClass frame outer ['^'] separator).bind _ = _
  rw [hStep]
  rfl

/-- A text that is read so is an expression that matches so. -/
theorem ReadsAs.parse (h : ReadsAs text items) : ∃ regex, Regex.parse text = some regex ∧
    ∀ path, regex.Matches path ↔ (Regex.concat items).Matches path := by
  obtain ⟨frame, hRead, hChoices, hMatch⟩ := h Frame.fresh []
  have hBody : frame.body = frame.current := by
    rw [Frame.body, hChoices]
    rfl
  refine ⟨frame.current, ?_, fun path => ?_⟩
  · rw [Regex.parse, hRead, ← hBody]
    rfl
  · have hFresh : ∀ middle, middle ∈ Frame.fresh.current.remainders path path ↔ middle = path := by
      intro middle
      rw [Frame.current, Regex.mem_seq_iff]
      simp [Frame.fresh, Regex.remainders]
    simp only [Regex.matches_iff, hMatch, hFresh, exists_eq_left]

end Plain

end Text
