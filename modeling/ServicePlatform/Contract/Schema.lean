import ServicePlatform.Contract.DateTimeText

/-! The schemas of event payloads, as far as they are used: objects with named
string and integer members. Defaults are annotations, which a validator does not
assert; formats are asserted. -/
namespace ServicePlatform

open Text

/-- Five groups of hexadecimal digits. -/
def IsUuidText (text : List Char) : Prop :=
  ∃ a b c d e : List Char, text = a ++ '-' :: (b ++ '-' :: (c ++ '-' :: (d ++ '-' :: e))) ∧
    [a, b, c, d, e].map List.length = [8, 4, 4, 4, 12] ∧ ∀ digit ∈ a ++ b ++ c ++ d ++ e, IsHexDigit digit

/-- The text of an identifier has 36 characters, and none of them is a NUL. -/
theorem IsUuidText.plain {text : List Char} (h : IsUuidText text) : text.length = 36 ∧ '\x00' ∉ text := by
  obtain ⟨a, b, c, d, e, rfl, hLengths, hDigits⟩ := h
  simp only [List.map_cons, List.map_nil, List.cons.injEq, and_true] at hLengths
  obtain ⟨ha, hb, hc, hd, he⟩ := hLengths
  have hNul : ¬ IsHexDigit '\x00' := by decide
  constructor
  · simp only [List.length_append, List.length_cons, ha, hb, hc, hd, he]
  · intro hMem
    have hDash : '\x00' ≠ '-' := by decide
    simp only [List.mem_append, List.mem_cons, hDash, false_or] at hMem
    refine hNul (hDigits _ ?_)
    simp only [List.mem_append]
    tauto

/-- `str(uuid.UUID(int=n))`. -/
def uuidText (n : Nat) : String :=
  let hex := hexDigits 32 n
  String.ofList (hex.take 8 ++ '-' :: ((hex.drop 8).take 4 ++ '-' :: ((hex.drop 12).take 4 ++ '-' ::
    ((hex.drop 16).take 4 ++ '-' :: hex.drop 20))))

end ServicePlatform
