import Mathlib.Tactic.Linarith

/-! Hexadecimal numerals of a fixed width: lower-case digits, the most
significant one first, with leading zeros. -/
namespace Text

/-- The numeral of the last digits of a number, as many as the width. -/
def hexDigits : Nat → Nat → List Char
  | 0, _ => []
  | width + 1, n => hexDigits width (n / 16) ++ [Nat.digitChar (n % 16)]

/-- The value of a digit. -/
def hexDigitValue (c : Char) : Nat := if c ≤ '9' then c.toNat - '0'.toNat else c.toNat - 'a'.toNat + 10

def hexValue (digits : List Char) : Nat := digits.foldl (fun value c => 16 * value + hexDigitValue c) 0

/-- A digit, or a letter from `a` to `f`. -/
def IsHexDigit (c : Char) : Prop := ('0' ≤ c ∧ c ≤ '9') ∨ ('a' ≤ c ∧ c ≤ 'f')

instance : DecidablePred IsHexDigit := fun c =>
  inferInstanceAs (Decidable (('0' ≤ c ∧ c ≤ '9') ∨ ('a' ≤ c ∧ c ≤ 'f')))

theorem hexDigitValue_digitChar {d : Nat} (hd : d < 16) : hexDigitValue (Nat.digitChar d) = d := by
  revert d
  decide

theorem isHexDigit_digitChar {d : Nat} (hd : d < 16) : IsHexDigit (Nat.digitChar d) := by
  revert d
  unfold IsHexDigit
  decide

@[simp] theorem length_hexDigits (width n : Nat) : (hexDigits width n).length = width := by
  induction width generalizing n with
  | zero => rfl
  | succ width ih => rw [hexDigits, List.length_append, ih, List.length_singleton]

theorem isHexDigit_of_mem {width n : Nat} {c : Char} (h : c ∈ hexDigits width n) : IsHexDigit c := by
  induction width generalizing n with
  | zero => cases h
  | succ width ih =>
      rw [hexDigits, List.mem_append, List.mem_singleton] at h
      rcases h with hFront | rfl
      · exact ih hFront
      · exact isHexDigit_digitChar (Nat.mod_lt n (by decide))

/-- A number that fits the width is read back from its numeral. -/
theorem hexValue_hexDigits {width n : Nat} (h : n < 16 ^ width) : hexValue (hexDigits width n) = n := by
  induction width generalizing n with
  | zero => exact (Nat.lt_one_iff.mp h).symm
  | succ width ih =>
      have hFront : n / 16 < 16 ^ width := Nat.div_lt_of_lt_mul (by rwa [Nat.pow_succ'] at h)
      have hValue := ih hFront
      unfold hexValue at hValue ⊢
      rw [hexDigits, List.foldl_append, hValue, List.foldl_cons, List.foldl_nil,
        hexDigitValue_digitChar (Nat.mod_lt n (by decide))]
      exact Nat.div_add_mod n 16

theorem hexDigits_inj {width m n : Nat} (hm : m < 16 ^ width) (hn : n < 16 ^ width) :
    hexDigits width m = hexDigits width n ↔ m = n := by
  constructor
  · intro h
    rw [← hexValue_hexDigits hm, h, hexValue_hexDigits hn]
  · intro h
    rw [h]

end Text
