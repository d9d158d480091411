import Mathlib.Tactic.SplitIfs
import ServicePlatform.Kernel.MaskedValues
import ServicePlatform.Text.Json

/-! Log lines read back. What a reader sees of a value is the value itself, with a
list for a tuple, as long as floats are written as numbers are. -/
namespace ServicePlatform

open Storage Text

namespace LogValue

mutual

/-- Floats have the text of a number, or one of the names for those that are none. -/
def FloatsWritten : LogValue → Prop
  | none | bool _ | int _ | str _ => True
  | float text => text.toList ≠ [] ∧ ∀ c ∈ text.toList, isWordChar c = true
  | list items => ItemFloatsWritten items
  | tuple items => ItemFloatsWritten items
  | dict items => MemberFloatsWritten items

def ItemFloatsWritten : List LogValue → Prop
  | [] => True
  | value :: rest => value.FloatsWritten ∧ ItemFloatsWritten rest

def MemberFloatsWritten : List (String × LogValue) → Prop
  | [] => True
  | (_, value) :: rest => value.FloatsWritten ∧ MemberFloatsWritten rest

end

mutual

/-- A value as a reader of JSON sees it. -/
def json : LogValue → Json
  | none => .null
  | bool b => .bool b
  | int n => readWord (toString n).toList
  | float text => readWord text.toList
  | str text => .str text
  | list items => .arr (itemJsons items)
  | tuple items => .arr (itemJsons items)
  | dict items => .obj (memberJsons items)

def itemJsons : List LogValue → List Json
  | [] => []
  | value :: rest => value.json :: itemJsons rest

def memberJsons : List (String × LogValue) → List (String × Json)
  | [] => []
  | (key, value) :: rest => (key, value.json) :: memberJsons rest

end

theorem memberFloatsWritten_iff {members : List (String × LogValue)} :
    MemberFloatsWritten members ↔ ∀ member ∈ members, member.2.FloatsWritten := by
  induction members with
  | nil => exact iff_of_true trivial fun _ h => absurd h List.not_mem_nil
  | cons member members ih => rw [MemberFloatsWritten, ih, List.forall_mem_cons]

theorem memberJsons_eq_map (members : List (String × LogValue)) :
    memberJsons members = members.map fun member => (member.1, member.2.json) := by
  induction members with
  | nil => rfl
  | cons member members ih => rw [memberJsons, ih, List.map_cons]

mutual

/-- The mask leaves floats as they are. -/
theorem floatsWritten_mask : (value : LogValue) → value.FloatsWritten → value.mask.FloatsWritten
  | none, _ | bool _, _ | int _, _ | str _, _ => trivial
  | float _, h => h
  | tuple _, h => h
  | list items, h => itemFloatsWritten_mask items h
  | dict items, h => memberFloatsWritten_mask items h

theorem itemFloatsWritten_mask : (items : List LogValue) → ItemFloatsWritten items → ItemFloatsWritten (maskItems items)
  | [], _ => trivial
  | value :: rest, h => ⟨floatsWritten_mask value h.1, itemFloatsWritten_mask rest h.2⟩

theorem memberFloatsWritten_mask : (members : List (String × LogValue)) → MemberFloatsWritten members →
    MemberFloatsWritten (maskMembers members)
  | [], _ => trivial
  | (key, value) :: rest, h => by
      rw [maskMembers, MemberFloatsWritten]
      refine ⟨?_, memberFloatsWritten_mask rest h.2⟩
      split
      · trivial
      · exact floatsWritten_mask value h.1

end

theorem readWord_ne_str (word : List Char) (text : String) : readWord word ≠ .str text := by
  unfold readWord
  split
  · nofun
  · split
    · nofun
    · split <;> nofun

/-- Only a string is read as a string. -/
theorem json_eq_str_iff {value : LogValue} {text : String} : value.json = .str text ↔ value = .str text := by
  cases value <;> simp [json, readWord_ne_str]

end LogValue

/-- One character of a string is read back. -/
theorem readString_jsonEscape {rest : List Char} (c : Char) :
    readString (LogValue.jsonEscape c ++ rest) = (readString rest).map fun read => (c :: read.1, read.2) := by
  unfold LogValue.jsonEscape
  split_ifs with hQuote hNewline hReturn hTab hBackspace hFeed hControl
  · rcases hQuote with rfl | rfl <;> exact readString_letter (by decide) rfl
  · exact hNewline ▸ readString_letter (by decide) rfl
  · exact hReturn ▸ readString_letter (by decide) rfl
  · exact hTab ▸ readString_letter (by decide) rfl
  · exact hBackspace ▸ readString_letter (by decide) rfl
  · exact hFeed ▸ readString_letter (by decide) rfl
  · rw [List.cons_append, List.cons_append, readString_code (by omega), Char.ofNat_toNat]
  · rw [not_or] at hQuote
    exact readString_plain hQuote.1 hQuote.2 hControl

theorem readsString_escaped (text : List Char) : ReadsString (text.flatMap LogValue.jsonEscape) text := by
  intro rest
  induction text with
  | nil => exact readString_quote
  | cons c text ih => rw [List.flatMap_cons, List.append_assoc, readString_jsonEscape, ih, Option.map_some]

namespace LogValue

theorem isWordChar_of_isDigit {c : Char} (h : c.isDigit = true) : isWordChar c = true := by
  simp [isWordChar, Char.isAlphanum, h]

theorem isWordChar_of_mem_int {n : Int} {c : Char} (h : c ∈ (toString n).toList) : isWordChar c = true := by
  have hDigits (m : Nat) (hc : c ∈ m.repr.toList) : isWordChar c = true := by
    rw [Nat.toList_repr] at hc
    exact isWordChar_of_isDigit (Nat.isDigit_of_mem_toDigits (by decide) (by decide) hc)
  rw [Int.toString_eq_repr, Int.repr_eq_if] at h
  split at h
  · exact hDigits _ h
  · rw [String.toList_append, List.mem_append] at h
    rcases h with hMinus | hDigit
    · cases List.mem_singleton.mp hMinus
      rfl
    · exact hDigits _ hDigit

theorem int_ne_nil (n : Int) : (toString n).toList ≠ [] := by
  rw [Int.toString_eq_repr, Int.repr_eq_if]
  split
  · rw [Nat.toList_repr]
    exact Nat.toDigits_ne_nil
  · simp

mutual

/-- A value is read back from its text. -/
theorem reads_jsonText : (value : LogValue) → value.FloatsWritten → Reads value.jsonText value.json
  | none, _ => reads_word (by decide) (by decide)
  | bool true, _ => reads_word (by decide) (by decide)
  | bool false, _ => reads_word (by decide) (by decide)
  | int n, _ => reads_word (int_ne_nil n) fun _ => isWordChar_of_mem_int
  | float _, h => reads_word h.1 h.2
  | str text, _ => by
      have h := reads_string (readsString_escaped text.toList)
      rwa [String.ofList_toList] at h
  | list items, h => reads_arr (forall₂_itemTexts items h)
  | tuple items, h => reads_arr (forall₂_itemTexts items h)
  | dict items, h => reads_obj (forall₂_memberTexts items h)

theorem forall₂_itemTexts : (items : List LogValue) → ItemFloatsWritten items →
    List.Forall₂ Reads (itemTexts items) (itemJsons items)
  | [], _ => .nil
  | value :: rest, h => .cons (reads_jsonText value h.1) (forall₂_itemTexts rest h.2)

theorem forall₂_memberTexts : (members : List (String × LogValue)) → MemberFloatsWritten members →
    List.Forall₂ ReadsMember (memberTexts members) (memberJsons members)
  | [], _ => .nil
  | (key, value) :: rest, h =>
      .cons ⟨key.toList.flatMap jsonEscape, value.jsonText, by simp [quoted], readsString_escaped key.toList,
        reads_jsonText value h.1⟩ (forall₂_memberTexts rest h.2)

end

/-- What a reader finds under a name in the line of some fields. -/
theorem member_of_line {fields : Dict String LogValue} (h : ∀ field ∈ fields, field.2.FloatsWritten) (name : String) :
    (readJson (dict fields).jsonText).bind (Json.member name) = (Dict.get? fields name).map json := by
  rw [readJson_of_reads (reads_jsonText (dict fields) (memberFloatsWritten_iff.mpr h)), Option.bind_some]
  show ((memberJsons fields).find? fun member => member.1 = name).map Prod.snd = _
  rw [memberJsons_eq_map, List.find?_map, Dict.get?, Option.map_map, Option.map_map]
  rfl

end LogValue

end ServicePlatform
