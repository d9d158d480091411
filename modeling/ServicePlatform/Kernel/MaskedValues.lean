import ServicePlatform.Kernel.Logging
import ServicePlatform.Text.Fields

/-! What the mask hides inside a value. Two values that differ only under
sensitive keys look the same after the mask unless one of these keys is below a
tuple, where nothing is masked. There a longer secret makes a longer text. -/
namespace ServicePlatform

open Storage Text

mutual

/-- Two values that differ in nothing but filled values under sensitive keys. -/
inductive SameValue : LogValue → LogValue → Prop
  | refl (value : LogValue) : SameValue value value
  | list {items others : List LogValue} (hItems : SameItems items others) : SameValue (.list items) (.list others)
  | tuple {items others : List LogValue} (hItems : SameItems items others) : SameValue (.tuple items) (.tuple others)
  | dict {items others : List (String × LogValue)} (hItems : SameMembers items others) :
      SameValue (.dict items) (.dict others)

inductive SameItems : List LogValue → List LogValue → Prop
  | nil : SameItems [] []
  | cons {value other : LogValue} {rest others : List LogValue} (hHead : SameValue value other)
      (hRest : SameItems rest others) : SameItems (value :: rest) (other :: others)

inductive SameMembers : List (String × LogValue) → List (String × LogValue) → Prop
  | nil : SameMembers [] []
  | same (key : String) {value other : LogValue} {rest others : List (String × LogValue)}
      (hHead : SameValue value other) (hRest : SameMembers rest others) :
      SameMembers ((key, value) :: rest) ((key, other) :: others)
  | secret {key : String} {value other : LogValue} {rest others : List (String × LogValue)}
      (hKey : SensitiveKey key) (hValue : value.Filled) (hOther : other.Filled) (hRest : SameMembers rest others) :
      SameMembers ((key, value) :: rest) ((key, other) :: others)

end

namespace LogValue

mutual

/-- A value shows a secret: some filled value under a sensitive key is not
masked. With the flag, the mask goes through the value down to its tuples. -/
def Exposes (masked : Bool) : LogValue → Prop
  | none | bool _ | int _ | float _ | str _ => False
  | list items => ItemsExpose masked items
  | tuple items => ItemsExpose false items
  | dict items => MembersExpose masked items

def ItemsExpose (masked : Bool) : List LogValue → Prop
  | [] => False
  | value :: rest => value.Exposes masked ∨ ItemsExpose masked rest

def MembersExpose (masked : Bool) : List (String × LogValue) → Prop
  | [] => False
  | (key, value) :: rest =>
      (if SensitiveKey key then masked = false ∧ value.Filled else value.Exposes masked) ∨ MembersExpose masked rest

end

/-- What the encoder gets to see of a value. -/
def shown (masked : Bool) (value : LogValue) : LogValue := if masked then value.mask else value

def shownItems (masked : Bool) (items : List LogValue) : List LogValue := if masked then maskItems items else items

def shownMembers (masked : Bool) (items : List (String × LogValue)) : List (String × LogValue) :=
  if masked then maskMembers items else items

def shownMember (masked : Bool) (key : String) (value : LogValue) : LogValue :=
  if masked = true ∧ SensitiveKey key then str "***" else value.shown masked

section Shown

variable {masked : Bool} {key : String} {value other : LogValue} {items rest : List LogValue}
  {members : List (String × LogValue)}

@[simp] theorem shown_list : (list items).shown masked = list (shownItems masked items) := by
  cases masked <;> rfl

@[simp] theorem shown_tuple : (tuple items).shown masked = tuple (shownItems false items) := by
  cases masked <;> rfl

@[simp] theorem shown_dict : (dict members).shown masked = dict (shownMembers masked members) := by
  cases masked <;> rfl

@[simp] theorem shownItems_cons :
    shownItems masked (value :: rest) = value.shown masked :: shownItems masked rest := by
  cases masked <;> rfl

@[simp] theorem shownMembers_cons : shownMembers masked ((key, value) :: members) =
    (key, shownMember masked key value) :: shownMembers masked members := by
  cases masked with
  | false => simp [shownMembers, shownMember, shown]
  | true => simp [shownMembers, shownMember, shown, maskMembers]

theorem shownMember_secret (hKey : SensitiveKey key) : shownMember true key value = str "***" :=
  if_pos ⟨rfl, hKey⟩

theorem shownMember_plain (hKey : ¬ SensitiveKey key) : shownMember masked key value = value.shown masked :=
  if_neg fun h => hKey h.2

theorem shownMember_unmasked : shownMember false key value = value :=
  if_neg fun h => Bool.noConfusion h.1

end Shown

theorem membersExpose_cons_secret {masked : Bool} {key : String} {value : LogValue}
    {rest : List (String × LogValue)} (hKey : SensitiveKey key) :
    MembersExpose masked ((key, value) :: rest) ↔ (masked = false ∧ value.Filled) ∨ MembersExpose masked rest := by
  rw [MembersExpose, if_pos hKey]

end LogValue

open LogValue

theorem SameValue.eq_of_not_filled {value other : LogValue} (h : SameValue value other) (hEmpty : ¬ value.Filled) :
    value = other := by
  cases h with
  | refl => rfl
  | list hItems => exact absurd trivial hEmpty
  | tuple hItems => exact absurd trivial hEmpty
  | dict hItems => exact absurd trivial hEmpty

theorem SameValue.filled_iff {value other : LogValue} (h : SameValue value other) :
    value.Filled ↔ other.Filled := by
  cases h with
  | refl => exact Iff.rfl
  | list hItems => exact Iff.rfl
  | tuple hItems => exact Iff.rfl
  | dict hItems => exact Iff.rfl

/-- Under a key, values that agree are shown alike unless the member is exposed. -/
theorem shownMember_eq {masked : Bool} {key : String} {value other : LogValue} (h : SameValue value other)
    (hPlain : ¬ SensitiveKey key → value.shown masked = other.shown masked)
    (hSecret : SensitiveKey key → ¬ (masked = false ∧ value.Filled)) :
    shownMember masked key value = shownMember masked key other := by
  by_cases hKey : SensitiveKey key
  · cases masked with
    | true => rw [shownMember_secret hKey, shownMember_secret hKey]
    | false => rw [h.eq_of_not_filled fun hFilled => hSecret hKey ⟨rfl, hFilled⟩]
  · rw [shownMember_plain hKey, shownMember_plain hKey, hPlain hKey]

mutual

/-- Values that differ in secrets only are shown alike when none of these is exposed. -/
theorem SameValue.shown_eq {value other : LogValue} (h : SameValue value other) (masked : Bool)
    (hHidden : ¬ value.Exposes masked) : value.shown masked = other.shown masked := by
  cases h with
  | refl => rfl
  | list hItems =>
      rw [Exposes] at hHidden
      rw [shown_list, shown_list, SameItems.shown_eq hItems masked hHidden]
  | tuple hItems =>
      rw [Exposes] at hHidden
      rw [shown_tuple, shown_tuple, SameItems.shown_eq hItems false hHidden]
  | dict hItems =>
      rw [Exposes] at hHidden
      rw [shown_dict, shown_dict, SameMembers.shown_eq hItems masked hHidden]

theorem SameItems.shown_eq {items others : List LogValue} (h : SameItems items others) (masked : Bool)
    (hHidden : ¬ ItemsExpose masked items) : shownItems masked items = shownItems masked others := by
  cases h with
  | nil => rfl
  | cons hHead hRest =>
      rw [ItemsExpose, not_or] at hHidden
      rw [shownItems_cons, shownItems_cons, SameValue.shown_eq hHead masked hHidden.1,
        SameItems.shown_eq hRest masked hHidden.2]

theorem SameMembers.shown_eq {items others : List (String × LogValue)} (h : SameMembers items others)
    (masked : Bool) (hHidden : ¬ MembersExpose masked items) :
    shownMembers masked items = shownMembers masked others := by
  cases h with
  | nil => rfl
  | same key hHead hRest =>
      rw [MembersExpose, not_or] at hHidden
      rw [shownMembers_cons, shownMembers_cons, SameMembers.shown_eq hRest masked hHidden.2]
      rw [shownMember_eq hHead fun hKey => SameValue.shown_eq hHead masked (by simpa [hKey] using hHidden.1)]
      intro hKey
      simpa only [if_pos hKey] using hHidden.1
  | secret hKey hValue hOther hRest =>
      rw [membersExpose_cons_secret hKey, not_or] at hHidden
      have hMasked : masked = true := by
        cases masked with
        | true => rfl
        | false => exact absurd ⟨rfl, hValue⟩ hHidden.1
      subst hMasked
      rw [shownMembers_cons, shownMembers_cons, shownMember_secret hKey, shownMember_secret hKey,
        SameMembers.shown_eq hRest true hHidden.2]

end

mutual

/-- The mask goes as deep into one value as into the other. -/
theorem SameValue.maskable_eq {value other : LogValue} (h : SameValue value other) (calls : Nat) :
    value.maskable calls = other.maskable calls := by
  cases h with
  | refl => rfl
  | list hItems =>
      rw [maskable, maskable]
      exact SameItems.maskable_eq hItems calls
  | tuple hItems => rfl
  | dict hItems =>
      rw [maskable, maskable]
      exact SameMembers.maskable_eq hItems calls

theorem SameItems.maskable_eq {items others : List LogValue} (h : SameItems items others) (calls : Nat) :
    itemsMaskable calls items = itemsMaskable calls others := by
  cases h with
  | nil => rfl
  | cons hHead hRest =>
      rw [itemsMaskable, itemsMaskable, SameValue.maskable_eq hHead, SameItems.maskable_eq hRest]

theorem SameMembers.maskable_eq {items others : List (String × LogValue)} (h : SameMembers items others)
    (calls : Nat) : membersMaskable calls items = membersMaskable calls others := by
  cases h with
  | nil => rfl
  | same key hHead hRest =>
      rw [membersMaskable, membersMaskable, SameValue.maskable_eq hHead, SameMembers.maskable_eq hRest]
  | secret hKey hValue hOther hRest =>
      rw [membersMaskable, membersMaskable, decide_eq_true hKey, SameMembers.maskable_eq hRest]
      rfl

end

mutual

/-- What the encoder needs for a masked value it needs for the value without what
the mask replaces. -/
theorem encodable_mask (intDigits : Nat) (value : LogValue) (containers : Nat) :
    value.mask.encodable intDigits false containers = value.encodable intDigits true containers := by
  cases value with
  | none => rfl
  | bool b => rfl
  | int n => rfl
  | float text => rfl
  | str text => rfl
  | list items => rw [mask, encodable, encodable, encodable_maskItems intDigits items]
  | tuple items => rfl
  | dict items => rw [mask, encodable, encodable, encodable_maskMembers intDigits items]

theorem encodable_maskItems (intDigits : Nat) (items : List LogValue) (containers : Nat) :
    itemsEncodable intDigits false containers (maskItems items) = itemsEncodable intDigits true containers items := by
  cases items with
  | nil => rfl
  | cons value rest =>
      rw [maskItems, itemsEncodable, itemsEncodable, encodable_mask intDigits value,
        encodable_maskItems intDigits rest]

theorem encodable_maskMembers (intDigits : Nat) (items : List (String × LogValue)) (containers : Nat) :
    membersEncodable intDigits false containers (maskMembers items) =
      membersEncodable intDigits true containers items := by
  cases items with
  | nil => rfl
  | cons member rest =>
      obtain ⟨key, value⟩ := member
      rw [maskMembers, membersEncodable, membersEncodable, encodable_maskMembers intDigits rest]
      by_cases hKey : SensitiveKey key
      · simp [hKey, encodable]
      · simp [hKey, encodable_mask intDigits value]

end

theorem length_lt_quoted (text : String) : text.toList.length < (quoted text).length := by
  have hEscape : ∀ c, 1 ≤ (jsonEscape c).length := by
    intro c
    unfold jsonEscape
    repeat' split
    all_goals simp
  have hText : text.toList.length ≤ (text.toList.flatMap jsonEscape).length := by
    induction text.toList with
    | nil => exact Nat.le_refl _
    | cons c rest ih =>
        have hHead := hEscape c
        rw [List.flatMap_cons, List.length_append, List.length_cons]
        omega
  rw [quoted, List.length_append, List.length_cons]
  omega

/-- Some text is written longer than a value. -/
theorem exists_longer_str (value : LogValue) :
    ∃ text : String, text ≠ "" ∧ value.jsonText.length < (str text).jsonText.length := by
  have hLong := length_lt_quoted (String.ofList (List.replicate (value.jsonText.length + 1) 'x'))
  rw [String.toList_ofList, List.length_replicate] at hLong
  refine ⟨String.ofList (List.replicate (value.jsonText.length + 1) 'x'), ?_, ?_⟩
  · intro hEmpty
    have hNil := congrArg String.toList hEmpty
    rw [String.toList_ofList, List.replicate_succ] at hNil
    cases hNil
  · rw [jsonText]
    omega

/-- Two lists of texts, of which the second is joined to the longer one. -/
def Longer (texts others : List (List Char)) : Prop :=
  texts.length = others.length ∧ textsLength texts < textsLength others

theorem longer_head {text other : List Char} (h : text.length < other.length) (texts : List (List Char)) :
    Longer (text :: texts) (other :: texts) := by
  refine ⟨rfl, ?_⟩
  simp only [textsLength, List.map_cons, List.sum_cons]
  omega

theorem longer_tail {texts others : List (List Char)} (h : Longer texts others) (text : List Char) :
    Longer (text :: texts) (text :: others) := by
  refine ⟨congrArg Nat.succ h.1, ?_⟩
  have hTexts := h.2
  simp only [textsLength, List.map_cons, List.sum_cons] at hTexts ⊢
  omega

theorem length_bracketed_lt {texts others : List (List Char)} (h : Longer texts others) (first last : Char) :
    (first :: List.intercalate ", ".toList texts ++ [last]).length <
      (first :: List.intercalate ", ".toList others ++ [last]).length := by
  have hJoined := length_intercalate_lt ", ".toList h.1 h.2
  simp only [List.length_append, List.length_cons]
  omega

theorem sameItems_refl (items : List LogValue) : SameItems items items := by
  cases items with
  | nil => exact .nil
  | cons value rest => exact .cons (.refl value) (sameItems_refl rest)

theorem sameMembers_refl (items : List (String × LogValue)) : SameMembers items items := by
  cases items with
  | nil => exact .nil
  | cons member rest => exact .same member.1 (.refl member.2) (sameMembers_refl rest)

mutual

/-- A value that shows a secret is written longer with a longer secret. -/
theorem exists_longer (masked : Bool) (value : LogValue) (h : value.Exposes masked) :
    ∃ other, SameValue value other ∧
      (value.shown masked).jsonText.length < (other.shown masked).jsonText.length := by
  cases value with
  | none => simp [Exposes] at h
  | bool b => simp [Exposes] at h
  | int n => simp [Exposes] at h
  | float text => simp [Exposes] at h
  | str text => simp [Exposes] at h
  | list items =>
      rw [Exposes] at h
      obtain ⟨others, hSame, hLonger⟩ := exists_longer_items masked items h
      refine ⟨.list others, .list hSame, ?_⟩
      rw [shown_list, shown_list, jsonText, jsonText]
      exact length_bracketed_lt hLonger '[' ']'
  | tuple items =>
      rw [Exposes] at h
      obtain ⟨others, hSame, hLonger⟩ := exists_longer_items false items h
      refine ⟨.tuple others, .tuple hSame, ?_⟩
      rw [shown_tuple, shown_tuple, jsonText, jsonText]
      exact length_bracketed_lt hLonger '[' ']'
  | dict items =>
      rw [Exposes] at h
      obtain ⟨others, hSame, hLonger⟩ := exists_longer_members masked items h
      refine ⟨.dict others, .dict hSame, ?_⟩
      rw [shown_dict, shown_dict, jsonText, jsonText]
      exact length_bracketed_lt hLonger '\x7b' '\x7d'

theorem exists_longer_items (masked : Bool) (items : List LogValue) (h : ItemsExpose masked items) :
    ∃ others, SameItems items others ∧
      Longer (itemTexts (shownItems masked items)) (itemTexts (shownItems masked others)) := by
  cases items with
  | nil => simp [ItemsExpose] at h
  | cons value rest =>
      rw [ItemsExpose] at h
      rcases h with hHead | hRest
      · obtain ⟨other, hSame, hLonger⟩ := exists_longer masked value hHead
        refine ⟨other :: rest, .cons hSame (sameItems_refl rest), ?_⟩
        rw [shownItems_cons, shownItems_cons, itemTexts, itemTexts]
        exact longer_head hLonger _
      · obtain ⟨others, hSame, hLonger⟩ := exists_longer_items masked rest hRest
        refine ⟨value :: others, .cons (.refl value) hSame, ?_⟩
        rw [shownItems_cons, shownItems_cons, itemTexts, itemTexts]
        exact longer_tail hLonger _

theorem exists_longer_members (masked : Bool) (items : List (String × LogValue)) (h : MembersExpose masked items) :
    ∃ others, SameMembers items others ∧
      Longer (memberTexts (shownMembers masked items)) (memberTexts (shownMembers masked others)) := by
  cases items with
  | nil => simp [MembersExpose] at h
  | cons member rest =>
      obtain ⟨key, value⟩ := member
      rw [MembersExpose] at h
      rcases h with hHead | hRest
      · have hMember : ∃ other, SameMembers ((key, value) :: rest) ((key, other) :: rest) ∧
            (shownMember masked key value).jsonText.length < (shownMember masked key other).jsonText.length := by
          by_cases hKey : SensitiveKey key
          · obtain ⟨rfl, hFilled⟩ := (by simpa only [if_pos hKey] using hHead : masked = false ∧ value.Filled)
            obtain ⟨text, hText, hLonger⟩ := exists_longer_str value
            refine ⟨.str text, .secret hKey hFilled hText (sameMembers_refl rest), ?_⟩
            rwa [shownMember_unmasked, shownMember_unmasked]
          · rw [if_neg hKey] at hHead
            obtain ⟨other, hSame, hLonger⟩ := exists_longer masked value hHead
            refine ⟨other, .same key hSame (sameMembers_refl rest), ?_⟩
            rwa [shownMember_plain hKey, shownMember_plain hKey]
        obtain ⟨other, hSame, hLonger⟩ := hMember
        refine ⟨(key, other) :: rest, hSame, ?_⟩
        rw [shownMembers_cons, shownMembers_cons, memberTexts, memberTexts]
        apply longer_head
        simp only [List.length_append]
        omega
      · obtain ⟨others, hSame, hLonger⟩ := exists_longer_members masked rest hRest
        refine ⟨(key, value) :: others, .same key (.refl value) hSame, ?_⟩
        rw [shownMembers_cons, shownMembers_cons, memberTexts, memberTexts]
        exact longer_tail hLonger _

end

end ServicePlatform
