import Mathlib.Algebra.BigOperators.Group.List.Basic
import Mathlib.Algebra.GroupWithZero.Nat
import Mathlib.Data.List.Find
import Mathlib.Data.List.Nodup

/-! Dictionaries that keep the order in which their keys came, and counters
built on them. -/
namespace Storage

abbrev Dict (Key Value : Type*) := List (Key × Value)

namespace Dict

variable {Key Value : Type*} [DecidableEq Key]

/-- Assignment replaces the value of a present key at its old position. -/
def setItem : Dict Key Value → Key → Value → Dict Key Value
  | [], key, value => [(key, value)]
  | entry :: rest, key, value =>
      if entry.1 = key then (key, value) :: rest else entry :: setItem rest key value

/-- The value of a key, or the default. -/
def getD : Dict Key Value → Key → Value → Value
  | [], _, default => default
  | entry :: rest, key, default => if entry.1 = key then entry.2 else getD rest key default

variable {d : Dict Key Value} {key other : Key} {value default : Value}

theorem getD_setItem_self : getD (setItem d key value) key default = value := by
  induction d with
  | nil => exact if_pos rfl
  | cons entry d ih =>
      rw [setItem]
      split
      · exact if_pos rfl
      · next hNe => rw [getD, if_neg hNe, ih]

theorem getD_setItem_of_ne (h : key ≠ other) :
    getD (setItem d key value) other default = getD d other default := by
  induction d with
  | nil => exact if_neg h
  | cons entry d ih =>
      rw [setItem]
      split
      · next hSame =>
          rw [getD, getD, if_neg h, if_neg (hSame ▸ h)]
      · rw [getD, getD, ih]

/-- A new key goes to the end. -/
theorem setItem_fresh (h : key ∉ d.map Prod.fst) : setItem d key value = d ++ [(key, value)] := by
  induction d with
  | nil => rfl
  | cons entry d ih =>
      obtain ⟨hNe, hRest⟩ := not_or.mp (fun hKey => h (List.mem_cons.mpr hKey))
      rw [setItem, if_neg (Ne.symm hNe), ih hRest]
      rfl

theorem keys_setItem : (setItem d key value).map Prod.fst =
    if key ∈ d.map Prod.fst then d.map Prod.fst else d.map Prod.fst ++ [key] := by
  induction d with
  | nil => rfl
  | cons entry d ih =>
      by_cases hSame : entry.1 = key
      · simp [setItem, hSame]
      · have hOther : key ≠ entry.1 := Ne.symm hSame
        simp only [setItem, if_neg hSame, List.map_cons, ih, List.mem_cons, hOther, false_or]
        split <;> rfl

theorem nodup_setItem (h : (d.map Prod.fst).Nodup) : ((setItem d key value).map Prod.fst).Nodup := by
  rw [keys_setItem]
  split
  · exact h
  · next hFresh => exact List.Nodup.append h (List.nodup_singleton _) (by simpa using hFresh)

theorem mem_setItem_iff {entry : Key × Value} (h : (d.map Prod.fst).Nodup) :
    entry ∈ setItem d key value ↔ entry = (key, value) ∨ entry ∈ d ∧ entry.1 ≠ key := by
  induction d with
  | nil => simp [setItem]
  | cons first d ih =>
      rw [List.map_cons, List.nodup_cons] at h
      rw [setItem]
      split
      · next hSame =>
          have hLater : entry ∈ d → entry.1 ≠ key := fun hEntry hKey =>
            h.1 (hSame ▸ hKey ▸ List.mem_map_of_mem hEntry)
          rw [List.mem_cons, List.mem_cons]
          constructor
          · rintro (rfl | hEntry)
            · exact Or.inl rfl
            · exact Or.inr ⟨Or.inr hEntry, hLater hEntry⟩
          · rintro (rfl | ⟨rfl | hEntry, hKey⟩)
            · exact Or.inl rfl
            · exact absurd hSame hKey
            · exact Or.inr hEntry
      · next hOther =>
          rw [List.mem_cons, List.mem_cons, ih h.2]
          constructor
          · rintro (rfl | rfl | ⟨hEntry, hKey⟩)
            · exact Or.inr ⟨Or.inl rfl, hOther⟩
            · exact Or.inl rfl
            · exact Or.inr ⟨Or.inr hEntry, hKey⟩
          · rintro (rfl | ⟨rfl | hEntry, hKey⟩)
            · exact Or.inr (Or.inl rfl)
            · exact Or.inl rfl
            · exact Or.inr (Or.inr ⟨hEntry, hKey⟩)

theorem getD_of_mem (h : (d.map Prod.fst).Nodup) (hEntry : (key, value) ∈ d) : getD d key default = value := by
  induction d with
  | nil => cases hEntry
  | cons first d ih =>
      rw [List.map_cons, List.nodup_cons] at h
      rcases List.mem_cons.mp hEntry with rfl | hLater
      · exact if_pos rfl
      · rw [getD, if_neg, ih h.2 hLater]
        rintro rfl
        exact h.1 (List.mem_map.mpr ⟨_, hLater, rfl⟩)

/-- A dictionary is given by its keys and what they map to. -/
theorem map_eq_map_getD {Image : Type*} (f : Key × Value → Image) (h : (d.map Prod.fst).Nodup) (default : Value) :
    d.map f = (d.map Prod.fst).map fun key => f (key, getD d key default) := by
  rw [List.map_map]
  apply List.map_congr_left
  intro entry hEntry
  rw [Function.comp_apply, getD_of_mem h hEntry]

/-- Two dictionaries with the same keys, whose values are related key by key. -/
def Related (r : Key → Value → Value → Prop) (default : Value) (d e : Dict Key Value) : Prop :=
  d.map Prod.fst = e.map Prod.fst ∧ ∀ key, r key (getD d key default) (getD e key default)

theorem related_setItem {r : Key → Value → Value → Prop} {e : Dict Key Value} {other : Value}
    (hKeys : d.map Prod.fst = e.map Prod.fst)
    (hOthers : ∀ key', key ≠ key' → r key' (getD d key' default) (getD e key' default)) (hValue : r key value other) :
    Related r default (setItem d key value) (setItem e key other) := by
  refine ⟨?_, fun key' => ?_⟩
  · rw [keys_setItem, keys_setItem, hKeys]
  · by_cases hKey : key = key'
    · subst hKey
      rwa [getD_setItem_self, getD_setItem_self]
    · rw [getD_setItem_of_ne hKey, getD_setItem_of_ne hKey]
      exact hOthers key' hKey

/-- A key without a property does not change the entries that have it. -/
theorem filter_setItem {p : Key → Prop} [DecidablePred p] (h : ¬ p key) :
    (setItem d key value).filter (fun entry => p entry.1) = d.filter fun entry => p entry.1 := by
  induction d with
  | nil => simp [setItem, h]
  | cons entry d ih =>
      rw [setItem]
      split
      · next hSame =>
          have hEntry : ¬ p entry.1 := hSame ▸ h
          simp [h, hEntry]
      · rw [List.filter_cons, List.filter_cons, ih]

/-- A key with a property is set among the entries that have it. -/
theorem filter_setItem_of {p : Key → Prop} [DecidablePred p] (h : p key) :
    (setItem d key value).filter (fun entry => p entry.1) =
      setItem (d.filter fun entry => p entry.1) key value := by
  induction d with
  | nil => simp [setItem, h]
  | cons entry d ih =>
      by_cases hSame : entry.1 = key
      · have hEntry : p entry.1 := hSame ▸ h
        simp [setItem, hSame, h]
      · by_cases hEntry : p entry.1
        · simp [setItem, hSame, hEntry, ih]
        · simp [setItem, hSame, hEntry, ih]

/-- Entries with new keys are added in their order. -/
theorem foldl_setItem {Entry : Type*} {entries : List Entry} (name : Entry → Key) (content : Entry → Value)
    (hNodup : (entries.map name).Nodup) (hFresh : ∀ entry ∈ entries, name entry ∉ d.map Prod.fst) :
    entries.foldl (fun d entry => setItem d (name entry) (content entry)) d =
      d ++ entries.map fun entry => (name entry, content entry) := by
  induction entries generalizing d with
  | nil => exact (List.append_nil d).symm
  | cons entry entries ih =>
      rw [List.map_cons, List.nodup_cons] at hNodup
      have hRest : ∀ other ∈ entries, name other ∉ (d ++ [(name entry, content entry)]).map Prod.fst := by
        intro other hOther hMem
        rw [List.map_append, List.mem_append] at hMem
        rcases hMem with hOld | hNew
        · exact hFresh other (List.mem_cons_of_mem _ hOther) hOld
        · have hSame : name other = name entry := List.mem_singleton.mp hNew
          exact hNodup.1 (hSame ▸ List.mem_map_of_mem hOther)
      rw [List.foldl_cons, setItem_fresh (hFresh entry List.mem_cons_self), ih hNodup.2 hRest, List.append_assoc]
      rfl

/-- The sum of the values depends on a value that is set by that value alone. -/
theorem sum_setItem [AddCommMonoid Value] (d : Dict Key Value) (key : Key) :
    ∃ others, ∀ value, ((setItem d key value).map Prod.snd).sum = others + value := by
  induction d with
  | nil => exact ⟨0, fun value => by simp [setItem]⟩
  | cons entry d ih =>
      by_cases hSame : entry.1 = key
      · refine ⟨(d.map Prod.snd).sum, fun value => ?_⟩
        rw [setItem, if_pos hSame, List.map_cons, List.sum_cons, add_comm]
      · obtain ⟨others, hOthers⟩ := ih
        refine ⟨entry.2 + others, fun value => ?_⟩
        rw [setItem, if_neg hSame, List.map_cons, List.sum_cons, hOthers, add_assoc]

section Remove

variable {entry : Key × Value}

/-- Removal of a key that may be absent. -/
def pop (d : Dict Key Value) (key : Key) : Dict Key Value := d.filter fun entry => entry.1 ≠ key

/-- The value of a present key is changed where it is. -/
def modify (f : Value → Value) (d : Dict Key Value) (key : Key) : Dict Key Value :=
  d.map fun entry => if entry.1 = key then (entry.1, f entry.2) else entry

/-- The value of a key that may be absent. -/
def get? (d : Dict Key Value) (key : Key) : Option Value := (d.find? fun entry => entry.1 = key).map Prod.snd

theorem mem_pop_iff : entry ∈ pop d key ↔ entry ∈ d ∧ entry.1 ≠ key := by
  simp [pop]

theorem mem_keys_pop_iff : other ∈ (pop d key).map Prod.fst ↔ other ∈ d.map Prod.fst ∧ other ≠ key := by
  simp only [List.mem_map, mem_pop_iff]
  constructor
  · rintro ⟨entry, ⟨hEntry, hKey⟩, rfl⟩
    exact ⟨⟨entry, hEntry, rfl⟩, hKey⟩
  · rintro ⟨⟨entry, hEntry, rfl⟩, hKey⟩
    exact ⟨entry, ⟨hEntry, hKey⟩, rfl⟩

theorem mem_keys_setItem_iff : other ∈ (setItem d key value).map Prod.fst ↔ other ∈ d.map Prod.fst ∨ other = key := by
  rw [keys_setItem]
  split
  · next hKnown =>
      constructor
      · exact Or.inl
      · rintro (hOld | rfl)
        · exact hOld
        · exact hKnown
  · rw [List.mem_append, List.mem_singleton]

omit [DecidableEq Key] in
theorem nodup_filter {p : Key × Value → Bool} (h : (d.map Prod.fst).Nodup) : ((d.filter p).map Prod.fst).Nodup :=
  h.sublist (List.Sublist.map Prod.fst List.filter_sublist)

theorem getD_modify {f : Value → Value} {default : Value} (h : f default = default) :
    getD (modify f d key) other default = if other = key then f (getD d other default) else getD d other default := by
  induction d with
  | nil => simp [modify, getD, h]
  | cons first d ih =>
      rw [modify] at ih ⊢
      rw [List.map_cons]
      by_cases hHere : first.1 = other
      · by_cases hKey : first.1 = key
        · simp [getD, hKey, hHere.symm.trans hKey]
        · simp [getD, hHere, hHere ▸ hKey]
      · by_cases hKey : first.1 = key
        · simp only [hKey, if_true, getD, if_neg (hKey ▸ hHere), ih]
        · simp only [if_neg hKey, getD, if_neg hHere, ih]

theorem get?_setItem_self : get? (setItem d key value) key = some value := by
  induction d with
  | nil => simp [setItem, get?]
  | cons first d ih =>
      rw [setItem]
      split
      · simp [get?]
      · next hNe =>
          rw [get?, List.find?_cons_of_neg (by simpa using hNe)]
          exact ih

theorem get?_setItem_of_ne (h : key ≠ other) : get? (setItem d key value) other = get? d other := by
  induction d with
  | nil => simp [setItem, get?, h]
  | cons first d ih =>
      rw [setItem]
      split
      · next hSame =>
          have hFirst : first.1 ≠ other := hSame ▸ h
          rw [get?, get?, List.find?_cons_of_neg (by simpa using h), List.find?_cons_of_neg (by simpa using hFirst)]
      · by_cases hHere : first.1 = other
        · rw [get?, get?, List.find?_cons_of_pos (by simpa using hHere), List.find?_cons_of_pos (by simpa using hHere)]
        · rw [get?, get?, List.find?_cons_of_neg (by simpa using hHere), List.find?_cons_of_neg (by simpa using hHere)]
          exact ih

theorem get?_pop_of_ne (h : other ≠ key) : get? (pop d key) other = get? d other := by
  rw [get?, get?, pop, List.find?_filter]
  refine congrArg (Option.map Prod.snd) (List.find?_congr fun entry _ => ?_)
  by_cases hEntry : entry.1 = other
  · simp [hEntry, h]
  · simp [hEntry]

end Remove

section Merge

variable {e : Dict Key Value} {entry : Key × Value} {p : Key × Value → Prop} [DecidablePred p]

/-- The entries of another dictionary that qualify are assigned one by one. -/
def merge (p : Key × Value → Prop) [DecidablePred p] (d e : Dict Key Value) : Dict Key Value :=
  e.foldl (fun d entry => if p entry then setItem d entry.1 entry.2 else d) d

theorem get?_cons_self : get? ((key, value) :: d) key = some value := by
  simp [get?]

theorem get?_cons_of_ne (h : entry.1 ≠ key) : get? (entry :: d) key = get? d key := by
  rw [get?, get?, List.find?_cons_of_neg (by simpa using h)]

theorem get?_eq_none (h : key ∉ d.map Prod.fst) : get? d key = none := by
  rw [get?, Option.map_eq_none_iff, List.find?_eq_none]
  intro entry hEntry
  have hKey : entry.1 ≠ key := fun hKey => h (hKey ▸ List.mem_map_of_mem hEntry)
  simpa using hKey

theorem mem_of_get? (h : get? d key = some value) : (key, value) ∈ d := by
  obtain ⟨entry, hFound, rfl⟩ := Option.map_eq_some_iff.mp h
  have hKey : entry.1 = key := by simpa using List.find?_some hFound
  exact hKey ▸ List.mem_of_find?_eq_some hFound

theorem get?_of_mem (h : (d.map Prod.fst).Nodup) (hEntry : entry ∈ d) : get? d entry.1 = some entry.2 := by
  induction d with
  | nil => cases hEntry
  | cons first d ih =>
      rw [List.map_cons, List.nodup_cons] at h
      rcases List.mem_cons.mp hEntry with rfl | hLater
      · exact get?_cons_self
      · rw [get?_cons_of_ne fun hSame => h.1 (hSame ▸ List.mem_map_of_mem hLater)]
        exact ih h.2 hLater

theorem nodup_merge (h : (d.map Prod.fst).Nodup) : ((merge p d e).map Prod.fst).Nodup := by
  induction e generalizing d with
  | nil => exact h
  | cons entry e ih =>
      rw [merge, List.foldl_cons]
      split
      · exact ih (nodup_setItem h)
      · exact ih h

theorem mem_of_mem_merge (h : (d.map Prod.fst).Nodup) (hEntry : entry ∈ merge p d e) :
    entry ∈ d ∨ entry ∈ e ∧ p entry := by
  induction e generalizing d with
  | nil => exact Or.inl hEntry
  | cons first e ih =>
      rw [merge, List.foldl_cons] at hEntry
      split at hEntry
      · next hFirst =>
          rcases ih (nodup_setItem h) hEntry with hSet | hLater
          · rcases (mem_setItem_iff h).mp hSet with rfl | ⟨hOld, -⟩
            · exact Or.inr ⟨List.mem_cons_self, hFirst⟩
            · exact Or.inl hOld
          · exact Or.inr ⟨List.mem_cons_of_mem _ hLater.1, hLater.2⟩
      · exact (ih h hEntry).imp_right fun hLater => ⟨List.mem_cons_of_mem _ hLater.1, hLater.2⟩

theorem mem_merge_of_fresh (h : (d.map Prod.fst).Nodup) (hEntry : entry ∈ d) (hFresh : entry.1 ∉ e.map Prod.fst) :
    entry ∈ merge p d e := by
  induction e generalizing d with
  | nil => exact hEntry
  | cons first e ih =>
      rw [List.map_cons, List.mem_cons, not_or] at hFresh
      rw [merge, List.foldl_cons]
      split
      · exact ih (nodup_setItem h) ((mem_setItem_iff h).mpr (Or.inr ⟨hEntry, hFresh.1⟩)) hFresh.2
      · exact ih h hEntry hFresh.2

theorem mem_merge (h : (d.map Prod.fst).Nodup) (hOther : (e.map Prod.fst).Nodup) (hEntry : entry ∈ e)
    (hQualifies : p entry) : entry ∈ merge p d e := by
  induction e generalizing d with
  | nil => cases hEntry
  | cons first e ih =>
      rw [List.map_cons, List.nodup_cons] at hOther
      rw [merge, List.foldl_cons]
      rcases List.mem_cons.mp hEntry with rfl | hLater
      · rw [if_pos hQualifies]
        exact mem_merge_of_fresh (nodup_setItem h) ((mem_setItem_iff h).mpr (Or.inl rfl)) hOther.1
      · split
        · exact ih (nodup_setItem h) hOther.2 hLater
        · exact ih h hOther.2 hLater

/-- A key has what the other dictionary assigns to it, or else what it had. -/
theorem get?_merge (h : (e.map Prod.fst).Nodup) :
    get? (merge p d e) key = ((get? e key).filter fun value => p (key, value)).or (get? d key) := by
  induction e generalizing d with
  | nil => rfl
  | cons entry e ih =>
      obtain ⟨name, content⟩ := entry
      rw [List.map_cons, List.nodup_cons] at h
      have hMerge : merge p d ((name, content) :: e) =
          merge p (if p (name, content) then setItem d name content else d) e := rfl
      rw [hMerge, ih h.2]
      by_cases hKey : name = key
      · subst hKey
        rw [get?_eq_none h.1, get?_cons_self]
        by_cases hEntry : p (name, content)
        · rw [if_pos hEntry, get?_setItem_self]
          simp [Option.filter_some, hEntry]
        · rw [if_neg hEntry]
          simp [Option.filter_some, hEntry]
      · rw [get?_cons_of_ne hKey]
        split
        · rw [get?_setItem_of_ne hKey]
        · rfl

theorem get?_map {Image : Type*} (f : Key → Value → Image) :
    get? (d.map fun entry => (entry.1, f entry.1 entry.2)) key = (get? d key).map (f key) := by
  induction d with
  | nil => rfl
  | cons first d ih =>
      rw [List.map_cons]
      by_cases hKey : first.1 = key
      · subst hKey
        exact get?_cons_self.trans (congrArg (Option.map (f first.1)) get?_cons_self.symm)
      · rw [get?_cons_of_ne (d := d) hKey, ← ih]
        exact get?_cons_of_ne hKey

end Merge

section Counter

/-- One more for a key. -/
def inc (d : Dict Key Nat) (key : Key) : Dict Key Nat := setItem d key (getD d key 0 + 1)

/-- How often each key comes up. -/
def tally (keys : List Key) : Dict Key Nat := keys.foldl inc []

/-- The counts of the keys with a property, added up. -/
def total (p : Key → Prop) [DecidablePred p] (d : Dict Key Nat) : Nat :=
  (d.map fun entry => if p entry.1 then entry.2 else 0).sum

variable {p : Key → Prop} [DecidablePred p]

theorem total_inc (d : Dict Key Nat) (key : Key) : total p (inc d key) = total p d + if p key then 1 else 0 := by
  unfold inc
  induction d with
  | nil => simp [setItem, getD, total]
  | cons entry d ih =>
      by_cases hSame : entry.1 = key
      · rw [setItem, getD, if_pos hSame, if_pos hSame]
        simp only [total, List.map_cons, List.sum_cons, hSame]
        split <;> omega
      · rw [setItem, getD, if_neg hSame, if_neg hSame]
        simp only [total, List.map_cons, List.sum_cons] at ih ⊢
        omega

omit [DecidableEq Key] in
theorem total_filter (q : Key → Prop) [DecidablePred q] (d : Dict Key Nat) :
    total p (d.filter fun entry => q entry.1) = total (fun key => q key ∧ p key) d := by
  induction d with
  | nil => rfl
  | cons entry d ih =>
      by_cases hEntry : q entry.1
      · rw [List.filter_cons_of_pos (by simpa using hEntry)]
        simp only [total, List.map_cons, List.sum_cons, hEntry, true_and] at ih ⊢
        rw [ih]
      · rw [List.filter_cons_of_neg (by simpa using hEntry), ih]
        simp only [total, List.map_cons, List.sum_cons, hEntry, false_and, if_false, Nat.zero_add]

theorem total_tally (keys : List Key) : total p (tally keys) = keys.countP p := by
  have hFrom : ∀ d : Dict Key Nat, total p (keys.foldl inc d) = total p d + keys.countP p := by
    induction keys with
    | nil => exact fun _ => rfl
    | cons key keys ih =>
        intro d
        rw [List.foldl_cons, ih, total_inc, List.countP_cons]
        simp only [decide_eq_true_eq]
        omega
  rw [tally, hFrom]
  exact Nat.zero_add _

theorem nodup_tally (keys : List Key) : ((tally keys).map Prod.fst).Nodup := by
  have hFrom : ∀ d : Dict Key Nat, (d.map Prod.fst).Nodup → ((keys.foldl inc d).map Prod.fst).Nodup := by
    induction keys with
    | nil => exact fun _ h => h
    | cons key keys ih =>
        intro d hNodup
        exact ih _ (nodup_setItem hNodup)
  exact hFrom [] List.nodup_nil

theorem mem_tally {keys : List Key} : key ∈ (tally keys).map Prod.fst ↔ key ∈ keys := by
  have hFrom : ∀ d : Dict Key Nat,
      key ∈ (keys.foldl inc d).map Prod.fst ↔ key ∈ d.map Prod.fst ∨ key ∈ keys := by
    induction keys with
    | nil => simp
    | cons other keys ih =>
        intro d
        rw [List.foldl_cons, ih, inc, keys_setItem, List.mem_cons]
        split
        · next hKnown =>
            constructor
            · rintro (hOld | hLater)
              · exact Or.inl hOld
              · exact Or.inr (Or.inr hLater)
            · rintro (hOld | rfl | hLater)
              · exact Or.inl hOld
              · exact Or.inl hKnown
              · exact Or.inr hLater
        · rw [List.mem_append, List.mem_singleton, or_assoc]
  rw [tally, hFrom]
  simp

end Counter

section Defaults

/-- A key that is present keeps its value. -/
def setDefault (d : Dict Key Value) (key : Key) (value : Value) : Dict Key Value :=
  match get? d key with
  | some _ => d
  | none => d ++ [(key, value)]

theorem get?_append {e : Dict Key Value} : get? (d ++ e) key = (get? d key).or (get? e key) := by
  rw [get?, get?, get?, List.find?_append]
  cases d.find? fun entry => entry.1 = key with
  | none => rfl
  | some entry => rfl

theorem get?_setDefault : get? (setDefault d key value) other =
    (get? d other).or (if key = other then some value else none) := by
  unfold setDefault
  split
  · next present hPresent =>
      split
      · next hSame =>
          rw [← hSame, hPresent]
          rfl
      · exact (Option.or_none ..).symm
  · rw [get?_append]
    split
    · next hSame => rw [hSame, get?_cons_self]
    · next hOther =>
        rw [get?_cons_of_ne hOther]
        rfl

theorem nodup_setDefault (h : (d.map Prod.fst).Nodup) : ((setDefault d key value).map Prod.fst).Nodup := by
  unfold setDefault
  split
  · exact h
  · next hAbsent =>
      rw [List.map_append, List.map_singleton]
      refine List.nodup_append.mpr ⟨h, List.nodup_singleton _, fun known hKnown fresh hFresh hSame => ?_⟩
      obtain ⟨entry, hEntry, rfl⟩ := List.mem_map.mp hKnown
      rw [List.mem_singleton.mp hFresh] at hSame
      rw [get?, Option.map_eq_none_iff, List.find?_eq_none] at hAbsent
      exact hAbsent entry hEntry (decide_eq_true hSame)

end Defaults

end Dict

end Storage
