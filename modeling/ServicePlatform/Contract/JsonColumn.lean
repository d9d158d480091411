import Mathlib.Data.List.Nodup
import Mathlib.Data.List.Forall2

/-! Python values as they pass through a JSON column. Writing the column
serialises the value and reading it back parses the text. That loses what
JSON cannot say: a tuple comes back as a list and every member name comes
back as a string. A value outside the JSON types cannot be written at all. -/
namespace ServicePlatform

/-- A dictionary key. A float is given by its `repr`, which is also the
text JSON uses for it; `object` is any other hashable value. -/
inductive PyKey where
  | str (text : String)
  | int (n : Int)
  | bool (b : Bool)
  | none
  | float (repr : String)
  | object (type : String)
  deriving DecidableEq, Repr

inductive PyValue where
  | none
  | bool (b : Bool)
  | int (n : Int)
  | float (repr : String)
  | str (text : String)
  | list (items : List PyValue)
  | tuple (items : List PyValue)
  | dict (items : List (PyKey × PyValue))
  | object (type : String)
  deriving Repr

/-- A dictionary whose keys are strings, in insertion order. -/
abbrev StrDict := List (String × PyValue)

/-- The member name `json.dumps` writes for a key. -/
def PyKey.memberName : PyKey → Option String
  | .str text => some text
  | .int n => some (toString n)
  | .bool true => some "true"
  | .bool false => some "false"
  | .none => some "null"
  | .float repr => some repr
  | .object _ => Option.none

namespace StrDict

/-- Assignment replaces the value of a present key at its old position. -/
def setItem : StrDict → String → PyValue → StrDict
  | [], k, v => [(k, v)]
  | (k', v') :: rest, k, v =>
      if k' = k then (k', v) :: rest else (k', v') :: setItem rest k v

/-- `json.loads` fills a dictionary from the members in textual order. -/
def ofMembers (members : List (String × PyValue)) : StrDict :=
  members.foldl (fun d m => setItem d m.1 m.2) []

def keys (d : StrDict) : List String := d.map Prod.fst

def toDict (d : StrDict) : List (PyKey × PyValue) := d.map fun m => (.str m.1, m.2)

theorem setItem_fresh (d : StrDict) (k : String) (v : PyValue) (h : k ∉ keys d) :
    setItem d k v = d ++ [(k, v)] := by
  induction d with
  | nil => rfl
  | cons m d ih =>
      simp only [keys, List.map_cons, List.mem_cons, not_or] at h
      rw [setItem, if_neg (Ne.symm h.1), ih h.2]
      rfl

theorem keys_setItem (d : StrDict) (k : String) (v : PyValue) :
    keys (setItem d k v) = if k ∈ keys d then keys d else keys d ++ [k] := by
  induction d with
  | nil => rfl
  | cons m d ih =>
      by_cases h : m.1 = k
      · simp [setItem, keys, h]
      · have hk : k ≠ m.1 := Ne.symm h
        simp only [keys] at ih
        simp only [setItem, if_neg h, keys, List.map_cons, ih, List.mem_cons, hk, false_or]
        by_cases hm : k ∈ List.map Prod.fst d <;> simp [hm]

theorem nodup_setItem {d : StrDict} (h : (keys d).Nodup) (k : String) (v : PyValue) :
    (keys (setItem d k v)).Nodup := by
  rw [keys_setItem]
  split
  · exact h
  · next fresh =>
      rw [List.nodup_append]
      refine ⟨h, by simp, ?_⟩
      intro a ha b hb
      rw [List.mem_singleton] at hb
      rintro rfl
      exact fresh (hb ▸ ha)

/-- A parsed object never holds a member name twice. -/
theorem nodup_ofMembers (members : List (String × PyValue)) : (keys (ofMembers members)).Nodup := by
  have general : ∀ (d : StrDict), (keys d).Nodup →
      (keys (members.foldl (fun d m => setItem d m.1 m.2) d)).Nodup := by
    induction members with
    | nil => exact fun d h => h
    | cons m members ih => exact fun d h => ih _ (nodup_setItem h m.1 m.2)
  exact general [] List.nodup_nil

theorem ofMembers_eq_self {members : List (String × PyValue)} (h : (keys members).Nodup) :
    ofMembers members = members := by
  have general : ∀ (d : StrDict), (keys (d ++ members)).Nodup →
      members.foldl (fun d m => setItem d m.1 m.2) d = d ++ members := by
    clear h
    induction members with
    | nil => simp
    | cons m members ih =>
        intro d hd
        have fresh : m.1 ∉ keys d := by
          simp only [keys, List.map_append, List.map_cons, List.nodup_append] at hd
          intro hm
          exact hd.2.2 m.1 hm m.1 (List.mem_cons_self ..) rfl
        rw [List.foldl_cons, setItem_fresh d m.1 m.2 fresh, ih _ (by simpa using hd)]
        simp
  exact general [] h

end StrDict

mutual

/-- `json.loads (json.dumps v)`, with no result where `dumps` raises. -/
def jsonRoundTrip : PyValue → Option PyValue
  | .none => some .none
  | .bool b => some (.bool b)
  | .int n => some (.int n)
  | .float repr => some (.float repr)
  | .str text => some (.str text)
  | .list items => (jsonItems items).map .list
  | .tuple items => (jsonItems items).map .list
  | .dict items => (jsonMembers items).map fun members => .dict (StrDict.ofMembers members).toDict
  | .object _ => Option.none

def jsonItems : List PyValue → Option (List PyValue)
  | [] => some []
  | v :: rest => (jsonRoundTrip v).bind fun w => (jsonItems rest).map (w :: ·)

def jsonMembers : List (PyKey × PyValue) → Option (List (String × PyValue))
  | [] => some []
  | (k, v) :: rest =>
      k.memberName.bind fun name => (jsonRoundTrip v).bind fun w =>
        (jsonMembers rest).map ((name, w) :: ·)

end

/-- A dictionary written to a JSON column and loaded again. -/
def jsonColumn (d : StrDict) : Option StrDict := (jsonMembers d.toDict).map StrDict.ofMembers

mutual

/-- Built from JSON's own types only: no tuple, no foreign object, and
dictionaries keyed by distinct strings. -/
def JsonNative : PyValue → Prop
  | .list items => JsonNativeItems items
  | .dict items => (∃ names : List String, names.Nodup ∧ items.map Prod.fst = names.map .str) ∧
      JsonNativeMembers items
  | .tuple _ => False
  | .object _ => False
  | _ => True

def JsonNativeItems : List PyValue → Prop
  | [] => True
  | v :: rest => JsonNative v ∧ JsonNativeItems rest

def JsonNativeMembers : List (PyKey × PyValue) → Prop
  | [] => True
  | (_, v) :: rest => JsonNative v ∧ JsonNativeMembers rest

end

/-- A dictionary's own keys are distinct; only its values can be lost. -/
def StrDict.JsonNative (d : StrDict) : Prop := d.keys.Nodup ∧ JsonNativeMembers d.toDict

theorem jsonMembers_names {items : List (PyKey × PyValue)} {members : List (String × PyValue)}
    (h : jsonMembers items = some members) :
    items.map (fun m => m.1.memberName) = members.map (fun m => some m.1) := by
  induction items generalizing members with
  | nil =>
      cases h
      rfl
  | cons m items ih =>
      obtain ⟨k, v⟩ := m
      simp only [jsonMembers, Option.bind_eq_some_iff, Option.map_eq_some_iff] at h
      obtain ⟨name, hName, w, -, rest, hRest, rfl⟩ := h
      simp only [List.map_cons, hName, ih hRest]

theorem PyKey.map_str_injective {names names' : List String}
    (h : names.map PyKey.str = names'.map PyKey.str) : names = names' :=
  List.map_injective_iff.mpr (fun _ _ he => PyKey.str.inj he) h

theorem StrDict.toDict_keys (d : StrDict) : d.toDict.map Prod.fst = d.keys.map PyKey.str := by
  simp [StrDict.toDict, StrDict.keys]

mutual

theorem jsonRoundTrip_of_native (v : PyValue) (h : JsonNative v) : jsonRoundTrip v = some v := by
  cases v with
  | none => rfl
  | bool b => rfl
  | int n => rfl
  | float repr => rfl
  | str text => rfl
  | list items =>
      rw [jsonRoundTrip, jsonItems_of_native items (by simpa only [JsonNative] using h)]
      rfl
  | tuple items => simp [JsonNative] at h
  | dict items =>
      simp only [JsonNative] at h
      obtain ⟨⟨names, hNodup, hNames⟩, hItems⟩ := h
      obtain ⟨members, hMembers, hSame⟩ := jsonMembers_of_native items names hNames hItems
      have hKeys : StrDict.keys members = names := by
        apply PyKey.map_str_injective
        rw [← StrDict.toDict_keys, hSame, hNames]
      rw [jsonRoundTrip, hMembers, Option.map_some,
        StrDict.ofMembers_eq_self (by rw [hKeys]; exact hNodup), hSame]
  | object type => simp [JsonNative] at h

theorem jsonItems_of_native (items : List PyValue) (h : JsonNativeItems items) :
    jsonItems items = some items := by
  cases items with
  | nil => rfl
  | cons v rest =>
      simp only [JsonNativeItems] at h
      rw [jsonItems, jsonRoundTrip_of_native v h.1, jsonItems_of_native rest h.2]
      rfl

theorem jsonMembers_of_native (items : List (PyKey × PyValue)) (names : List String)
    (hNames : items.map Prod.fst = names.map .str) (h : JsonNativeMembers items) :
    ∃ members : StrDict, jsonMembers items = some members ∧ members.toDict = items := by
  cases items with
  | nil => exact ⟨[], rfl, rfl⟩
  | cons m rest =>
      obtain ⟨k, v⟩ := m
      cases names with
      | nil => cases hNames
      | cons name names =>
          simp only [List.map_cons, List.cons.injEq] at hNames
          obtain ⟨rfl, hRest⟩ := hNames
          simp only [JsonNativeMembers] at h
          obtain ⟨members, hMembers, hSame⟩ := jsonMembers_of_native rest names hRest h.2
          refine ⟨(name, v) :: members, ?_, ?_⟩
          · rw [jsonMembers, jsonRoundTrip_of_native v h.1, hMembers]
            rfl
          · rw [← hSame]
            rfl

end

mutual

theorem native_of_jsonRoundTrip (v : PyValue) (h : jsonRoundTrip v = some v) : JsonNative v := by
  cases v with
  | none => simp [JsonNative]
  | bool b => simp [JsonNative]
  | int n => simp [JsonNative]
  | float repr => simp [JsonNative]
  | str text => simp [JsonNative]
  | list items =>
      simp only [jsonRoundTrip, Option.map_eq_some_iff, PyValue.list.injEq, exists_eq_right] at h
      rw [JsonNative]
      exact native_of_jsonItems items h
  | tuple items => simp [jsonRoundTrip] at h
  | dict items =>
      simp only [jsonRoundTrip, Option.map_eq_some_iff, PyValue.dict.injEq] at h
      obtain ⟨members, hMembers, hSame⟩ := h
      rw [JsonNative]
      refine ⟨⟨_, StrDict.nodup_ofMembers members, ?_⟩, ?_⟩
      · rw [← hSame, StrDict.toDict_keys]
      · apply native_of_jsonMembers items members hMembers
        have hNames := jsonMembers_names hMembers
        have hKeys : StrDict.keys (StrDict.ofMembers members) = StrDict.keys members := by
          rw [← hSame] at hNames
          simp only [StrDict.toDict, List.map_map, Function.comp_def, PyKey.memberName] at hNames
          refine List.map_injective_iff.mpr (fun _ _ he => Option.some.inj he) ?_
          simpa [StrDict.keys, Function.comp_def] using hNames
        have hMembersNodup : (StrDict.keys members).Nodup := by
          rw [← hKeys]
          exact StrDict.nodup_ofMembers members
        rw [← StrDict.ofMembers_eq_self hMembersNodup]
        exact hSame
  | object type => simp [jsonRoundTrip] at h

theorem native_of_jsonItems (items : List PyValue) (h : jsonItems items = some items) :
    JsonNativeItems items := by
  cases items with
  | nil => simp [JsonNativeItems]
  | cons v rest =>
      simp only [jsonItems, Option.bind_eq_some_iff, Option.map_eq_some_iff, List.cons.injEq] at h
      obtain ⟨w, hValue, rest', hRest, hw, hr⟩ := h
      rw [hw] at hValue
      rw [hr] at hRest
      rw [JsonNativeItems]
      exact ⟨native_of_jsonRoundTrip v hValue, native_of_jsonItems rest hRest⟩

theorem native_of_jsonMembers (items : List (PyKey × PyValue)) (members : StrDict)
    (h : jsonMembers items = some members) (same : members.toDict = items) :
    JsonNativeMembers items := by
  cases items with
  | nil => simp [JsonNativeMembers]
  | cons m rest =>
      obtain ⟨k, v⟩ := m
      simp only [jsonMembers, Option.bind_eq_some_iff, Option.map_eq_some_iff] at h
      obtain ⟨name, -, w, hValue, members', hRest, rfl⟩ := h
      simp only [StrDict.toDict, List.map_cons, List.cons.injEq, Prod.mk.injEq] at same
      obtain ⟨⟨-, hw⟩, same⟩ := same
      rw [hw] at hValue
      rw [JsonNativeMembers]
      exact ⟨native_of_jsonRoundTrip v hValue, native_of_jsonMembers rest members' hRest same⟩

end

end ServicePlatform
