import Mathlib.Data.List.Infix
import ServicePlatform.Storage.Dict
import ServicePlatform.Text.Hex

/-! Log lines. A record becomes one JSON object: the fixed fields, then what the
context holds, then the exception. Before it is written, values under sensitive
keys are masked through dictionaries and lists. A tuple is left alone by the
mask, but it is written as an array like a list. -/
namespace ServicePlatform

open Storage Text

/-- A value of a log context. A float is given by the text JSON uses for it. -/
inductive LogValue where
  | none
  | bool (b : Bool)
  | int (n : Int)
  | float (text : String)
  | str (text : String)
  | list (items : List LogValue)
  | tuple (items : List LogValue)
  | dict (items : List (String × LogValue))

/-- A context: the keys of a dictionary are distinct. -/
structure LogContext where
  items : Dict String LogValue
  nodup : (items.map Prod.fst).Nodup

structure LogRecord where
  levelname : String
  name : String
  message : String
  ctx : Option LogContext
  /-- The text of the exception and its traceback. -/
  excInfo : Option String

/-- How deep values may nest below a field before Python gives up, and how many
digits of an integer it writes. -/
structure RuntimeLimits where
  maskCalls : Nat
  containers : Nat
  intDigits : Nat

/-- A character as a pattern that ignores case sees it, up to the letters of the
sensitive names. -/
def foldCase (c : Char) : Char :=
  if c = '\u0130' ∨ c = '\u0131' then 'i'
  else if c = '\u017f' then 's'
  else if c = '\u212a' then 'k'
  else c.toLower

/-- The alternatives of `_SENSITIVE_KEY`, each with and without its separator. -/
def sensitiveNames : List String :=
  ["password", "passwd", "pwd", "secret", "token", "authorization", "apikey", "api_key", "api-key", "cookie",
    "creditcard", "credit_card", "credit-card"]

/-- `_SENSITIVE_KEY` finds a match somewhere in the key. -/
def SensitiveKey (key : String) : Prop := ∃ name ∈ sensitiveNames, name.toList <:+: key.toList.map foldCase

instance (key : String) : Decidable (SensitiveKey key) :=
  inferInstanceAs (Decidable (∃ name ∈ sensitiveNames, name.toList <:+: key.toList.map foldCase))

namespace LogValue

/-- Neither `None` nor the empty string. -/
def Filled : LogValue → Prop
  | none => False
  | str text => text ≠ ""
  | _ => True

instance : (value : LogValue) → Decidable value.Filled
  | none => isFalse id
  | str text => inferInstanceAs (Decidable (text ≠ ""))
  | bool _ | int _ | float _ | list _ | tuple _ | dict _ => isTrue trivial

mutual

/-- `_mask`, where it is called on a value. -/
def mask : LogValue → LogValue
  | none => none
  | bool b => bool b
  | int n => int n
  | float text => float text
  | str text => str text
  | list items => list (maskItems items)
  | tuple items => tuple items
  | dict items => dict (maskMembers items)

def maskItems : List LogValue → List LogValue
  | [] => []
  | value :: rest => value.mask :: maskItems rest

def maskMembers : List (String × LogValue) → List (String × LogValue)
  | [] => []
  | (key, value) :: rest => (key, if SensitiveKey key then str "***" else value.mask) :: maskMembers rest

end

mutual

/-- `_mask` can go on from a call on this value when so many calls may nest in it. -/
def maskable (calls : Nat) : LogValue → Bool
  | none | bool _ | int _ | float _ | str _ | tuple _ => true
  | list items => itemsMaskable calls items
  | dict items => membersMaskable calls items

def itemsMaskable (calls : Nat) : List LogValue → Bool
  | [] => true
  | value :: rest => decide (0 < calls) && value.maskable (calls - 1) && itemsMaskable calls rest

def membersMaskable (calls : Nat) : List (String × LogValue) → Bool
  | [] => true
  | (key, value) :: rest =>
      (decide (SensitiveKey key) || decide (0 < calls) && value.maskable (calls - 1)) && membersMaskable calls rest

end

mutual

/-- The encoder can write a value: its containers do not nest too deep and its
integers are not too long. With the flag, values that the mask replaces are left
out. -/
def encodable (intDigits : Nat) (masked : Bool) (containers : Nat) : LogValue → Bool
  | none | bool _ | float _ | str _ => true
  | int n => decide ((Nat.toDigits 10 n.natAbs).length ≤ intDigits)
  | list items => decide (0 < containers) && itemsEncodable intDigits masked (containers - 1) items
  | tuple items => decide (0 < containers) && itemsEncodable intDigits false (containers - 1) items
  | dict items => decide (0 < containers) && membersEncodable intDigits masked (containers - 1) items

def itemsEncodable (intDigits : Nat) (masked : Bool) (containers : Nat) : List LogValue → Bool
  | [] => true
  | value :: rest => value.encodable intDigits masked containers && itemsEncodable intDigits masked containers rest

def membersEncodable (intDigits : Nat) (masked : Bool) (containers : Nat) : List (String × LogValue) → Bool
  | [] => true
  | (key, value) :: rest =>
      (masked && decide (SensitiveKey key) || value.encodable intDigits masked containers) &&
        membersEncodable intDigits masked containers rest

end

/-- A character inside a JSON string that may hold any other Unicode character. -/
def jsonEscape (c : Char) : List Char :=
  if c = '"' ∨ c = '\\' then ['\\', c]
  else if c = '\n' then ['\\', 'n']
  else if c = '\r' then ['\\', 'r']
  else if c = '\t' then ['\\', 't']
  else if c = '\x08' then ['\\', 'b']
  else if c = '\x0c' then ['\\', 'f']
  else if c.toNat < 32 then '\\' :: 'u' :: hexDigits 4 c.toNat
  else [c]

def quoted (text : String) : List Char := '"' :: text.toList.flatMap jsonEscape ++ ['"']

mutual

/-- What `json.dumps` writes. -/
def jsonText : LogValue → List Char
  | none => "null".toList
  | bool true => "true".toList
  | bool false => "false".toList
  | int n => (toString n).toList
  | float text => text.toList
  | str text => quoted text
  | list items => '[' :: List.intercalate ", ".toList (itemTexts items) ++ [']']
  | tuple items => '[' :: List.intercalate ", ".toList (itemTexts items) ++ [']']
  | dict items => '\x7b' :: List.intercalate ", ".toList (memberTexts items) ++ ['\x7d']

def itemTexts : List LogValue → List (List Char)
  | [] => []
  | value :: rest => value.jsonText :: itemTexts rest

def memberTexts : List (String × LogValue) → List (List Char)
  | [] => []
  | (key, value) :: rest => (quoted key ++ ": ".toList ++ value.jsonText) :: memberTexts rest

end

end LogValue

/-- The fields of a line as they go through `_mask`, unless it calls itself too often. -/
def maskFields (limits : RuntimeLimits) (fields : Dict String LogValue) : Option (Dict String LogValue) :=
  if ∀ field ∈ fields, SensitiveKey field.1 ∨ field.2.maskable limits.maskCalls = true then
    some (LogValue.maskMembers fields)
  else none

/-- `json.dumps` of the fields, unless one of them is too deep or too long. -/
def dumpFields (limits : RuntimeLimits) (fields : Dict String LogValue) : Option (List Char) :=
  if ∀ field ∈ fields, field.2.encodable limits.intDigits false limits.containers = true then
    some (LogValue.dict fields).jsonText
  else none

/-- Add what the context holds; a `None` or an empty string is left out. -/
def addContext (fields : Dict String LogValue) (items : Dict String LogValue) : Dict String LogValue :=
  items.foldl (fun fields item => if item.2.Filled then Dict.setItem fields item.1 item.2 else fields) fields

structure JsonFormatter where
  serviceName : String
  appEnv : String
  maskSecrets : Bool

/-- The fields that each line starts with. -/
def JsonFormatter.fixedFields (formatter : JsonFormatter) (ts : String) (record : LogRecord) : Dict String LogValue :=
  [("ts", .str ts), ("level", .str record.levelname), ("logger", .str record.name),
    ("service", .str formatter.serviceName), ("env", .str formatter.appEnv), ("message", .str record.message)]

/-- The object that a record is written as, before the mask. -/
def JsonFormatter.payload (formatter : JsonFormatter) (ts : String) (record : LogRecord) : Dict String LogValue :=
  let fields := match record.ctx with
    | some ctx => addContext (formatter.fixedFields ts record) ctx.items
    | none => formatter.fixedFields ts record
  match record.excInfo with
  | some text => Dict.setItem fields "exc_info" (.str text)
  | none => fields

/-- The line of a record, or nothing where `format` raises. -/
def JsonFormatter.format (formatter : JsonFormatter) (limits : RuntimeLimits) (ts : String) (record : LogRecord) :
    Option (List Char) :=
  if formatter.maskSecrets then (maskFields limits (formatter.payload ts record)).bind (dumpFields limits)
  else dumpFields limits (formatter.payload ts record)

end ServicePlatform
