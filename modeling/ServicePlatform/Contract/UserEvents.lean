import ServicePlatform.Contract.Events

/-! The message body of `user.created.v1`, as its schema class dumps it to
JSON, and the text form of an instant in it. -/
namespace ServicePlatform

namespace DateTime

/-- Year, month and day of a day count from the Unix epoch. -/
def civil (days : Int) : Int × Int × Int :=
  let z := days + 719468
  let era := z / 146097
  let doe := z % 146097
  let yoe := (doe - doe / 1460 + doe / 36524 - doe / 146096) / 365
  let doy := doe - (365 * yoe + yoe / 4 - yoe / 100)
  let mp := (5 * doy + 2) / 153
  let day := doy - (153 * mp + 2) / 5 + 1
  let month := if mp < 10 then mp + 3 else mp - 9
  (yoe + era * 400 + if month ≤ 2 then 1 else 0, month, day)

/-- The decimal digits, filled up with zeros. -/
def pad (width : Nat) (n : Int) : String :=
  String.ofList (List.replicate (width - (toString n).length) '0') ++ toString n

/-- The JSON form of an aware UTC `datetime`. -/
def isoFormat (t : DateTime) : String :=
  let (year, month, day) := civil (t / 86400000000)
  let micros := t % 86400000000
  let fraction := micros % 1000000
  let seconds := micros / 1000000
  pad 4 year ++ "-" ++ pad 2 month ++ "-" ++ pad 2 day ++ "T" ++ pad 2 (seconds / 3600) ++ ":" ++
    pad 2 (seconds / 60 % 60) ++ ":" ++ pad 2 (seconds % 60) ++
    (if fraction = 0 then "" else "." ++ pad 6 fraction) ++ "Z"

example : isoFormat 1714567890123456 = "2024-05-01T12:51:30.123456Z" := by decide

end DateTime

structure UserCreatedPayload where
  userId : String
  email : String
  displayName : String
  vipLevel : Int
  createdAt : DateTime
  displayName_max : displayName.length ≤ 64

namespace UserCreatedPayload

/-- Construction validates the field limits. -/
def make (userId email displayName : String) (vipLevel : Int) (createdAt : DateTime) :
    Option UserCreatedPayload :=
  if h : displayName.length ≤ 64 then some ⟨userId, email, displayName, vipLevel, createdAt, h⟩
  else none

/-- `model_dump(mode="json")`. -/
def modelDump (payload : UserCreatedPayload) : StrDict :=
  [("user_id", .str payload.userId), ("email", .str payload.email),
    ("display_name", .str payload.displayName), ("vip_level", .int payload.vipLevel),
    ("created_at", .str (DateTime.isoFormat payload.createdAt))]

/-- The dump passes through a JSON column unchanged. -/
theorem jsonColumn_modelDump (payload : UserCreatedPayload) :
    jsonColumn payload.modelDump = some payload.modelDump := rfl

end UserCreatedPayload

end ServicePlatform
