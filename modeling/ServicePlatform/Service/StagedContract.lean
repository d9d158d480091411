import ServicePlatform.Contract.Schema
import ServicePlatform.Service.UserOutbox

/-! The events that requests stage, against their schema. The body of a request is
validated by its model, which takes any text for an email, while the schema asks
for an address. -/
namespace ServicePlatform

open Storage Transition

/-- `UserCreate`. -/
structure UserCreate where
  email : String
  displayName : String
  vipLevel : Int
  displayName_max : displayName.length ≤ 64

/-- How a model reads an integer field. An integer is taken as it is. -/
structure LaxInt where
  read : PyValue → Option Int
  read_int : ∀ n, read (.int n) = some n

/-- The fields of the model are those of the body, and no others. -/
def UserCreate.modelValidate (lax : LaxInt) : PyValue → Option UserCreate
  | .dict items =>
      if ∀ item ∈ items, item.1 ∈ [PyKey.str "email", .str "display_name", .str "vip_level"] then
        match items.lookup (.str "email"), items.lookup (.str "display_name"),
            (items.lookup (.str "vip_level")).elim (some 0) lax.read with
        | some (.str email), some (.str displayName), some vipLevel =>
            if h : displayName.length ≤ 64 then some ⟨email, displayName, vipLevel, h⟩ else none
        | _, _, _ => none
      else none
  | _ => none

/-- What a flush draws: identifiers by `uuid4`, and the time. -/
structure UserDraw where
  id : Nat
  createdAt : DateTime
  updatedAt : DateTime
  eventId : Nat
  occurredAt : DateTime
  trace : Option TraceContext
  createdAt_range : createdAt.InRange

def UserDraw.values (draw : UserDraw) : FlushValues where
  id := uuidText draw.id
  createdAt := draw.createdAt
  updatedAt := draw.updatedAt
  eventId := uuidText draw.eventId
  occurredAt := draw.occurredAt
  trace := draw.trace

inductive RequestAction where
  | post (c : CallId) (body : PyValue)
  | check (c : CallId)
  | flush (c : CallId) (draw : UserDraw)
  | commit (c : CallId) (rowId : String) (rowCreatedAt : DateTime)
  | refresh (c : CallId)
  | fail (c : CallId)
  | relay (a : RelayAction)

/-- What the service does for a request. A body that is refused starts no call. -/
def RequestAction.service (lax : LaxInt) : RequestAction → Option ServiceAction
  | .post c body =>
      (UserCreate.modelValidate lax body).map fun user => .call c user.email user.displayName user.vipLevel
  | .check c => some (.check c)
  | .flush c draw => some (.flush c draw.values)
  | .commit c rowId rowCreatedAt => some (.commit c rowId rowCreatedAt)
  | .refresh c => some (.refresh c)
  | .fail c => some (.fail c)
  | .relay a => some (.relay a)

section Calls

variable {registry : ErrorRegistry} {config : RelayConfig} {lax : LaxInt} {s t : ServiceState} {a : RequestAction}
  {c : CallId} {request : UserCreate}

end Calls

/-- Integers and nothing else. -/
def integersOnly : LaxInt where
  read
    | .int n => some n
    | _ => none
  read_int := fun _ => rfl

end ServicePlatform
