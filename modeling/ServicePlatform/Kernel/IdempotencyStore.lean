import Mathlib.Logic.Function.Basic

/-! The idempotency store: a map from keys to values that answers one command
at a time. The in-process dictionary and Redis differ only in that a Redis key
disappears when its TTL has passed, which is a step of its own here. -/
namespace ServicePlatform

abbrev IdempotencyStore (Value : Type*) := String → Option Value

namespace IdempotencyStore

variable {Value : Type*}

def empty : IdempotencyStore Value := fun _ => none

def get (store : IdempotencyStore Value) (key : String) : Option Value := store key

def put (store : IdempotencyStore Value) (key : String) (value : Value) : IdempotencyStore Value :=
  Function.update store key (some value)

/-- `SET key value NX`: whether the key was free, and the store that results. -/
def acquire (store : IdempotencyStore Value) (key : String) (processing : Value) :
    Bool × IdempotencyStore Value :=
  match store key with
  | some _ => (false, store)
  | none => (true, store.put key processing)

def expire (store : IdempotencyStore Value) (key : String) : IdempotencyStore Value :=
  Function.update store key none

@[simp] theorem get_empty (key : String) : (empty : IdempotencyStore Value).get key = none := rfl

theorem get_put (store : IdempotencyStore Value) (key other : String) (value : Value) :
    (store.put key value).get other = if other = key then some value else store.get other := by
  simp [get, put, Function.update_apply]

theorem get_expire (store : IdempotencyStore Value) (key other : String) :
    (store.expire key).get other = if other = key then none else store.get other := by
  simp [get, expire, Function.update_apply]

theorem acquire_free {store : IdempotencyStore Value} {key : String} (h : store.get key = none)
    (processing : Value) : store.acquire key processing = (true, store.put key processing) := by
  unfold get at h
  simp [acquire, h]

theorem acquire_taken {store : IdempotencyStore Value} {key : String} (h : store.get key ≠ none)
    (processing : Value) : store.acquire key processing = (false, store) := by
  obtain ⟨value, hValue⟩ := Option.ne_none_iff_exists'.mp h
  unfold get at hValue
  simp [acquire, hValue]

end IdempotencyStore

end ServicePlatform
