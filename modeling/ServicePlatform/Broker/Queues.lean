import ServicePlatform.Broker.Topic
import Mathlib.Data.List.Dedup
import Mathlib.Data.List.Perm.Basic
import Mathlib.Logic.Function.Basic

/-! A message broker: an exchange that puts a copy of a message on each queue
with a matching binding, and queues that hand a copy to one of their consumers
and keep it until the consumer settles it. A rejected copy goes to the dead
letters of its queue, when the queue has been declared with any. -/
namespace Broker

variable {Queue Consumer Body Work : Type*}

/-- A message on a queue. The serial number tells it from other messages with
the same body. -/
structure Copy (Queue Body : Type*) where
  queue : Queue
  serial : Nat
  body : Body

/-- A copy that was handed to a consumer, and what the consumer does with it. -/
structure Delivery (Queue Consumer Body Work : Type*) where
  copy : Copy Queue Body
  consumer : Consumer
  work : Work

structure Topology (Queue Consumer : Type*) where
  bindings : List (Queue × String)
  consumers : Queue → List Consumer
  deadLetters : Queue → Bool

namespace Topology

/-- The queues that get a copy, each once. -/
def route [DecidableEq Queue] (topology : Topology Queue Consumer) (key : String) : List Queue :=
  ((topology.bindings.filter fun binding => topicMatches binding.2 key).map Prod.fst).dedup

variable [DecidableEq Queue] {topology : Topology Queue Consumer} {key : String}

theorem mem_route {queue : Queue} : queue ∈ topology.route key ↔
    ∃ bindingKey, (queue, bindingKey) ∈ topology.bindings ∧ topicMatches bindingKey key = true := by
  simp [route]

theorem nodup_route : (topology.route key).Nodup := List.nodup_dedup _

end Topology

/-- `arrived` and `acked` are records: of all copies there ever were, and of
those that were acknowledged. The others are the places where a copy can be. -/
structure BrokerState (Queue Consumer Body Work : Type*) where
  serial : Nat
  arrived : List (Copy Queue Body)
  ready : List (Copy Queue Body)
  unacked : List (Delivery Queue Consumer Body Work)
  acked : List (Delivery Queue Consumer Body Work)
  dead : List (Copy Queue Body)
  dropped : List (Copy Queue Body)

namespace BrokerState

def empty : BrokerState Queue Consumer Body Work := ⟨0, [], [], [], [], [], []⟩

def publish [DecidableEq Queue] (topology : Topology Queue Consumer) (key : String) (body : Body)
    (s : BrokerState Queue Consumer Body Work) : BrokerState Queue Consumer Body Work :=
  let copies := (topology.route key).map fun queue => ⟨queue, s.serial, body⟩
  { s with serial := s.serial + 1, arrived := s.arrived ++ copies, ready := s.ready ++ copies }

/-- Hand a copy to a consumer of its queue. -/
def deliver (s : BrokerState Queue Consumer Body Work) (n : Nat) (copy : Copy Queue Body)
    (consumer : Consumer) (work : Work) : BrokerState Queue Consumer Body Work :=
  { s with ready := s.ready.eraseIdx n, unacked := s.unacked ++ [⟨copy, consumer, work⟩] }

/-- The consumer goes on with its work. -/
def proceed (s : BrokerState Queue Consumer Body Work) (n : Nat)
    (delivery : Delivery Queue Consumer Body Work) (work : Work) : BrokerState Queue Consumer Body Work :=
  { s with unacked := s.unacked.set n { delivery with work := work } }

def ack (s : BrokerState Queue Consumer Body Work) (n : Nat)
    (delivery : Delivery Queue Consumer Body Work) : BrokerState Queue Consumer Body Work :=
  { s with unacked := s.unacked.eraseIdx n, acked := s.acked ++ [delivery] }

/-- Reject without requeue. -/
def reject (topology : Topology Queue Consumer) (s : BrokerState Queue Consumer Body Work) (n : Nat)
    (delivery : Delivery Queue Consumer Body Work) : BrokerState Queue Consumer Body Work :=
  if topology.deadLetters delivery.copy.queue then
    { s with unacked := s.unacked.eraseIdx n, dead := s.dead ++ [delivery.copy] }
  else { s with unacked := s.unacked.eraseIdx n, dropped := s.dropped ++ [delivery.copy] }

/-- The places where the copies are. -/
def places (s : BrokerState Queue Consumer Body Work) : List (Copy Queue Body) :=
  s.ready ++ s.unacked.map Delivery.copy ++ s.acked.map Delivery.copy ++ s.dead ++ s.dropped

end BrokerState

/-- Each copy is in one place, and a delivery is with a consumer of its queue. -/
structure Conserved (topology : Topology Queue Consumer) (s : BrokerState Queue Consumer Body Work) :
    Prop where
  balance : s.arrived.Perm s.places
  distinct : s.arrived.Nodup
  numbered : ∀ copy ∈ s.arrived, copy.serial < s.serial
  served : ∀ delivery ∈ s.unacked ++ s.acked, delivery.consumer ∈ topology.consumers delivery.copy.queue

section Removal

/-- An element and the list without it. -/
theorem perm_of_getElem? {α : Type*} {l : List α} {n : Nat} {a : α} (h : l[n]? = some a) :
    l.Perm (a :: l.eraseIdx n) := by
  obtain ⟨hLength, rfl⟩ := List.getElem?_eq_some_iff.mp h
  exact (List.getElem_cons_eraseIdx_perm hLength).symm

end Removal

namespace Conserved

variable {topology : Topology Queue Consumer} {s : BrokerState Queue Consumer Body Work}

theorem empty : Conserved topology (BrokerState.empty : BrokerState Queue Consumer Body Work) where
  balance := .nil
  distinct := .nil
  numbered := by
    intro copy h
    cases h
  served := by
    intro delivery h
    cases h

theorem publish [DecidableEq Queue] (inv : Conserved topology s) (key : String) (body : Body) :
    Conserved topology (s.publish topology key body) := by
  constructor
  · classical
    apply List.perm_iff_count.mpr
    intro copy
    have hBalance := inv.balance.count_eq copy
    simp only [BrokerState.places, BrokerState.publish, List.count_append] at hBalance ⊢
    omega
  · apply inv.distinct.append
    · apply topology.nodup_route.map
      intro queue queue' h
      exact congrArg Copy.queue h
    · intro copy hOld hNew
      obtain ⟨queue, -, rfl⟩ := List.mem_map.mp hNew
      exact absurd (inv.numbered _ hOld) (Nat.lt_irrefl _)
  · intro copy h
    rcases List.mem_append.mp h with hOld | hNew
    · exact Nat.lt_succ_of_lt (inv.numbered copy hOld)
    · obtain ⟨queue, -, rfl⟩ := List.mem_map.mp hNew
      exact Nat.lt_succ_self _
  · exact inv.served

theorem deliver (inv : Conserved topology s) {n : Nat} {copy : Copy Queue Body} {consumer : Consumer}
    (hReady : s.ready[n]? = some copy) (hConsumer : consumer ∈ topology.consumers copy.queue) (work : Work) :
    Conserved topology (s.deliver n copy consumer work) := by
  constructor
  · classical
    apply List.perm_iff_count.mpr
    intro other
    have hBalance := inv.balance.count_eq other
    have hRemoved := (perm_of_getElem? hReady).count_eq other
    simp only [BrokerState.places, BrokerState.deliver, List.count_append, List.map_append,
      List.map_cons, List.map_nil, List.count_cons, List.count_nil] at hBalance hRemoved ⊢
    omega
  · exact inv.distinct
  · exact inv.numbered
  · intro delivery h
    simp only [BrokerState.deliver, List.mem_append, List.mem_singleton] at h
    rcases h with (hOld | rfl) | hAcked
    · exact inv.served delivery (List.mem_append_left _ hOld)
    · exact hConsumer
    · exact inv.served delivery (List.mem_append_right _ hAcked)

theorem proceed (inv : Conserved topology s) {n : Nat} {delivery : Delivery Queue Consumer Body Work}
    (hUnacked : s.unacked[n]? = some delivery) (work : Work) :
    Conserved topology (s.proceed n delivery work) := by
  obtain ⟨hLength, hDelivery⟩ := List.getElem?_eq_some_iff.mp hUnacked
  have hSame : (s.proceed n delivery work).unacked.map Delivery.copy = s.unacked.map Delivery.copy := by
    show (s.unacked.set n { delivery with work := work }).map Delivery.copy = _
    rw [List.map_set]
    apply List.ext_getElem?
    intro i
    by_cases hi : n = i
    · subst hi
      simp [hLength, hDelivery]
    · simp [hi]
  constructor
  · have hPlaces : (s.proceed n delivery work).places = s.places := by
      unfold BrokerState.places
      rw [hSame]
      rfl
    rw [hPlaces]
    exact inv.balance
  · exact inv.distinct
  · exact inv.numbered
  · intro other h
    rcases List.mem_append.mp h with hOld | hAcked
    · rcases List.mem_or_eq_of_mem_set hOld with hOld | rfl
      · exact inv.served other (List.mem_append_left _ hOld)
      · exact inv.served delivery (List.mem_append_left _ (List.mem_of_getElem? hUnacked))
    · exact inv.served other (List.mem_append_right _ hAcked)

/-- A copy that is taken from the unacknowledged ones leaves the rest where it was. -/
theorem taken (inv : Conserved topology s) [DecidableEq (Copy Queue Body)] {n : Nat}
    {delivery : Delivery Queue Consumer Body Work} (hUnacked : s.unacked[n]? = some delivery)
    (copy : Copy Queue Body) : s.arrived.count copy =
      ({ s with unacked := s.unacked.eraseIdx n } : BrokerState Queue Consumer Body Work).places.count copy +
        [delivery.copy].count copy := by
  have hBalance := inv.balance.count_eq copy
  have hCopies := ((perm_of_getElem? hUnacked).map Delivery.copy).count_eq copy
  simp only [BrokerState.places, List.count_append, List.map_cons, List.count_cons,
    List.count_nil] at hBalance hCopies ⊢
  omega

theorem ack (inv : Conserved topology s) {n : Nat} {delivery : Delivery Queue Consumer Body Work}
    (hUnacked : s.unacked[n]? = some delivery) : Conserved topology (s.ack n delivery) := by
  have hRemoved := perm_of_getElem? hUnacked
  constructor
  · classical
    apply List.perm_iff_count.mpr
    intro copy
    show s.arrived.count copy = _
    rw [inv.taken hUnacked copy]
    simp only [BrokerState.places, BrokerState.ack, List.count_append, List.map_append, List.map_cons,
      List.map_nil]
    omega
  · exact inv.distinct
  · exact inv.numbered
  · intro other h
    apply inv.served other
    have hAll : (s.ack n delivery).unacked ++ (s.ack n delivery).acked =
        s.unacked.eraseIdx n ++ (s.acked ++ [delivery]) := rfl
    rw [hAll] at h
    rw [(hRemoved.append_right s.acked).mem_iff]
    simp only [List.mem_append, List.mem_cons, List.not_mem_nil, or_false] at h ⊢
    tauto

theorem reject (inv : Conserved topology s) {n : Nat} {delivery : Delivery Queue Consumer Body Work}
    (hUnacked : s.unacked[n]? = some delivery) : Conserved topology (s.reject topology n delivery) := by
  have hServed : ∀ other ∈ s.unacked.eraseIdx n ++ s.acked,
      other.consumer ∈ topology.consumers other.copy.queue := by
    intro other h
    apply inv.served other
    rw [((perm_of_getElem? hUnacked).append_right s.acked).mem_iff]
    exact List.mem_cons_of_mem _ h
  classical
  unfold BrokerState.reject
  split
  · refine ⟨List.perm_iff_count.mpr fun copy => ?_, inv.distinct, inv.numbered, hServed⟩
    rw [inv.taken hUnacked copy]
    simp only [BrokerState.places, List.count_append]
    omega
  · refine ⟨List.perm_iff_count.mpr fun copy => ?_, inv.distinct, inv.numbered, hServed⟩
    rw [inv.taken hUnacked copy]
    simp only [BrokerState.places, List.count_append]
    omega

/-- Nothing was dropped if and only if each copy is held or was acknowledged. -/
theorem dropped_iff (inv : Conserved topology s) : s.dropped = [] ↔
    ∀ copy ∈ s.arrived, copy ∈ s.ready ∨ copy ∈ s.unacked.map Delivery.copy ∨ copy ∈ s.dead ∨
      copy ∈ s.acked.map Delivery.copy := by
  constructor
  · intro hNone copy hArrived
    have hPlace := inv.balance.mem_iff.mp hArrived
    simp only [BrokerState.places, List.mem_append, hNone, List.not_mem_nil, or_false] at hPlace
    tauto
  · intro hHeld
    apply List.eq_nil_iff_forall_not_mem.mpr
    intro copy hDropped
    have hNodup := inv.balance.nodup_iff.mp inv.distinct
    have hArrived : copy ∈ s.arrived := by
      rw [inv.balance.mem_iff]
      exact List.mem_append_right _ hDropped
    apply (List.nodup_append.mp hNodup).2.2 copy _ copy hDropped rfl
    have hPlace := hHeld copy hArrived
    simp only [List.mem_append]
    tauto

end Conserved

end Broker
