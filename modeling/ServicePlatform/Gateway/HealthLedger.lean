import ServicePlatform.Gateway.BalancerSystem
import ServicePlatform.Transition.Monitor
import Mathlib.Data.List.Induction

/-! What the health of an instance should be: a ledger of the outcomes that
were recorded of it since it was last added to the pool. The balancer keeps
its own records, which probes may hold while the pool changes. In every run
with a clock that does not go back, the two agree. -/
namespace ServicePlatform.Gateway

open Rotation Transition GatewayState

/-- The failed request outcomes since the last success, the times of all
failures since the instance was added, and how often it was added again. -/
structure Ledger where
  failures : Nat
  times : List Clock
  epoch : Nat
  deriving DecidableEq

namespace Ledger

def blank : Ledger := ⟨0, [], 0⟩

def requestFailed (ledger : Ledger) (now : Clock) : Ledger :=
  { ledger with failures := ledger.failures + 1, times := ledger.times ++ [now] }

def probeFailed (ledger : Ledger) (now : Clock) : Ledger :=
  { ledger with times := ledger.times ++ [now] }

def succeeded (ledger : Ledger) : Ledger := { ledger with failures := 0 }

def added (ledger : Ledger) : Ledger := ⟨0, [], ledger.epoch + 1⟩

end Ledger

/-- The ledgers, and for each probe the epoch of its instance when it began. -/
structure HealthNotes where
  ledger : String → Ledger
  probeEpoch : ProbeId → Nat

namespace HealthNotes

def empty : HealthNotes := ⟨fun _ => .blank, fun _ => 0⟩

def enter (notes : HealthNotes) (url : String) (ledger : Ledger) : HealthNotes :=
  { notes with ledger := Function.update notes.ledger url ledger }

/-- A probe that awaits an instance has begun in the present epoch. -/
def probing (notes : HealthNotes) (p : ProbeId) : ProbePhase → HealthNotes
  | .waiting url _ _ => { notes with probeEpoch := Function.update notes.probeEpoch p (notes.ledger url).epoch }
  | _ => notes

/-- The outcome of a request is recorded of an instance of the pool. -/
def answered (notes : HealthNotes) (url : String) (now : Clock) (outcome : UpstreamOutcome) : HealthNotes :=
  match outcome.result url with
  | .error _ => notes.enter url ((notes.ledger url).requestFailed now)
  | .ok _ => notes.enter url (notes.ledger url).succeeded

/-- The outcome of a probe. A failure counts for the instance as it was added
when the probe began. -/
def probed (notes : HealthNotes) (p : ProbeId) (url : String) (inPool : Bool) (now : Clock) :
    UpstreamOutcome → HealthNotes
  | .response response =>
      if response.status < 500 ∧ inPool then notes.enter url (notes.ledger url).succeeded else notes
  | .httpError _ =>
      if notes.probeEpoch p = (notes.ledger url).epoch then notes.enter url ((notes.ledger url).probeFailed now)
      else notes

def refreshed (notes : HealthNotes) (pool urls : List String) : HealthNotes :=
  { notes with
    ledger := fun url => if url ∈ urls ∧ url ∉ pool then (notes.ledger url).added else notes.ledger url }

end HealthNotes

/-- What is written down after a step. -/
def noteHealth (s : GatewayState) (a : GatewayAction) (t : GatewayState) (notes : HealthNotes) : HealthNotes :=
  match a with
  | .request _ _ => notes
  | .answer c outcome now _ =>
      match s.calls c with
      | .waiting url _ _ => if url ∈ s.balancer.urls then notes.answered url now outcome else notes
      | _ => notes
  | .probe p => notes.probing p (t.probes p)
  | .probeAnswer p outcome now =>
      match s.probes p with
      | .waiting url _ _ =>
          (notes.probed p url (url ∈ s.balancer.urls) now outcome).probing p (t.probes p)
      | _ => notes
  | .refresh urls => notes.refreshed s.balancer.urls urls

/-- The gateway with the ledgers of its instances. -/
def ledgerStep (config : BalancerConfig) :
    GatewayState × HealthNotes → GatewayAction → Option (GatewayState × HealthNotes) :=
  watched (gatewayStep config) noteHealth

/-- The time at which an outcome is recorded. -/
def GatewayAction.recordedAt : GatewayAction → Option Clock
  | .answer _ _ now _ => some now
  | .probeAnswer _ _ now => some now
  | _ => none

/-- The record of an instance says what the ledger says. -/
structure Agrees (config : BalancerConfig) (state : InstanceHealth) (ledger : Ledger) : Prop where
  fails : state.fails = ledger.failures
  healthy : state.healthy = true ↔ (state.fails : Int) < config.failThreshold
  since : state.healthy = false → ∃ since, state.downSince = some since ∧ since ∈ ledger.times ∧
    ∀ time ∈ ledger.times, time ≤ since

namespace Agrees

variable {config : BalancerConfig} {state : InstanceHealth} {ledger : Ledger}

theorem fresh (hThreshold : 1 ≤ config.failThreshold) (times : List Clock) (epoch : Nat) :
    Agrees config .fresh ⟨0, times, epoch⟩ where
  fails := rfl
  healthy := by
    show true = true ↔ ((0 : Nat) : Int) < config.failThreshold
    have hBelow : ((0 : Nat) : Int) < config.failThreshold := by omega
    exact iff_of_true rfl hBelow
  since := by
    intro h
    cases h

/-- The last failure is the latest, since the clock does not go back. -/
theorem latest {times : List Clock} {now : Clock} (hClock : ∀ time ∈ times, time ≤ now) :
    ∀ time ∈ times ++ [now], time ≤ now := by
  intro time hTime
  rcases List.mem_append.mp hTime with hOld | hNew
  · exact hClock time hOld
  · exact Int.le_of_eq (List.mem_singleton.mp hNew)

theorem failed (h : Agrees config state ledger) {now : Clock} (hClock : ∀ time ∈ ledger.times, time ≤ now) :
    Agrees config (state.failed config now) (ledger.requestFailed now) := by
  unfold InstanceHealth.failed
  split
  · next hDown =>
      constructor
      · exact congrArg (· + 1) h.fails
      · simp only [Bool.false_eq_true, false_iff]
        push_cast
        omega
      · intro _
        exact ⟨now, rfl, List.mem_append_right _ (List.mem_singleton_self _), latest hClock⟩
  · next hUp =>
      have hHealthy : state.healthy = true := by
        apply h.healthy.mpr
        omega
      constructor
      · exact congrArg (· + 1) h.fails
      · simp only [hHealthy, true_iff]
        push_cast
        omega
      · intro hFalse
        simp only [hHealthy, Bool.true_eq_false] at hFalse

theorem probeFailed (h : Agrees config state ledger) {now : Clock}
    (hClock : ∀ time ∈ ledger.times, time ≤ now) :
    Agrees config { state with downSince := some now } (ledger.probeFailed now) where
  fails := h.fails
  healthy := h.healthy
  since := fun _ => ⟨now, rfl, List.mem_append_right _ (List.mem_singleton_self _), latest hClock⟩

/-- The instance comes back at most one cooldown after its latest failure. -/
theorem available (h : Agrees config state ledger) {now : Clock}
    (hCooled : ∀ time ∈ ledger.times, config.cooldown ≤ now - time) : state.available config now = true := by
  cases hHealthy : state.healthy with
  | true => exact InstanceHealth.available_of_healthy hHealthy
  | false =>
      obtain ⟨since, hSince, hMem, -⟩ := h.since hHealthy
      simp [InstanceHealth.available, hSince, hCooled since hMem]

end Agrees

/-- No two instances have the same record. -/
def Distinct (states : String → Option Nat) : Prop :=
  ∀ url url' object, states url = some object → states url' = some object → url = url'

theorem Distinct.update {states : String → Option Nat} (h : Distinct states) {url : String} {object : Nat}
    (hUnused : ∀ other, other ≠ url → states other ≠ some object) :
    Distinct (Function.update states url (some object)) := by
  intro first second shared hFirst hSecond
  rw [Function.update_apply] at hFirst hSecond
  split at hFirst
  · next hSame =>
      split at hSecond
      · next hSame' => rw [hSame, hSame']
      · next hOther =>
          cases hFirst
          exact absurd hSecond (hUnused second hOther)
  · next hOther =>
      split at hSecond
      · next hSame =>
          cases hSecond
          exact absurd hFirst (hUnused first hOther)
      · exact h first second shared hFirst hSecond

section Refresh

variable {old : String → Option Nat} {b start : Balancer}

/-- The records that a new state map refers to: those of the old map, and new
ones. -/
structure Adopted (old : String → Option Nat) (start b : Balancer) : Prop where
  grows : start.allocated ≤ b.allocated
  kept : ∀ object < start.allocated, b.objects object = start.objects object
  referred : ∀ url object, b.states url = some object → object < b.allocated ∧
    (old url = some object ∨
      old url = none ∧ start.allocated ≤ object ∧ b.objects object = .fresh)
  distinct : Distinct b.states

/-- The instance keeps the record of the old map. -/
theorem Adopted.adopt_known (h : Adopted old start b)
    (hOld : ∀ url object, old url = some object → object < start.allocated) (hDistinct : Distinct old)
    {url : String} {object : Nat} (hObject : old url = some object) :
    Adopted old start { b with states := Function.update b.states url (some object) } := by
  have hLow := hOld url object hObject
  constructor
  · exact h.grows
  · exact h.kept
  · intro other object' hOther
    change Function.update b.states url (some object) other = some object' at hOther
    rw [Function.update_apply] at hOther
    split at hOther
    · next hSame =>
        cases hOther
        rw [hSame]
        exact ⟨Nat.lt_of_lt_of_le hLow h.grows, Or.inl hObject⟩
    · exact h.referred other object' hOther
  · apply h.distinct.update
    intro other hOther hShared
    rcases (h.referred other object hShared).2 with hKnown | ⟨-, hHigh, -⟩
    · exact hOther (hDistinct other url object hKnown hObject)
    · omega

/-- The instance gets a new record. -/
theorem Adopted.adopt_new (h : Adopted old start b) {url : String} (hNew : old url = none) :
    Adopted old start
      { b with
        states := Function.update b.states url (some b.allocated)
        objects := Function.update b.objects b.allocated .fresh
        allocated := b.allocated + 1 } := by
  have hUnused : ∀ other object, b.states other = some object → object ≠ b.allocated :=
    fun other object hOther => Nat.ne_of_lt (h.referred other object hOther).1
  constructor
  · exact Nat.le_succ_of_le h.grows
  · intro object hLow
    have hNe : object ≠ b.allocated := Nat.ne_of_lt (Nat.lt_of_lt_of_le hLow h.grows)
    exact (Function.update_of_ne hNe ..).trans (h.kept object hLow)
  · intro other object hOther
    change Function.update b.states url (some b.allocated) other = some object at hOther
    rw [Function.update_apply] at hOther
    split at hOther
    · next hSame =>
        cases hOther
        rw [hSame]
        exact ⟨Nat.lt_succ_self _, Or.inr ⟨hNew, h.grows, Function.update_self ..⟩⟩
    · obtain ⟨hBound, hOrigin⟩ := h.referred other object hOther
      refine ⟨Nat.lt_succ_of_lt hBound, ?_⟩
      show _ ∨ _ ∧ _ ∧ Function.update b.objects b.allocated _ object = _
      rw [Function.update_of_ne (hUnused other object hOther)]
      exact hOrigin
  · apply h.distinct.update
    intro other _ hShared
    exact hUnused other _ hShared rfl

/-- A new pool keeps the records of the instances that remain. -/
theorem adopted_install (hOld : ∀ url object, old url = some object → object < b.allocated)
    (hDistinct : Distinct old) (urls : List String) : Adopted old b (Balancer.install old urls b) := by
  have hFold : ∀ m, Adopted old b m → Adopted old b (urls.foldl (Balancer.adopt old) m) := by
    induction urls with
    | nil => exact fun m h => h
    | cons url urls ih =>
        intro m h
        apply ih
        unfold Balancer.adopt
        split
        · next object hObject => exact h.adopt_known hOld hDistinct hObject
        · next hNew => exact h.adopt_new hNew
  apply hFold
  constructor
  · exact Nat.le_refl _
  · exact fun _ _ => rfl
  · intro url object h
    cases h
  · intro url url' object h
    cases h

end Refresh

section Invariant

variable {config : BalancerConfig} {b : Balancer} {probes : ProbeId → ProbePhase} {notes : HealthNotes}

/-- A probe holds the record that its instance had when the probe began. It is
the present one as long as the instance has not been added again. -/
structure ProbeHolds (b : Balancer) (notes : HealthNotes) (p : ProbeId) (url : String) (object : Nat) :
    Prop where
  bound : object < b.allocated
  own : ∀ other, b.states other = some object → other = url
  past : notes.probeEpoch p ≤ (notes.ledger url).epoch
  current : b.states url = some object → notes.probeEpoch p = (notes.ledger url).epoch
  present : notes.probeEpoch p = (notes.ledger url).epoch →
    ∀ other, b.states url = some other → other = object

structure LedgerInv (config : BalancerConfig) (b : Balancer) (probes : ProbeId → ProbePhase)
    (notes : HealthNotes) : Prop where
  covers : b.Covers
  bound : ∀ url object, b.states url = some object → object < b.allocated
  distinct : Distinct b.states
  agrees : ∀ url object, b.states url = some object → Agrees config (b.objects object) (notes.ledger url)
  holds : ∀ p url object rest, probes p = .waiting url object rest → ProbeHolds b notes p url object

theorem HealthNotes.ledger_probing (notes : HealthNotes) (p : ProbeId) (phase : ProbePhase) :
    (notes.probing p phase).ledger = notes.ledger := by
  cases phase <;> rfl

theorem HealthNotes.epoch_enter {url : String} {ledger : Ledger}
    (hEpoch : ledger.epoch = (notes.ledger url).epoch) (other : String) :
    ((notes.enter url ledger).ledger other).epoch = (notes.ledger other).epoch := by
  unfold HealthNotes.enter
  by_cases hSame : other = url
  · rw [hSame]
    simp [hEpoch]
  · simp [hSame]

/-- The record of one instance is written together with its ledger. -/
theorem LedgerInv.enter (inv : LedgerInv config b probes notes) {url : String} {object : Nat}
    {state : InstanceHealth} {ledger : Ledger} (hOwn : ∀ other, b.states other = some object → other = url)
    (hOnly : ∀ other, b.states url = some other → other = object)
    (hEpoch : ledger.epoch = (notes.ledger url).epoch)
    (hAgrees : b.states url = some object → Agrees config state ledger) :
    LedgerInv config (b.write object state) probes (notes.enter url ledger) := by
  constructor
  · exact inv.covers
  · exact inv.bound
  · exact inv.distinct
  · intro other object' hState
    change b.states other = some object' at hState
    show Agrees config (Function.update b.objects object state object') (Function.update notes.ledger url ledger other)
    by_cases hSame : other = url
    · rw [hSame] at hState ⊢
      have hObject := hOnly object' hState
      rw [hObject] at hState ⊢
      rw [Function.update_self, Function.update_self]
      exact hAgrees hState
    · have hObject : object' ≠ object := by
        rintro rfl
        exact hSame (hOwn other hState)
      rw [Function.update_of_ne hSame, Function.update_of_ne hObject]
      exact inv.agrees other object' hState
  · intro p other object' rest hProbe
    have hHolds := inv.holds p other object' rest hProbe
    constructor
    · exact hHolds.bound
    · exact hHolds.own
    · rw [HealthNotes.epoch_enter hEpoch]
      exact hHolds.past
    · rw [HealthNotes.epoch_enter hEpoch]
      exact hHolds.current
    · rw [HealthNotes.epoch_enter hEpoch]
      exact hHolds.present

/-- A record that no instance of the pool has may be written. -/
theorem LedgerInv.write_stale (inv : LedgerInv config b probes notes) {object : Nat} (state : InstanceHealth)
    (hStale : ∀ url, b.states url ≠ some object) : LedgerInv config (b.write object state) probes notes := by
  constructor
  · exact inv.covers
  · exact inv.bound
  · exact inv.distinct
  · intro url object' hState
    change b.states url = some object' at hState
    have hObject : object' ≠ object := by
      rintro rfl
      exact hStale url hState
    show Agrees config (Function.update b.objects object state object') (notes.ledger url)
    rw [Function.update_of_ne hObject]
    exact inv.agrees url object' hState
  · intro p url object' rest hProbe
    have hHolds := inv.holds p url object' rest hProbe
    exact ⟨hHolds.bound, hHolds.own, hHolds.past, hHolds.current, hHolds.present⟩

/-- The record of the instance of a request or probe outcome. -/
theorem LedgerInv.record (inv : LedgerInv config b probes notes) {url : String} {object : Nat}
    (hState : b.states url = some object) :
    (∀ other, b.states other = some object → other = url) ∧
      (∀ other, b.states url = some other → other = object) := by
  constructor
  · exact fun other hOther => inv.distinct other url object hOther hState
  · exact fun other hOther => Option.some.inj (hOther.symm.trans hState)

theorem LedgerInv.recordFailure (inv : LedgerInv config b probes notes) {url : String} {now : Clock}
    {b' : Balancer} (hRecord : b.recordFailure config now url = some b')
    (hClock : ∀ time ∈ (notes.ledger url).times, time ≤ now) :
    LedgerInv config b' probes (notes.enter url ((notes.ledger url).requestFailed now)) := by
  obtain ⟨object, hState, rfl⟩ := Option.map_eq_some_iff.mp hRecord
  obtain ⟨hOwn, hOnly⟩ := inv.record hState
  exact inv.enter hOwn hOnly rfl fun _ => (inv.agrees url object hState).failed hClock

theorem LedgerInv.recordSuccess (inv : LedgerInv config b probes notes) (hThreshold : 1 ≤ config.failThreshold)
    {url : String} {b' : Balancer} (hRecord : b.recordSuccess url = some b') :
    LedgerInv config b' probes (notes.enter url (notes.ledger url).succeeded) := by
  obtain ⟨object, hState, rfl⟩ := Option.map_eq_some_iff.mp hRecord
  obtain ⟨hOwn, hOnly⟩ := inv.record hState
  exact inv.enter hOwn hOnly rfl fun _ => Agrees.fresh hThreshold _ _

/-- A failed probe is entered in the ledger exactly when the probe holds the
record of the instance as it is in the pool now. -/
theorem LedgerInv.probeFailed (inv : LedgerInv config b probes notes) {p : ProbeId} {url : String}
    {object : Nat} {rest : List String} (hProbe : probes p = .waiting url object rest) {now : Clock}
    (hClock : ∀ time ∈ (notes.ledger url).times, time ≤ now) (inPool : Bool) (text : String) :
    LedgerInv config (b.write object { b.objects object with downSince := some now }) probes
      (notes.probed p url inPool now (.httpError text)) := by
  have hHolds := inv.holds p url object rest hProbe
  simp only [HealthNotes.probed]
  split
  · next hCurrent =>
      have hEpoch : ((notes.ledger url).probeFailed now).epoch = (notes.ledger url).epoch := rfl
      apply inv.enter hHolds.own (hHolds.present hCurrent) hEpoch
      exact fun hState => (inv.agrees url object hState).probeFailed hClock
  · next hPast =>
      apply inv.write_stale
      intro other hState
      have hSame := hHolds.own other hState
      exact hPast (hHolds.current (hSame ▸ hState))

theorem walk_waiting {urls rest : List String} {url : String} {object : Nat}
    (h : b.walk urls = .waiting url object rest) : b.states url = some object := by
  induction urls with
  | nil => cases h
  | cons first urls ih =>
      unfold Balancer.walk at h
      split at h
      · cases h
      · next object' hState =>
          split at h
          · exact ih h
          · cases h
            exact hState

/-- A pass of probes comes to its next await. -/
theorem LedgerInv.walk (inv : LedgerInv config b probes notes) (p : ProbeId) (urls : List String) :
    LedgerInv config b (Function.update probes p (b.walk urls)) (notes.probing p (b.walk urls)) := by
  have hLedger := HealthNotes.ledger_probing notes p (b.walk urls)
  constructor
  · exact inv.covers
  · exact inv.bound
  · exact inv.distinct
  · rw [hLedger]
    exact inv.agrees
  · intro p' url object rest hProbe
    by_cases hSame : p' = p
    · rw [hSame, Function.update_self] at hProbe
      have hState := walk_waiting hProbe
      obtain ⟨hOwn, hOnly⟩ := inv.record hState
      have hEpoch : (notes.probing p (b.walk urls)).probeEpoch p = (notes.ledger url).epoch := by
        rw [hProbe]
        exact Function.update_self ..
      rw [hSame]
      constructor
      · exact inv.bound url object hState
      · exact hOwn
      · rw [hEpoch, hLedger]
      · rw [hEpoch, hLedger]
        exact fun _ => rfl
      · exact fun _ => hOnly
    · rw [Function.update_of_ne hSame] at hProbe
      have hHolds := inv.holds p' url object rest hProbe
      have hEpoch : (notes.probing p (b.walk urls)).probeEpoch p' = notes.probeEpoch p' := by
        unfold HealthNotes.probing
        split
        · exact Function.update_of_ne hSame ..
        · rfl
      constructor
      · exact hHolds.bound
      · exact hHolds.own
      · rw [hEpoch, hLedger]
        exact hHolds.past
      · rw [hEpoch, hLedger]
        exact hHolds.current
      · rw [hEpoch, hLedger]
        exact hHolds.present

theorem HealthNotes.refreshed_stays {pool urls : List String} {url : String} (h : url ∈ pool) :
    (notes.refreshed pool urls).ledger url = notes.ledger url := by
  simp [HealthNotes.refreshed, h]

theorem HealthNotes.refreshed_joins {pool urls : List String} {url : String} (hOut : url ∉ pool)
    (hIn : url ∈ urls) : (notes.refreshed pool urls).ledger url = (notes.ledger url).added := by
  simp [HealthNotes.refreshed, hIn, hOut]

/-- A refresh never takes an epoch back. -/
theorem HealthNotes.refreshed_epoch (notes : HealthNotes) (pool urls : List String) (url : String) :
    (notes.ledger url).epoch ≤ ((notes.refreshed pool urls).ledger url).epoch := by
  simp only [HealthNotes.refreshed]
  split
  · exact Nat.le_succ _
  · exact Nat.le_refl _

/-- The probes in flight hold their records in the new pool too. -/
theorem holds_install {urls : List String}
    (hAdopted : Adopted b.states b (Balancer.install b.states urls.eraseDups b))
    {p : ProbeId} {url : String} {object : Nat} (hHolds : ProbeHolds b notes p url object)
    (hStays : ∀ object, b.states url = some object →
      (notes.refreshed b.urls urls).ledger url = notes.ledger url)
    (hJoins : ∀ object, (Balancer.install b.states urls.eraseDups b).states url = some object →
      b.states url = none → (notes.refreshed b.urls urls).ledger url = (notes.ledger url).added) :
    ProbeHolds (Balancer.install b.states urls.eraseDups b) (notes.refreshed b.urls urls) p url object := by
  have hSource : ∀ other, (Balancer.install b.states urls.eraseDups b).states other = some object →
      b.states other = some object := by
    intro other hState
    rcases (hAdopted.referred other object hState).2 with hOld | ⟨-, hHigh, -⟩
    · exact hOld
    · exact absurd hHolds.bound (Nat.not_lt_of_le hHigh)
  have hPast := hHolds.past
  constructor
  · exact Nat.lt_of_lt_of_le hHolds.bound hAdopted.grows
  · exact fun other hState => hHolds.own other (hSource other hState)
  · exact Nat.le_trans hPast (notes.refreshed_epoch b.urls urls url)
  · intro hState
    have hOld := hSource url hState
    rw [hStays object hOld]
    exact hHolds.current hOld
  · intro hEpoch other hState
    change notes.probeEpoch p = _ at hEpoch
    rcases (hAdopted.referred url other hState).2 with hOld | ⟨hNone, -, -⟩
    · rw [hStays other hOld] at hEpoch
      exact hHolds.present hEpoch other hOld
    · rw [hJoins other hState hNone] at hEpoch
      have hNext : (notes.ledger url).added.epoch = (notes.ledger url).epoch + 1 := rfl
      omega

/-- An instance of the new pool either stays with its record and its ledger, or
is added with a new record and a new ledger. -/
theorem LedgerInv.refresh (inv : LedgerInv config b probes notes) (hThreshold : 1 ≤ config.failThreshold)
    (urls : List String) : LedgerInv config (b.refresh urls) probes (notes.refreshed b.urls urls) := by
  have hCovers := Balancer.covers_refresh inv.covers urls
  unfold Balancer.refresh at hCovers ⊢
  split
  · next hEmpty =>
      have hNotes : notes.refreshed b.urls urls = notes := by
        simp [HealthNotes.refreshed, hEmpty]
      rw [hNotes]
      exact inv
  · next hSome =>
      rw [if_neg hSome] at hCovers
      have hAdopted := adopted_install inv.bound inv.distinct urls.eraseDups
      have hStays : ∀ url object, b.states url = some object →
          (notes.refreshed b.urls urls).ledger url = notes.ledger url := by
        intro url object hState
        exact HealthNotes.refreshed_stays ((inv.covers url).mp (by simp [hState]))
      have hJoins : ∀ url object, (Balancer.install b.states urls.eraseDups b).states url = some object →
          b.states url = none →
          (notes.refreshed b.urls urls).ledger url = (notes.ledger url).added := by
        intro url object hState hNone
        have hIn := (hCovers url).mp (by simp [hState])
        rw [Balancer.urls_install, List.mem_eraseDups] at hIn
        exact HealthNotes.refreshed_joins (fun hMem => (inv.covers url).mpr hMem hNone) hIn
      constructor
      · exact hCovers
      · exact fun url object hState => (hAdopted.referred url object hState).1
      · exact hAdopted.distinct
      · intro url object hState
        rcases (hAdopted.referred url object hState).2 with hOld | ⟨hNone, -, hFresh⟩
        · rw [hStays url object hOld, hAdopted.kept object (inv.bound url object hOld)]
          exact inv.agrees url object hOld
        · rw [hJoins url object hState hNone, hFresh]
          exact Agrees.fresh hThreshold _ _
      · intro p url object rest hProbe
        exact holds_install hAdopted (inv.holds p url object rest hProbe) (hStays url) (hJoins url)

end Invariant

section Step

variable {config : BalancerConfig} {s t : GatewayState × HealthNotes} {a : GatewayAction}

/-- The records of a state of the gateway and its ledgers. -/
def Recorded (config : BalancerConfig) (s : GatewayState × HealthNotes) : Prop :=
  LedgerInv config s.1.balancer s.1.probes s.2

/-- Moving the rotation changes no record. -/
theorem LedgerInv.congr {b b' : Balancer} {probes : ProbeId → ProbePhase} {notes : HealthNotes}
    (inv : LedgerInv config b probes notes) (hUrls : b'.urls = b.urls) (hStates : b'.states = b.states)
    (hObjects : b'.objects = b.objects) (hAllocated : b'.allocated = b.allocated) :
    LedgerInv config b' probes notes := by
  constructor
  · intro url
    rw [hStates, hUrls]
    exact inv.covers url
  · rw [hStates, hAllocated]
    exact inv.bound
  · rw [hStates]
    exact inv.distinct
  · rw [hStates, hObjects]
    exact inv.agrees
  · intro p url object rest hProbe
    have hHolds := inv.holds p url object rest hProbe
    constructor
    · rw [hAllocated]
      exact hHolds.bound
    · rw [hStates]
      exact hHolds.own
    · exact hHolds.past
    · rw [hStates]
      exact hHolds.current
    · rw [hStates]
      exact hHolds.present

theorem turned_records {clock : Nat → Clock} {c : CallId} {tried : List String}
    {lastError : Option String} {left : Nat} {s t : GatewayState}
    (h : Turned config clock c tried lastError s left t) :
    t.balancer.objects = s.balancer.objects ∧ t.balancer.allocated = s.balancer.allocated := by
  cases h <;> exact ⟨rfl, rfl⟩

theorem LedgerInv.turned {clock : Nat → Clock} {c : CallId} {tried : List String}
    {lastError : Option String} {left : Nat} {s t : GatewayState} {notes : HealthNotes}
    (inv : LedgerInv config s.balancer s.probes notes)
    (h : Turned config clock c tried lastError s left t) : LedgerInv config t.balancer t.probes notes := by
  obtain ⟨hObjects, hAllocated⟩ := turned_records h
  rw [h.same.2.2.2]
  exact inv.congr h.poolKept.urls h.poolKept.states hObjects hAllocated

/-- The outcome of a request. It is entered when the instance is in the pool. -/
theorem LedgerInv.answered (hThreshold : 1 ≤ config.failThreshold) {s t : GatewayState} {notes : HealthNotes}
    (inv : LedgerInv config s.balancer s.probes notes) {clock : Nat → Clock} {now : Clock} {c : CallId}
    {url : String} {tried : List String} {left : Nat} {outcome : UpstreamOutcome}
    (h : Answered config clock now c url tried left outcome s t)
    (hClock : ∀ time ∈ (notes.ledger url).times, time ≤ now) :
    LedgerInv config t.balancer t.probes
      (if url ∈ s.balancer.urls then notes.answered url now outcome else notes) := by
  cases h with
  | @retried error b _ hError hRecord hTurned =>
      have hMem : url ∈ s.balancer.urls := by
        by_contra hOut
        rw [(Balancer.recordFailure_none inv.covers).mpr hOut] at hRecord
        cases hRecord
      have hNotes : notes.answered url now outcome =
          notes.enter url ((notes.ledger url).requestFailed now) := by
        simp [HealthNotes.answered, hError]
      rw [if_pos hMem, hNotes]
      have hWritten : LedgerInv config (s.observe b).balancer (s.observe b).probes _ :=
        inv.recordFailure hRecord hClock
      exact hWritten.turned hTurned
  | failureUnknown hError hRecord =>
      rw [if_neg ((Balancer.recordFailure_none inv.covers).mp hRecord)]
      exact inv
  | @returned response b hOk hRecord =>
      have hMem : url ∈ s.balancer.urls := by
        by_contra hOut
        rw [(Balancer.recordSuccess_none inv.covers).mpr hOut] at hRecord
        cases hRecord
      have hNotes : notes.answered url now outcome = notes.enter url (notes.ledger url).succeeded := by
        simp [HealthNotes.answered, hOk]
      rw [if_pos hMem, hNotes]
      exact inv.recordSuccess hThreshold hRecord
  | successUnknown hOk hRecord =>
      rw [if_neg ((Balancer.recordSuccess_none inv.covers).mp hRecord)]
      exact inv

/-- The outcome of a probe, when its instance can be looked up. -/
theorem LedgerInv.probed (hThreshold : 1 ≤ config.failThreshold) {b b' : Balancer}
    {probes : ProbeId → ProbePhase} {notes : HealthNotes} (inv : LedgerInv config b probes notes) {p : ProbeId}
    {url : String} {object : Nat} {rest : List String} (hProbe : probes p = .waiting url object rest)
    {now : Clock} {outcome : UpstreamOutcome} (hRecord : b.recordProbe outcome now url object = some b')
    (hClock : ∀ time ∈ (notes.ledger url).times, time ≤ now) :
    LedgerInv config b' probes (notes.probed p url (url ∈ b.urls) now outcome) := by
  cases outcome with
  | response response =>
      simp only [Balancer.recordProbe] at hRecord
      split at hRecord
      · next hAlive =>
          have hMem : url ∈ b.urls := by
            by_contra hOut
            rw [(Balancer.recordSuccess_none inv.covers).mpr hOut] at hRecord
            cases hRecord
          have hNotes : notes.probed p url (url ∈ b.urls) now (.response response) =
              notes.enter url (notes.ledger url).succeeded := by
            simp [HealthNotes.probed, hAlive, hMem]
          rw [hNotes]
          exact inv.recordSuccess hThreshold hRecord
      · next hDead =>
          cases hRecord
          have hNotes : notes.probed p url (url ∈ b.urls) now (.response response) = notes := by
            simp [HealthNotes.probed, hDead]
          rw [hNotes]
          exact inv
  | httpError text =>
      cases hRecord
      exact inv.probeFailed hProbe hClock _ text

/-- A probe answer whose instance has left the pool is not entered. -/
theorem probed_unknown {b : Balancer} (hCovers : b.Covers) {notes : HealthNotes} {p : ProbeId} {url : String}
    {object : Nat} {now : Clock} {outcome : UpstreamOutcome}
    (hRecord : b.recordProbe outcome now url object = none) :
    notes.probed p url (url ∈ b.urls) now outcome = notes := by
  cases outcome with
  | response response =>
      simp only [Balancer.recordProbe] at hRecord
      split at hRecord
      · have hOut := (Balancer.recordSuccess_none hCovers).mp hRecord
        simp [HealthNotes.probed, hOut]
      · cases hRecord
  | httpError text => cases hRecord

/-- The clock reading of the step is no earlier than the times in the ledgers. -/
def NotEarlier (s : GatewayState × HealthNotes) (a : GatewayAction) : Prop :=
  ∀ now, a.recordedAt = some now → ∀ url, ∀ time ∈ (s.2.ledger url).times, time ≤ now

theorem recorded_step (hThreshold : 1 ≤ config.failThreshold) (inv : Recorded config s)
    (hClock : NotEarlier s a) (h : ledgerStep config s a = some t) : Recorded config t := by
  obtain ⟨hStep, hNote⟩ := watched_some.mp h
  unfold Recorded
  rw [hNote]
  cases a with
  | request c clock =>
      have hBegun : LedgerInv config (s.1.begin c).balancer (s.1.begin c).probes s.2 := inv
      exact hBegun.turned (step_request hStep).2
  | answer c outcome now clock =>
      obtain ⟨url, tried, left, hWaiting, hAnswered⟩ := step_answer hStep
      simp only [noteHealth, hWaiting]
      exact LedgerInv.answered hThreshold inv hAnswered (hClock now rfl url)
  | probe p =>
      obtain ⟨-, hAfter⟩ := step_probe hStep
      simp only [noteHealth, hAfter, GatewayState.setProbe_self]
      exact inv.walk p s.1.balancer.urls
  | probeAnswer p outcome now =>
      obtain ⟨url, object, rest, hWaiting, ⟨b, hRecord, hAfter⟩ | ⟨hRecord, hAfter⟩⟩ :=
        step_probeAnswer hStep
      · simp only [noteHealth, hWaiting, hAfter, GatewayState.setProbe_self]
        have hProbed := LedgerInv.probed hThreshold inv hWaiting hRecord (hClock now rfl url)
        exact hProbed.walk p rest
      · simp only [noteHealth, hWaiting, hAfter, GatewayState.setProbe_self]
        rw [probed_unknown inv.covers hRecord]
        constructor
        · exact inv.covers
        · exact inv.bound
        · exact inv.distinct
        · exact inv.agrees
        · intro p' other object' rest' hProbe
          by_cases hSame : p' = p
          · rw [hSame, GatewayState.setProbe_self] at hProbe
            cases hProbe
          · rw [GatewayState.setProbe_of_ne _ _ hSame] at hProbe
            exact inv.holds p' other object' rest' hProbe
  | refresh urls =>
      rw [← Option.some.inj hStep]
      exact inv.refresh hThreshold urls

theorem recorded_initial (hThreshold : 1 ≤ config.failThreshold) (urls : List String) :
    Recorded config (GatewayState.initial urls, .empty) := by
  have hAdopted : Adopted (fun _ => none) ⟨⟨[], 0⟩, fun _ => none, fun _ => .fresh, 0⟩
      (Balancer.new urls) := by
    apply adopted_install
    · intro url object h
      cases h
    · intro url url' object h
      cases h
  constructor
  · exact covers_initial urls
  · exact fun url object hState => (hAdopted.referred url object hState).1
  · exact hAdopted.distinct
  · intro url object hState
    rcases (hAdopted.referred url object hState).2 with hOld | ⟨-, -, hFresh⟩
    · cases hOld
    · show Agrees config ((Balancer.new urls).objects object) Ledger.blank
      rw [hFresh]
      exact Agrees.fresh hThreshold _ _
  · intro p url object rest hProbe
    cases hProbe

theorem times_enter {notes : HealthNotes} {url url' : String} {ledger : Ledger} {now time : Clock}
    (hLedger : ∀ time ∈ ledger.times, time ∈ (notes.ledger url').times ∨ time = now)
    (hTime : time ∈ ((notes.enter url' ledger).ledger url).times) :
    time ∈ (notes.ledger url).times ∨ time = now := by
  change time ∈ (Function.update notes.ledger url' ledger url).times at hTime
  rw [Function.update_apply] at hTime
  split at hTime
  · next hSame =>
      rw [hSame]
      exact hLedger time hTime
  · exact Or.inl hTime

theorem times_answered {notes : HealthNotes} {url url' : String} {now time : Clock} {outcome : UpstreamOutcome}
    (hTime : time ∈ ((notes.answered url' now outcome).ledger url).times) :
    time ∈ (notes.ledger url).times ∨ time = now := by
  unfold HealthNotes.answered at hTime
  split at hTime
  · apply times_enter _ hTime
    intro other hOther
    simpa [Ledger.requestFailed] using hOther
  · apply times_enter _ hTime
    exact fun other hOther => Or.inl hOther

theorem times_probed {notes : HealthNotes} {p : ProbeId} {url url' : String} {inPool : Bool} {now time : Clock}
    {outcome : UpstreamOutcome} (hTime : time ∈ ((notes.probed p url' inPool now outcome).ledger url).times) :
    time ∈ (notes.ledger url).times ∨ time = now := by
  cases outcome with
  | response response =>
      simp only [HealthNotes.probed] at hTime
      split at hTime
      · apply times_enter _ hTime
        exact fun other hOther => Or.inl hOther
      · exact Or.inl hTime
  | httpError text =>
      simp only [HealthNotes.probed] at hTime
      split at hTime
      · apply times_enter _ hTime
        intro other hOther
        simpa [Ledger.probeFailed] using hOther
      · exact Or.inl hTime

/-- A time in a ledger after a step was there before, or is the time of the
step. -/
theorem times_step (h : ledgerStep config s a = some t) {url : String} {time : Clock}
    (hTime : time ∈ (t.2.ledger url).times) :
    time ∈ (s.2.ledger url).times ∨ a.recordedAt = some time := by
  obtain ⟨-, hNote⟩ := watched_some.mp h
  rw [hNote] at hTime
  cases a with
  | request c clock => exact Or.inl hTime
  | answer c outcome now clock =>
      simp only [noteHealth] at hTime
      split at hTime
      · split at hTime
        · rcases times_answered hTime with hOld | rfl
          · exact Or.inl hOld
          · exact Or.inr rfl
        · exact Or.inl hTime
      · exact Or.inl hTime
  | probe p =>
      simp only [noteHealth, HealthNotes.ledger_probing] at hTime
      exact Or.inl hTime
  | probeAnswer p outcome now =>
      simp only [noteHealth] at hTime
      split at hTime
      · rw [HealthNotes.ledger_probing] at hTime
        rcases times_probed hTime with hOld | rfl
        · exact Or.inl hOld
        · exact Or.inr rfl
      · exact Or.inl hTime
  | refresh urls =>
      simp only [noteHealth, HealthNotes.refreshed] at hTime
      split at hTime
      · cases hTime
      · exact Or.inl hTime

end Step

section Run

variable {config : BalancerConfig} {urls : List String} {actions : List GatewayAction}
  {t : GatewayState × HealthNotes}

/-- The times in the ledgers are times at which an outcome was recorded. -/
theorem times_recorded (run : exec (ledgerStep config) (GatewayState.initial urls, .empty) actions = some t)
    {url : String} {time : Clock} (hTime : time ∈ (t.2.ledger url).times) :
    time ∈ actions.filterMap GatewayAction.recordedAt := by
  induction actions using List.reverseRecOn generalizing t with
  | nil =>
      cases run
      cases hTime
  | append_singleton actions a ih =>
      obtain ⟨m, hRun, hStep⟩ := exec_concat.mp run
      rw [List.filterMap_append, List.mem_append]
      rcases times_step hStep hTime with hOld | hNow
      · exact Or.inl (ih hRun hOld)
      · right
        simp [hNow]

theorem recorded_run (hThreshold : 1 ≤ config.failThreshold)
    (hClock : (actions.filterMap GatewayAction.recordedAt).Pairwise (· ≤ ·))
    (run : exec (ledgerStep config) (GatewayState.initial urls, .empty) actions = some t) :
    Recorded config t := by
  induction actions using List.reverseRecOn generalizing t with
  | nil =>
      cases run
      exact recorded_initial hThreshold urls
  | append_singleton actions a ih =>
      obtain ⟨m, hRun, hStep⟩ := exec_concat.mp run
      rw [List.filterMap_append, List.pairwise_append] at hClock
      apply recorded_step hThreshold (ih hClock.1 hRun) _ hStep
      intro now hNow url time hTime
      apply hClock.2.2 time (times_recorded hRun hTime) now
      simp [hNow]

/-- In every run of requests, probes and refreshes, the health of each instance
of the pool is what its ledger says: the failures since its last success, down
from the threshold on, since the latest failure, and for one cooldown. -/
theorem health_matches_ledger (hThreshold : 1 ≤ config.failThreshold)
    (hClock : (actions.filterMap GatewayAction.recordedAt).Pairwise (· ≤ ·))
    (run : exec (ledgerStep config) (GatewayState.initial urls, .empty) actions = some t) {url : String}
    (hMem : url ∈ t.1.balancer.urls) :
    ∃ state, t.1.balancer.health url = some state ∧ state.fails = (t.2.ledger url).failures ∧
      (state.healthy = true ↔ (state.fails : Int) < config.failThreshold) ∧
      (state.healthy = false → ∃ since, state.downSince = some since ∧ since ∈ (t.2.ledger url).times ∧
        (∀ time ∈ (t.2.ledger url).times, time ≤ since) ∧
        ∀ now, since + config.cooldown ≤ now → t.1.balancer.isAvailable config now url = some true) := by
  have inv := recorded_run hThreshold hClock run
  obtain ⟨object, hObject⟩ := Option.ne_none_iff_exists'.mp ((inv.covers url).mpr hMem)
  have hAgrees := inv.agrees url object hObject
  have hHealth : t.1.balancer.health url = some (t.1.balancer.objects object) := by
    rw [Balancer.health, hObject]
    rfl
  refine ⟨t.1.balancer.objects object, hHealth, hAgrees.fails, hAgrees.healthy, ?_⟩
  intro hDown
  obtain ⟨since, hSince, hTime, hLatest⟩ := hAgrees.since hDown
  refine ⟨since, hSince, hTime, hLatest, ?_⟩
  intro now hCooled
  rw [Balancer.isAvailable, hHealth, Option.map_some]
  apply congrArg some
  apply hAgrees.available
  intro time hMem
  apply Int.le_sub_left_of_add_le
  exact Int.le_trans (Int.add_le_add_right (hLatest time hMem) _) hCooled

end Run

section Examples

/-- An instance fails, a failed probe prolongs its cooldown, the pool loses it
and gets it back, and it fails anew. -/
def readded : List GatewayAction :=
  [.request 0 fun _ => 0, .answer 0 (.httpError "refused") 1 fun _ => 1, .probe 0,
    .probeAnswer 0 (.httpError "refused") 5, .refresh ["http://b:1"], .refresh ["http://a:1"],
    .request 1 fun _ => 6, .answer 1 (.httpError "refused") 7 fun _ => 7]

theorem health_matches_ledger_readded :
    ∃ t, exec (ledgerStep ⟨1, 30⟩) (GatewayState.initial ["http://a:1"], .empty) readded = some t ∧
      ∃ state, t.1.balancer.health "http://a:1" = some state ∧
        state.fails = (t.2.ledger "http://a:1").failures ∧ (t.2.ledger "http://a:1").times = [7] := by
  have hRun : (exec (ledgerStep ⟨1, 30⟩) (GatewayState.initial ["http://a:1"], .empty)
      readded).isSome = true := rfl
  obtain ⟨t, ht⟩ := Option.isSome_iff_exists.mp hRun
  refine ⟨t, ht, ?_⟩
  have hMem : "http://a:1" ∈ t.1.balancer.urls := by
    cases ht
    decide
  have hTimes : (t.2.ledger "http://a:1").times = [7] := by
    cases ht
    rfl
  obtain ⟨state, hHealth, hFails, -⟩ := health_matches_ledger (by decide) (by decide) ht hMem
  exact ⟨state, hHealth, hFails, hTimes⟩

end Examples

end ServicePlatform.Gateway
