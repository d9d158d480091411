import ServicePlatform.Gateway.DiscoveredPool
import ServicePlatform.Gateway.IdentityTransfer
import ServicePlatform.Gateway.PoolConstruction

/-! Which instances the pool has in the end. While nobody comes or goes, a listing finds
exactly the instances that run. An instance that removed its entry does not come back,
since its heartbeat ends before. The pool is never empty, also when every instance is
gone. -/
namespace ServicePlatform.Gateway

open Storage Text Transition

/-- What `create_app` of the gateway reads of its settings for the pool. -/
structure UpstreamSettings where
  upstreamServiceUrl : String
  upstreamServiceUrls : String

/-- `upstream_list`. -/
def UpstreamSettings.upstreamList (settings : UpstreamSettings) : List String :=
  let urls := (((splitComma settings.upstreamServiceUrls.toList).map strip).filter fun url => url ≠ []).map String.ofList
  if urls = [] then [settings.upstreamServiceUrl] else urls

theorem UpstreamSettings.upstreamList_ne_nil (settings : UpstreamSettings) : settings.upstreamList ≠ [] := by
  unfold upstreamList
  simp only
  split
  · exact List.cons_ne_nil _ _
  · assumption

namespace DiscoveryState

variable {Instance Time : Type*} [DecidableEq Instance] [LinearOrder Time] [Add Time] [One Time]
  {d : Deployment Instance Time} {s t : DiscoveryState Instance Time} {before segment : List (TimedAction Instance Time)} {start : Time} {configured : List String}
  {i : Instance}

/-- An action moves one lifespan at most. -/
theorem lifespans_step {a : TimedAction Instance Time} (hStep : discoveryStep d s a = some t) (hMoves : a.action.moves ≠ some i) :
    t.lifespans i = s.lifespans i := by
  obtain ⟨now, action⟩ := a
  obtain ⟨-, hPerformed⟩ := step_performed hStep
  cases hPerformed with
  | kept hKept hQuiet hStay hLifespans => exact hLifespans i hMoves
  | registered => rfl
  | deregistered => exact lifespans_move rfl i hMoves
  | began => rfl
  | paged => rfl
  | scanned =>
      rw [lifespans_goOn]
      rfl
  | read =>
      rw [lifespans_goOn]
      rfl
  | failed => rfl
  | cancelled => rfl

/-- A heartbeat reaches the registry only while the instance serves. -/
theorem serving_of_beat {now : Time} (hStep : discoveryStep d s ⟨now, .beat i true⟩ = some t) :
    s.lifespans i = .serving := by
  obtain ⟨-, hPerformed⟩ := step_performed hStep
  cases hPerformed with
  | kept hKept hQuiet => exact absurd rfl (hQuiet i)
  | registered hServing => exact hServing

/-- The end of a lifespan is final. -/
theorem ended_step {a : TimedAction Instance Time} (hStep : discoveryStep d s a = some t) (hEnded : s.lifespans i = .ended) :
    t.lifespans i = .ended := by
  rw [lifespans_step hStep, hEnded]
  obtain ⟨now, action⟩ := a
  obtain ⟨-, hTaken⟩ := Option.ite_none_right_eq_some.mp hStep
  intro hMoves
  cases action with
  | start j | stop j | crash j | leave j reached =>
      cases hMoves
      obtain ⟨hStage, -⟩ := Option.ite_none_right_eq_some.mp hTaken
      simp [hEnded] at hStage
  | _ => cases hMoves

/-- After the end no heartbeat reaches the registry. -/
theorem no_beat_after_end (hSegment : exec (discoveryStep d) s segment = some t) (hEnded : s.lifespans i = .ended)
    {beaten : Time} : ⟨beaten, .beat i true⟩ ∉ segment := by
  induction segment generalizing s with
  | nil => exact List.not_mem_nil
  | cons a segment ih =>
      obtain ⟨m, hStep, hRest⟩ := exec_cons.mp hSegment
      intro hMem
      rcases List.mem_cons.mp hMem with rfl | hLater
      · rw [serving_of_beat hStep] at hEnded
        cases hEnded
      · exact ih hRest (ended_step hStep hEnded) hLater

/-- Where no lifespan moves, heartbeats come from the instances that serve. -/
theorem beats_of_serving (hSegment : exec (discoveryStep d) s segment = some t)
    (hFixed : ∀ a ∈ segment, a.action.moves = none) {beaten : Time} (hMem : ⟨beaten, .beat i true⟩ ∈ segment) :
    s.lifespans i = .serving := by
  induction segment generalizing s with
  | nil => cases hMem
  | cons a segment ih =>
      obtain ⟨m, hStep, hRest⟩ := exec_cons.mp hSegment
      obtain ⟨hHere, hLater⟩ := List.forall_mem_cons.mp hFixed
      rcases List.mem_cons.mp hMem with rfl | hMem
      · exact serving_of_beat hStep
      · rw [← lifespans_step hStep (by simp [hHere])]
        exact ih hRest hLater hMem

/-- While nobody comes or goes, the instances that serve renew their entries in time and
the entries of the others have run out, a listing builds a pool of exactly the instances
that serve. -/
theorem pool_exact (hKeys : d.KeysDiffer)
    (hBefore : exec (discoveryStep d) (initial d start configured) before = some s)
    (hSegment : exec (discoveryStep d) s segment = some t) (hFixed : ∀ a ∈ segment, a.action.moves = none)
    (hServing : ∀ i, s.lifespans i = .serving → d.Scans i →
      1 ≤ (d.instances i).ttlSeconds ∧ (d.instances i).url ≠ "" ∧ d.InTime before segment i)
    (hOthers : ∀ i, s.lifespans i ≠ .serving → ¬ d.RegisteredBy before s.now i) (hBuilt : s.begun < t.builtBy)
    (url : String) : url ∈ t.pool ↔ ∃ i, s.lifespans i = .serving ∧ d.Scans i ∧ url = (d.instances i).url := by
  constructor
  · intro hMem
    obtain ⟨-, i, hSource, hScans, rfl⟩ := (traced_run hBefore hSegment).pool hBuilt url hMem
    refine ⟨i, ?_, hScans, rfl⟩
    rcases hSource with ⟨beaten, hBeat⟩ | hRegistered
    · exact beats_of_serving hSegment hFixed hBeat
    · by_contra hStopped
      exact hOthers i hStopped hRegistered
  · rintro ⟨i, hUp, hScans, rfl⟩
    obtain ⟨hTtl, hUrl, hTime⟩ := hServing i hUp hScans
    exact (caught_run hKeys hTtl hUrl hScans hBefore hTime hSegment).pool hBuilt

section Leaving

/-- An instance that removed its entry has ended, and it has not registered again. -/
theorem left_run {now : Time} (hLeft : ⟨now, .leave i true⟩ ∈ before)
    (hBefore : exec (discoveryStep d) (initial d start configured) before = some s) :
    s.lifespans i = .ended ∧ ∀ beaten, ¬ RegisteredAt before i beaten := by
  induction before using List.reverseRecOn generalizing s with
  | nil => cases hLeft
  | append_singleton before a ih =>
      obtain ⟨m, hEarlier, hStep⟩ := exec_concat.mp hBefore
      rcases List.mem_append.mp hLeft with hOld | hNew
      · obtain ⟨hEnded, hNone⟩ := ih hOld hEarlier
        refine ⟨ended_step hStep hEnded, fun beaten hRegistered => ?_⟩
        rcases last_concat.mp hRegistered with rfl | ⟨hBefore, -⟩
        · rw [serving_of_beat hStep] at hEnded
          cases hEnded
        · exact hNone beaten hBefore
      · obtain rfl := List.mem_singleton.mp hNew
        obtain ⟨-, hPerformed⟩ := step_performed hStep
        constructor
        · cases hPerformed with
          | kept hKept hQuiet hStay => exact absurd rfl (hStay i)
          | deregistered => exact Function.update_self (β := fun _ => Lifespan) i .ended _
        · intro beaten hRegistered
          rcases last_concat.mp hRegistered with hSame | ⟨-, hOther⟩
          · cases hSame
          · exact hOther rfl

/-- A listing that begins when an instance has removed its entry, or has ended a time to
live after its last heartbeat, builds no pool with the instance. Only another instance
at the same URL may be there. A heartbeat that was cancelled is taken to have no effect
after the removal: its `SET` does not reach Redis behind the `DEL`. -/
theorem gone_for_good (hBefore : exec (discoveryStep d) (initial d start configured) before = some s)
    (hGone : (∃ now, ⟨now, .leave i true⟩ ∈ before) ∨
      s.lifespans i = .ended ∧ ∀ beaten, RegisteredAt before i beaten → beaten + (d.instances i).ttlSeconds ≤ s.now)
    (hSegment : exec (discoveryStep d) s segment = some t) (hBuilt : s.begun < t.builtBy) {url : String}
    (hMem : url ∈ t.pool) : ∃ j, j ≠ i ∧ d.Scans j ∧ url = (d.instances j).url := by
  have hEnded : s.lifespans i = .ended ∧ ¬ d.RegisteredBy before s.now i := by
    rcases hGone with ⟨now, hLeft⟩ | ⟨hEnded, hDue⟩
    · obtain ⟨hEnded, hNone⟩ := left_run hLeft hBefore
      exact ⟨hEnded, fun ⟨beaten, hRegistered, _⟩ => hNone beaten hRegistered⟩
    · exact ⟨hEnded, fun ⟨beaten, hRegistered, hYoung⟩ => absurd hYoung (not_lt.mpr (hDue beaten hRegistered))⟩
  obtain ⟨-, j, hSource, hScans, rfl⟩ := (traced_run hBefore hSegment).pool hBuilt url hMem
  refine ⟨j, ?_, hScans, rfl⟩
  rintro rfl
  rcases hSource with ⟨beaten, hBeat⟩ | hRegistered
  · exact no_beat_after_end hSegment hEnded.1 hBeat
  · exact hEnded.2 hRegistered

end Leaving

section Refinement

/-- What the gateway does in a step of the system: nothing, or a step of its own. Only
the end of a listing refreshes the pool, and with what it found. -/
def GatewaySteps (d : Deployment Instance Time) (s t : DiscoveryState Instance Time) : Prop :=
  t.gateway = s.gateway ∨ ∃ b : GatewayAction, gatewayStep d.config s.gateway b = some t.gateway ∧ b ≠ .refresh []

omit [DecidableEq Instance] [LinearOrder Time] [Add Time] [One Time] in
theorem gatewaySteps_goOn (d : Deployment Instance Time) (s : DiscoveryState Instance Time) (keys urls : List String) :
    GatewaySteps d s (s.goOn keys urls) := by
  unfold goOn finish
  split
  · split
    · exact Or.inl rfl
    · next hUrls => exact Or.inr ⟨.refresh urls, rfl, by simpa using hUrls⟩
  · exact Or.inl rfl

theorem gatewaySteps_step {a : TimedAction Instance Time} (hStep : discoveryStep d s a = some t) :
    GatewaySteps d s t := by
  obtain ⟨now, action⟩ := a
  obtain ⟨-, hPerformed⟩ := step_performed hStep
  cases hPerformed with
  | kept hKept hQuiet hStay hLifespans hGateway =>
      rcases hGateway with hSame | ⟨b, hFixed, hGateway⟩
      · exact Or.inl hSame
      · refine Or.inr ⟨b, hGateway, ?_⟩
        rintro rfl
        cases hFixed
  | registered => exact Or.inl rfl
  | deregistered => exact Or.inl rfl
  | began => exact Or.inl rfl
  | paged => exact Or.inl rfl
  | scanned => exact gatewaySteps_goOn d (s.settle d now) _ _
  | read => exact gatewaySteps_goOn d (s.settle d now) _ _
  | failed => exact Or.inl rfl
  | cancelled => exact Or.inl rfl

/-- Whatever the registry and the instances do, the gateway makes a run of its balancer,
in which no refresh is empty. -/
theorem gateway_run (hRun : exec (discoveryStep d) (initial d start configured) before = some s) :
    ∃ actions, exec (gatewayStep d.config) (GatewayState.initial configured) actions = some s.gateway ∧
      GatewayAction.refresh [] ∉ actions := by
  induction before using List.reverseRecOn generalizing s with
  | nil =>
      cases hRun
      exact ⟨[], rfl, List.not_mem_nil⟩
  | append_singleton before a ih =>
      obtain ⟨m, hEarlier, hStep⟩ := exec_concat.mp hRun
      obtain ⟨actions, hActions, hSome⟩ := ih hEarlier
      rcases gatewaySteps_step hStep with hSame | ⟨b, hGateway, hOther⟩
      · exact ⟨actions, hSame ▸ hActions, hSome⟩
      · refine ⟨actions ++ [b], exec_concat.mpr ⟨m.gateway, hActions, hGateway⟩, ?_⟩
        rw [List.mem_append, List.mem_singleton, not_or]
        exact ⟨hSome, Ne.symm hOther⟩

/-- The configured pool, or one that a listing built. A listing under way has been
counted. -/
structure Usable (configured : List String) (s : DiscoveryState Instance Time) : Prop where
  counted : s.listing.active = true → s.begun ≠ 0
  nonempty : s.pool ≠ []
  configured : s.builtBy = 0 → s.pool = configured
  nodup : s.builtBy ≠ 0 → s.pool.Nodup

omit [DecidableEq Instance] [LinearOrder Time] [Add Time] [One Time] in
theorem Usable.goOn (h : s.Usable configured) (hActive : s.listing.active = true) (keys urls : List String) :
    (s.goOn keys urls).Usable configured := by
  have hBegun := h.counted hActive
  cases goOn_wentOn s keys urls with
  | further hKeys hListing hBuilt hPool =>
      refine ⟨fun _ => ?_, hPool ▸ h.nonempty, ?_, ?_⟩
      · rw [begun_goOn]
        exact hBegun
      · rw [hBuilt, hPool]
        exact h.configured
      · rw [hBuilt, hPool]
        exact h.nodup
  | nothing hKeys hNone hListing hBuilt hPool =>
      refine ⟨fun _ => ?_, hPool ▸ h.nonempty, ?_, ?_⟩
      · rw [begun_goOn]
        exact hBegun
      · rw [hBuilt, hPool]
        exact h.configured
      · rw [hBuilt, hPool]
        exact h.nodup
  | refreshed hKeys hSome hListing hBuilt hPool =>
      refine ⟨fun _ => ?_, ?_, fun hZero => absurd (hBuilt ▸ hZero) hBegun, fun _ => ?_⟩
      · rw [begun_goOn]
        exact hBegun
      · rw [hPool]
        intro hEmpty
        obtain ⟨url, hMem⟩ := List.exists_mem_of_ne_nil urls hSome
        have hKept := List.mem_eraseDups.mpr hMem
        rw [hEmpty] at hKept
        cases hKept
      · rw [hPool]
        exact nodup_eraseDups urls

theorem usable_step {a : TimedAction Instance Time} (h : s.Usable configured) (hStep : discoveryStep d s a = some t) :
    t.Usable configured := by
  obtain ⟨now, action⟩ := a
  obtain ⟨-, hPerformed⟩ := step_performed hStep
  have hSettled : (s.settle d now).Usable configured := by
    refine ⟨fun hActive => h.counted ?_, h.nonempty, h.configured, h.nodup⟩
    rwa [DiscoveryState.settle, Listing.active_observe] at hActive
  cases hPerformed with
  | kept hKept =>
      refine ⟨?_, ?_, ?_, ?_⟩
      · rw [hKept.listing, hKept.begun]
        exact hSettled.counted
      · rw [hKept.pool]
        exact hSettled.nonempty
      · rw [hKept.builtBy, hKept.pool]
        exact hSettled.configured
      · rw [hKept.builtBy, hKept.pool]
        exact hSettled.nodup
  | registered => exact ⟨hSettled.counted, hSettled.nonempty, hSettled.configured, hSettled.nodup⟩
  | deregistered => exact ⟨hSettled.counted, hSettled.nonempty, hSettled.configured, hSettled.nodup⟩
  | began => exact ⟨fun _ => Nat.succ_ne_zero _, hSettled.nonempty, hSettled.configured, hSettled.nodup⟩
  | paged hScan =>
      exact ⟨fun _ => hSettled.counted (by rw [hScan]; rfl), hSettled.nonempty, hSettled.configured, hSettled.nodup⟩
  | scanned hScan => exact hSettled.goOn (by rw [hScan]; rfl) _ _
  | read hReading => exact hSettled.goOn (by rw [hReading]; rfl) _ _
  | failed => exact ⟨fun hActive => absurd hActive (by simp [Listing.active]), hSettled.nonempty, hSettled.configured, hSettled.nodup⟩
  | cancelled =>
      exact ⟨fun hActive => absurd hActive (by simp [Listing.active]), hSettled.nonempty, hSettled.configured, hSettled.nodup⟩

omit [DecidableEq Instance] [LinearOrder Time] [Add Time] [One Time] in
theorem usable_initial (d : Deployment Instance Time) (start : Time) (hSome : configured ≠ []) :
    (initial d start configured).Usable configured := by
  have hPool : (initial d start configured).pool = configured := Balancer.urls_install ..
  refine ⟨?_, ?_, fun _ => hPool, fun hBuilt => absurd rfl hBuilt⟩
  · unfold initial
    split <;> simp [Listing.active]
  · rw [hPool]
    exact hSome

/-- The pool is the configured one, or the last listing built it of what has registered. -/
theorem usable_pool (settings : UpstreamSettings)
    (hRun : exec (discoveryStep d) (initial d start settings.upstreamList) before = some s) :
    s.pool ≠ [] ∧ (s.pool = settings.upstreamList ∨ s.pool.Nodup ∧ ∀ url ∈ s.pool, ∃ i beaten,
      ⟨beaten, .beat i true⟩ ∈ before ∧ d.Scans i ∧ url = (d.instances i).url) := by
  have hUsable : s.Usable settings.upstreamList :=
    invariant (fun _ _ _ => usable_step) (usable_initial d start settings.upstreamList_ne_nil) hRun
  refine ⟨hUsable.nonempty, ?_⟩
  by_cases hBuilt : s.builtBy = 0
  · exact Or.inl (hUsable.configured hBuilt)
  · refine Or.inr ⟨hUsable.nodup hBuilt, fun url hMem => ?_⟩
    have hStart : exec (discoveryStep d) (initial d start settings.upstreamList) [] =
        some (initial d start settings.upstreamList) := rfl
    obtain ⟨-, i, hSource, hScans, hUrl⟩ := (traced_run hStart hRun).pool (Nat.pos_of_ne_zero hBuilt) url hMem
    rcases hSource with ⟨beaten, hBeat⟩ | ⟨beaten, hRegistered, -⟩
    · exact ⟨i, beaten, hBeat, hScans, hUrl⟩
    · exact absurd hRegistered not_last_nil

/-- The pool is never empty, so that no request is without a turn. It is the configured
one, or it has, once each, URLs of instances that have registered. -/
theorem pool_usable (settings : UpstreamSettings)
    (hRun : exec (discoveryStep d) (initial d start settings.upstreamList) before = some s) :
    s.pool ≠ [] ∧ (s.pool = settings.upstreamList ∨ s.pool.Nodup ∧ ∀ url ∈ s.pool, ∃ i beaten,
      ⟨beaten, .beat i true⟩ ∈ before ∧ d.Scans i ∧ url = (d.instances i).url) :=
  usable_pool settings hRun

/-- Under discovery too a request is sent to no instance twice, and only to configured
ones and to those that have registered, whoever comes and goes while it is under way. -/
theorem contacts_discovered (settings : UpstreamSettings)
    (hRun : exec (discoveryStep d) (initial d start settings.upstreamList) before = some s) (c : CallId) :
    (s.gateway.contacts c).Nodup ∧ ∀ url ∈ s.gateway.contacts c, url ∈ settings.upstreamList ∨ ∃ i beaten,
      ⟨beaten, .beat i true⟩ ∈ before ∧ d.Scans i ∧ url = (d.instances i).url := by
  constructor
  · obtain ⟨actions, hActions, -⟩ := gateway_run hRun
    have hOnce : TriesOnce s.gateway c := invariant (I := fun g => TriesOnce g c)
      (fun _ _ _ inv h => (triesOnce_step h c inv).1) (triesOnce_initial settings.upstreamList c) hActions
    exact hOnce.nodup
  · induction before using List.reverseRecOn generalizing s with
    | nil =>
        cases hRun
        exact fun url hMem => absurd hMem List.not_mem_nil
    | append_singleton before a ih =>
        obtain ⟨m, hEarlier, hStep⟩ := exec_concat.mp hRun
        intro url hMem
        have hSource : url ∈ m.gateway.contacts c ∨ url ∈ m.pool := by
          rcases gatewaySteps_step hStep with hSame | ⟨b, hGateway, -⟩
          · exact Or.inl (hSame ▸ hMem)
          · obtain ⟨actions, hActions, -⟩ := gateway_run hEarlier
            have hCovers : m.gateway.balancer.Covers := invariant (I := fun g => g.balancer.Covers)
              (fun _ _ _ inv h => step_covers h inv) (covers_initial settings.upstreamList) hActions
            exact mem_contacts_step hGateway hCovers hMem
        have hKnown : url ∈ settings.upstreamList ∨ ∃ i beaten, ⟨beaten, .beat i true⟩ ∈ before ∧ d.Scans i ∧
            url = (d.instances i).url := by
          rcases hSource with hContacted | hPooled
          · exact ih hEarlier url hContacted
          · rcases (usable_pool settings hEarlier).2 with hConfigured | ⟨-, hRegistered⟩
            · exact Or.inl (hConfigured ▸ hPooled)
            · exact Or.inr (hRegistered url hPooled)
        refine hKnown.imp_right ?_
        rintro ⟨i, beaten, hBeat, hOwn⟩
        exact ⟨i, beaten, List.mem_append_left _ hBeat, hOwn⟩

end Refinement

section Examples

theorem pool_exact_handover : ∃ s t, exec (discoveryStep handover) (initial handover 0 ["http://c:1"]) arrivals = some s ∧
    exec (discoveryStep handover) s relisting = some t ∧
    ∀ url, url ∈ t.pool ↔ ∃ i, s.lifespans i = .serving ∧ handover.Scans i ∧ url = (handover.instances i).url := by
  obtain ⟨s, t, hBefore, hSegment, hBuilt, hZero, hOne⟩ : ∃ s t,
      exec (discoveryStep handover) (initial handover 0 ["http://c:1"]) arrivals = some s ∧
        exec (discoveryStep handover) s relisting = some t ∧ s.begun < t.builtBy ∧ s.lifespans 0 = .serving ∧
          s.lifespans 1 = .ended := ⟨_, _, rfl, rfl, by decide, rfl, rfl⟩
  refine ⟨s, t, hBefore, hSegment, pool_exact keysDiffer_handover hBefore hSegment (by decide) ?_ ?_ hBuilt⟩
  · intro i hUp hScans
    obtain rfl | rfl : i = 0 ∨ i = 1 := by omega
    · exact ⟨by decide, by decide, inTime_relisting⟩
    · rw [hOne] at hUp
      cases hUp
  · intro i hDown
    obtain rfl | rfl : i = 0 ∨ i = 1 := by omega
    · exact absurd hZero hDown
    · rintro ⟨beaten, hRegistered, -⟩
      have hLeft : ⟨13, .leave 1 true⟩ ∈ arrivals := by simp [arrivals]
      exact (left_run hLeft hBefore).2 beaten hRegistered

theorem gone_for_good_handover : ∃ t,
    exec (discoveryStep handover) (initial handover 0 ["http://c:1"]) (arrivals ++ relisting) = some t ∧
      ∀ url ∈ t.pool, ∃ j : Fin 2, j ≠ 1 ∧ handover.Scans j ∧ url = (handover.instances j).url := by
  obtain ⟨s, t, hBefore, hSegment, hBuilt⟩ : ∃ s t,
      exec (discoveryStep handover) (initial handover 0 ["http://c:1"]) arrivals = some s ∧
        exec (discoveryStep handover) s relisting = some t ∧ s.begun < t.builtBy := ⟨_, _, rfl, rfl, by decide⟩
  refine ⟨t, exec_append.mpr ⟨s, hBefore, hSegment⟩, fun url hMem => ?_⟩
  exact gone_for_good hBefore (Or.inl ⟨13, by simp [arrivals]⟩) hSegment hBuilt hMem

/-- One request comes before the listing, and one after it. -/
def requests : List (TimedAction (Fin 2) Int) :=
  [⟨13, .traffic (.request 0 fun _ => 13)⟩] ++ relisting ++ [⟨17, .traffic (.request 1 fun _ => 17)⟩]

theorem contacts_discovered_handover : ∃ s, exec (discoveryStep handover)
    (initial handover 0 (UpstreamSettings.upstreamList ⟨"http://localhost:8100", "http://c:1,http://d:1"⟩))
      (arrivals ++ requests) = some s ∧
      s.gateway.contacts 0 = ["http://c:1"] ∧ s.gateway.contacts 1 = ["http://a:1"] ∧
      ∀ c, (s.gateway.contacts c).Nodup ∧ ∀ url ∈ s.gateway.contacts c, url ∈ ["http://c:1", "http://d:1"] ∨
        ∃ i beaten, ⟨beaten, .beat i true⟩ ∈ arrivals ++ requests ∧ handover.Scans i ∧
          url = (handover.instances i).url := by
  obtain ⟨s, hRun, hFirst, hSecond⟩ : ∃ s, exec (discoveryStep handover)
      (initial handover 0 (UpstreamSettings.upstreamList ⟨"http://localhost:8100", "http://c:1,http://d:1"⟩))
        (arrivals ++ requests) = some s ∧
        s.gateway.contacts 0 = ["http://c:1"] ∧ s.gateway.contacts 1 = ["http://a:1"] := ⟨_, rfl, rfl, rfl⟩
  exact ⟨s, hRun, hFirst, hSecond, contacts_discovered ⟨"http://localhost:8100", "http://c:1,http://d:1"⟩ hRun⟩

theorem pool_usable_handover : ∃ s, exec (discoveryStep handover)
    (initial handover 0 (UpstreamSettings.upstreamList ⟨"http://localhost:8100", "http://c:1, http://c:1"⟩))
      (arrivals ++ relisting) = some s ∧ s.pool = ["http://a:1"] ∧
      s.pool ≠ [] ∧ (s.pool = ["http://c:1", "http://c:1"] ∨ s.pool.Nodup ∧ ∀ url ∈ s.pool, ∃ i beaten,
        ⟨beaten, .beat i true⟩ ∈ arrivals ++ relisting ∧ handover.Scans i ∧ url = (handover.instances i).url) := by
  obtain ⟨s, hRun, hPool⟩ : ∃ s, exec (discoveryStep handover)
      (initial handover 0 (UpstreamSettings.upstreamList ⟨"http://localhost:8100", "http://c:1, http://c:1"⟩))
        (arrivals ++ relisting) = some s ∧ s.pool = ["http://a:1"] := ⟨_, rfl, rfl⟩
  exact ⟨s, hRun, hPool, pool_usable ⟨"http://localhost:8100", "http://c:1, http://c:1"⟩ hRun⟩

end Examples

end DiscoveryState

end ServicePlatform.Gateway
