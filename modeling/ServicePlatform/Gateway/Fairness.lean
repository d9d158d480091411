import ServicePlatform.Gateway.PoolConstruction
import ServicePlatform.Rotation.Rounds

/-! Round-robin while the discovery loop refreshes the pool. With all instances
healthy each request goes to the place that comes up, and a refresh puts the
rotation back to the first place even where the list is the one the pool has. So
requests and refreshes are the picks and restarts of a sequence of turns. -/
namespace ServicePlatform.Gateway

open Rotation

/-- A request, or a refresh of the discovery loop with the list of the pool. -/
inductive Traffic where
  | request (demand : Demand)
  | refresh

namespace Traffic

def isRequest : Traffic → Bool
  | .request _ => true
  | .refresh => false

def turn : Traffic → Turn
  | .request _ => .pick
  | .refresh => .reset

end Traffic

/-- The balancer, and the instances that requests were sent to, in order. -/
structure Carried where
  balancer : Balancer
  sent : List String

def Carried.step (config : BalancerConfig) (urls : List String) (s : Carried) : Traffic → Carried
  | .request demand =>
      let run := s.balancer.request config demand.outcomes demand.clock
      ⟨run.balancer, s.sent ++ run.contacts⟩
  | .refresh => ⟨s.balancer.refresh urls, s.sent⟩

def carry (config : BalancerConfig) (urls : List String) (events : List Traffic) : Carried :=
  events.foldl (Carried.step config urls) ⟨.new urls, []⟩

/-- After any number of requests the numbers of requests sent to two instances
differ by at most one. -/
def FairTraffic (config : BalancerConfig) (urls : List String) (events : List Traffic) : Prop :=
  ∀ before after, events = before ++ after → ∀ url ∈ urls, ∀ other ∈ urls,
    (carry config urls before).sent.count url ≤ (carry config urls before).sent.count other + 1

/-- Each request finds every instance answering below 500. -/
def Answering (urls : List String) (events : List Traffic) : Prop :=
  ∀ demand, .request demand ∈ events → ∀ url ∈ urls, ∃ reply, Answers demand.outcomes url reply

/-- Every instance of the pool is healthy and has no failures. -/
structure AllHealthy (urls : List String) (b : Balancer) : Prop where
  wellFormed : b.WellFormed
  pool : b.urls = urls
  fresh : ∀ url ∈ urls, b.health url = some .fresh

section Steps

variable {config : BalancerConfig} {urls : List String} {b : Balancer} {outcomes : String → UpstreamOutcome}
  {clock : Nat → Reading}

/-- The place that comes up is picked at once. -/
theorem AllHealthy.next (h : AllHealthy urls b) (config : BalancerConfig) (places : Nat → Clock)
    (hPlace : b.pool.position < urls.length) :
    (b.next config places).1 = .picked urls[b.pool.position] ∧
      (b.next config places).2.pool = b.pool.advance 1 := by
  have hItems : b.pool.items = urls := h.pool
  have hMem : urls[b.pool.position] ∈ b.urls := h.pool ▸ List.getElem_mem hPlace
  have hUp : b.pool.upcoming[0]? = some urls[b.pool.position] := by
    have hLength : 0 < b.pool.items.length := by
      rw [hItems]
      omega
    rw [Wheel.upcoming, List.getElem?_rotate hLength, hItems, Nat.zero_add, Nat.mod_eq_of_lt hPlace]
    exact List.getElem?_eq_getElem hPlace
  have hHealthy : b.healthy urls[b.pool.position] = true := by
    unfold Balancer.healthy
    rw [h.fresh _ (List.getElem_mem hPlace)]
    rfl
  have hStops : Wheel.Stops (b.stopsAt config places) b.pool 0 urls[b.pool.position] := by
    constructor
    · exact hUp
    · exact (Balancer.stopsAt_iff h.wellFormed.covers hMem).mpr (Balancer.isAvailable_healthy hHealthy)
    · exact fun j hj => absurd hj (Nat.not_lt_zero j)
  exact ⟨(Balancer.next_picked h.wellFormed.covers).mpr (Wheel.next_some.mpr ⟨0, hStops⟩),
    congrArg Prod.snd hStops.next⟩

/-- A request goes to the place that comes up, and to no other. -/
theorem AllHealthy.request (h : AllHealthy urls b) (config : BalancerConfig) (clock : Nat → Reading)
    (hPlace : b.pool.position < urls.length)
    (hAnswers : ∀ url ∈ urls, ∃ reply, Answers outcomes url reply) :
    (b.request config outcomes clock).contacts = [urls[b.pool.position]] ∧
      (b.request config outcomes clock).balancer.pool = b.pool.advance 1 ∧
      AllHealthy urls (b.request config outcomes clock).balancer := by
  have hTries : Balancer.Tries config outcomes clock [] none b.urls.length b (b.request config outcomes clock) :=
    Balancer.tries_requestLoop h.wellFormed [] none b.urls.length
  obtain ⟨hWellFormed, hUrls⟩ := Balancer.request_wellFormed config outcomes clock h.wellFormed
  obtain ⟨hNext, hPool⟩ := h.next config (clock 0).scan hPlace
  obtain ⟨reply, hReply⟩ := hAnswers _ (List.getElem_mem hPlace)
  have hTurns : b.urls.length ≠ 0 := by
    rw [h.pool]
    omega
  generalize b.request config outcomes clock = run at hTries hWellFormed hUrls ⊢
  generalize b.urls.length = left at hTries hTurns
  cases hTries with
  | outOfTurns => exact absurd rfl hTurns
  | unavailable hNone => cases hNext.symm.trans hNone
  | repeated _ hTried => cases hTried
  | retried hPicked _ hError =>
      cases hNext.symm.trans hPicked
      exact absurd hReply (fails_of_error hError reply)
  | returned hPicked _ _ hRecord =>
      cases hNext.symm.trans hPicked
      refine ⟨rfl, (Balancer.recordSuccess_frame hRecord).1.trans hPool, hWellFormed, hUrls.trans h.pool, ?_⟩
      intro url hMem
      rw [Balancer.recordSuccess_health (h.wellFormed.next _ _).distinct hRecord]
      split
      · rfl
      · exact h.fresh url hMem

/-- An instance that remains in the pool keeps its health. -/
theorem health_install (h : b.WellFormed) {url : String} {state : InstanceHealth} (hMem : url ∈ urls)
    (hOld : b.health url = some state) : (Balancer.install b.states urls b).health url = some state := by
  have hAdopted := adopted_install h.bound h.distinct urls
  obtain ⟨object, hObject, hState⟩ := Option.map_eq_some_iff.mp hOld
  have hKnown : (Balancer.install b.states urls b).states url ≠ none := by
    rw [Balancer.covers_install b.states urls b url, Balancer.urls_install]
    exact hMem
  obtain ⟨object', hObject'⟩ := Option.ne_none_iff_exists'.mp hKnown
  rcases (hAdopted.referred url object' hObject').2 with hSame | ⟨hNew, -⟩
  · cases hObject.symm.trans hSame
    unfold Balancer.health
    rw [hObject', Option.map_some, hAdopted.kept object (h.bound url object hObject), hState]
  · rw [hObject] at hNew
    cases hNew

/-- A refresh with the same list only puts the rotation back. -/
theorem AllHealthy.refresh (h : AllHealthy urls b) (hNodup : urls.Nodup) (hUrls : urls ≠ []) :
    (b.refresh urls).pool.position = 0 ∧ AllHealthy urls (b.refresh urls) := by
  have hInstalled : b.refresh urls = Balancer.install b.states urls b := by
    unfold Balancer.refresh
    rw [if_neg hUrls, eraseDups_of_nodup hNodup]
  rw [hInstalled]
  refine ⟨congrArg Wheel.position (Balancer.pool_install ..), ?_, Balancer.urls_install .., ?_⟩
  · exact .install h.wellFormed.bound h.wellFormed.distinct urls
  · exact fun url hMem => health_install h.wellFormed hMem (h.fresh url hMem)

end Steps

section Traffic

variable {config : BalancerConfig} {urls : List String} {events : List Traffic}

theorem carry_concat (event : Traffic) :
    carry config urls (events ++ [event]) = (carry config urls events).step config urls event := by
  simp [carry]

/-- The traffic follows the turns: the rotation stands at the place that comes
up, and each instance was sent the requests of its place. -/
structure Follows (urls : List String) (s : Carried) (tally : Tally) : Prop where
  healthy : AllHealthy urls s.balancer
  position : s.balancer.pool.position = tally.place
  inside : tally.place < urls.length
  sent : ∀ i (hi : i < urls.length), s.sent.count urls[i] = tally.counts i

theorem follows_new (hUrls : urls ≠ []) : Follows urls ⟨.new urls, []⟩ ⟨0, fun _ => 0⟩ where
  healthy := ⟨Balancer.wellFormed_new urls, Balancer.urls_install .., fun _ hMem => Balancer.health_new hMem⟩
  position := congrArg Wheel.position (Balancer.pool_install ..)
  inside := List.length_pos_of_ne_nil hUrls
  sent := fun _ _ => List.count_nil

theorem Follows.step {s : Carried} {tally : Tally} (h : Follows urls s tally) (hNodup : urls.Nodup)
    (hUrls : urls ≠ []) {event : Traffic} (hAnswering : Answering urls [event]) :
    Follows urls (s.step config urls event) (tally.step urls.length event.turn) := by
  have hPositive : 0 < urls.length := List.length_pos_of_ne_nil hUrls
  cases event with
  | request demand =>
      have hPlace : s.balancer.pool.position < urls.length := h.position ▸ h.inside
      obtain ⟨hContacts, hPool, hHealthy⟩ := h.healthy.request config demand.clock hPlace
        (hAnswering demand (List.mem_singleton_self _))
      constructor
      · exact hHealthy
      · show (s.balancer.request config demand.outcomes demand.clock).balancer.pool.position = _
        rw [hPool, Wheel.advance, h.position]
        exact congrArg (fun items => (tally.place + 1) % List.length items) h.healthy.pool
      · exact Nat.mod_lt _ hPositive
      · intro i hi
        show (s.sent ++ (s.balancer.request config demand.outcomes demand.clock).contacts).count urls[i] =
          Function.update tally.counts tally.place (tally.counts tally.place + 1) i
        rw [hContacts, List.count_append, h.sent i hi]
        by_cases hSame : i = tally.place
        · have hHere : urls[s.balancer.pool.position] = urls[i] :=
            getElem_congr_idx (h.position.trans hSame.symm)
          rw [hHere, List.count_singleton_self, hSame, Function.update_self]
        · have hOther : urls[i] ≠ urls[s.balancer.pool.position] := by
            intro he
            exact hSame ((hNodup.getElem_inj_iff.mp he).trans h.position)
          rw [List.count_eq_zero.mpr fun hIn => hOther (List.mem_singleton.mp hIn), Function.update_of_ne hSame]
          rfl
  | refresh =>
      obtain ⟨hPosition, hHealthy⟩ := h.healthy.refresh hNodup hUrls
      exact ⟨hHealthy, hPosition, hPositive, h.sent⟩

theorem follows_carry (config : BalancerConfig) (hNodup : urls.Nodup) (hUrls : urls ≠ [])
    (hAnswering : Answering urls events) :
    Follows urls (carry config urls events) (tally urls.length (events.map Traffic.turn)) := by
  induction events using List.reverseRecOn with
  | nil => exact follows_new hUrls
  | append_singleton events event ih =>
      rw [carry_concat, List.map_append, List.map_singleton, tally_concat]
      apply Follows.step _ hNodup hUrls
      · exact fun demand hMem => hAnswering demand (List.mem_append_right _ hMem)
      · exact ih fun demand hMem => hAnswering demand (List.mem_append_left _ hMem)

/-- Two instances were sent equally many requests, up to one, exactly when their
places came up so. -/
theorem balanced_iff (hNodup : urls.Nodup) (hUrls : urls ≠ []) (hAnswering : Answering urls events) :
    (∀ url ∈ urls, ∀ other ∈ urls, (carry config urls events).sent.count url ≤
      (carry config urls events).sent.count other + 1) ↔
    (tally urls.length (events.map Traffic.turn)).Balanced urls.length := by
  have hFollows := follows_carry config hNodup hUrls hAnswering
  constructor
  · intro h i hi j hj
    rw [← hFollows.sent i hi, ← hFollows.sent j hj]
    exact h _ (List.getElem_mem hi) _ (List.getElem_mem hj)
  · intro h url hUrl other hOther
    obtain ⟨i, hi, rfl⟩ := List.getElem_of_mem hUrl
    obtain ⟨j, hj, rfl⟩ := List.getElem_of_mem hOther
    rw [hFollows.sent i hi, hFollows.sent j hj]
    exact h i hi j hj

theorem fairTraffic_iff (hNodup : urls.Nodup) (hUrls : urls ≠ []) (hAnswering : Answering urls events) :
    FairTraffic config urls events ↔ Fair urls.length (events.map Traffic.turn) := by
  have hPrefix : ∀ before after, events = before ++ after → Answering urls before := by
    rintro before after rfl demand hMem
    exact hAnswering demand (List.mem_append_left _ hMem)
  constructor
  · intro h turns later hSplit
    obtain ⟨before, after, hEvents, rfl, rfl⟩ := List.map_eq_append_iff.mp hSplit
    exact (balanced_iff hNodup hUrls (hPrefix before after hEvents)).mp (h before after hEvents)
  · intro h before after hEvents
    apply (balanced_iff hNodup hUrls (hPrefix before after hEvents)).mpr
    exact h (before.map Traffic.turn) (after.map Traffic.turn) (by rw [hEvents, List.map_append])

theorem picks_map (events : List Traffic) : picks (events.map Traffic.turn) = events.countP Traffic.isRequest := by
  unfold picks
  rw [List.count_eq_countP, List.countP_map]
  apply List.countP_congr
  intro event _
  cases event <;> simp [Traffic.turn, Traffic.isRequest]

theorem even_map (n : Nat) (events : List Traffic) : Even n (events.map Traffic.turn) ↔
    ∀ before after, events = before ++ .refresh :: after → (∃ demand, .request demand ∈ after) →
      n ∣ before.countP Traffic.isRequest := by
  have hPick : ∀ events : List Traffic, .pick ∈ events.map Traffic.turn ↔
      ∃ demand, .request demand ∈ events := by
    intro events
    rw [List.mem_map]
    constructor
    · rintro ⟨event, hMem, hTurn⟩
      cases event with
      | request demand => exact ⟨demand, hMem⟩
      | refresh => cases hTurn
    · rintro ⟨demand, hMem⟩
      exact ⟨_, hMem, rfl⟩
  constructor
  · rintro h before after rfl hLater
    rw [← picks_map]
    exact h _ (after.map Traffic.turn) (by simp [Traffic.turn]) ((hPick after).mpr hLater)
  · intro h turns later hSplit hLater
    obtain ⟨before, rest, rfl, rfl, hRest⟩ := List.map_eq_append_iff.mp hSplit
    obtain ⟨event, after, rfl, hTurn, rfl⟩ := List.map_eq_cons_iff.mp hRest
    cases event with
    | request demand => cases hTurn
    | refresh =>
        rw [picks_map]
        exact h before after rfl ((hPick after).mp hLater)

end Traffic

/-- With all instances healthy and answering, the requests are spread evenly
over the instances at all times exactly when each refresh that is followed by a
request comes after a whole number of rounds. -/
theorem fair_across_refresh_iff {config : BalancerConfig} {urls : List String} {events : List Traffic}
    (hNodup : urls.Nodup) (hAnswering : Answering urls events) :
    FairTraffic config urls events ↔ urls = [] ∨
      ∀ before after, events = before ++ .refresh :: after → (∃ demand, .request demand ∈ after) →
        urls.length ∣ before.countP Traffic.isRequest := by
  by_cases hUrls : urls = []
  · apply iff_of_true _ (Or.inl hUrls)
    intro before after _ url hUrl
    rw [hUrls] at hUrl
    cases hUrl
  · rw [fairTraffic_iff hNodup hUrls hAnswering, fair_iff_even (List.length_pos_of_ne_nil hUrls), even_map,
      or_iff_right hUrls]

/-- Every instance answers with 200. -/
def served : Demand := ⟨fun _ => .response ⟨200, [], []⟩, fun _ => ⟨fun _ => 0, 0⟩⟩

theorem answering_served (urls : List String) {events : List Traffic}
    (h : ∀ demand, .request demand ∈ events → demand = served) : Answering urls events := by
  intro demand hMem url _
  rw [h demand hMem]
  exact ⟨_, rfl, by decide⟩

theorem fair_across_refresh_afterRound :
    FairTraffic .default ["a", "b"] [.request served, .request served, .refresh, .request served] := by
  have hNodup : ["a", "b"].Nodup := by decide
  have hAnswering : Answering ["a", "b"] [.request served, .request served, .refresh, .request served] := by
    apply answering_served
    intro demand hMem
    simpa using hMem
  apply (fair_across_refresh_iff hNodup hAnswering).mpr
  right
  intro before after hSplit _
  rcases before with _ | ⟨_, _ | ⟨_, _ | ⟨_, _ | ⟨_, before⟩⟩⟩⟩
  · cases hSplit
  · cases hSplit
  · cases hSplit
    decide
  · cases hSplit
  · simp at hSplit

/-- The discovery loop refreshes the pool between two requests, and both go to
the first of two instances. -/
theorem refresh_restarts_rotation :
    Answering ["a", "b"] [.request served, .refresh, .request served] ∧
      (carry .default ["a", "b"] [.request served, .refresh, .request served]).sent = ["a", "a"] ∧
      ¬ FairTraffic .default ["a", "b"] [.request served, .refresh, .request served] := by
  have hSent : (carry .default ["a", "b"] [.request served, .refresh, .request served]).sent = ["a", "a"] := by
    decide +kernel
  refine ⟨answering_served _ fun demand hMem => by simpa using hMem, hSent, ?_⟩
  intro hFair
  have hCounts := hFair _ [] (List.append_nil _).symm "a" (by decide) "b" (by decide)
  rw [hSent] at hCounts
  exact absurd hCounts (by decide)

end ServicePlatform.Gateway
