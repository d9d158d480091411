import ServicePlatform.Gateway.SoloRequest

/-! The two ways to build a pool. The constructor takes the list of URLs as it
is, while a refresh removes the duplicates. The state map has one record for
each URL in both, so the difference shows in the turns: a request to a pool with
duplicates has more turns than instances. -/
namespace ServicePlatform.Gateway

/-- One of the requests that follow: the outcome that each instance would give,
and the clock. -/
structure Demand where
  outcomes : String → UpstreamOutcome
  clock : Nat → Reading

/-- The requests come one after another, and the clock does not go back. -/
structure InOrder (demands : List Demand) : Prop where
  ticking : ∀ demand ∈ demands, Ticking demand.clock
  ordered : demands.Pairwise fun demand later =>
    ∀ k i, (demand.clock k).recorded ≤ (later.clock 0).scan i

/-- What the users see of a sequence of requests: the instances contacted, in
order, and the results. -/
def Balancer.requests (config : BalancerConfig) : Balancer → List Demand → List (List String × RequestResult)
  | _, [] => []
  | b, demand :: demands =>
      let run := b.request config demand.outcomes demand.clock
      (run.contacts, run.result) :: requests config run.balancer demands

section EraseDups

variable {α : Type*} [DecidableEq α]

theorem nodup_eraseDups (as : List α) : as.eraseDups.Nodup := by
  induction hLength : as.length using Nat.strong_induction_on generalizing as with
  | _ n ih =>
      cases as with
      | nil => simp
      | cons a as =>
          have hShort : (as.filter fun b => !b == a).length < n := by
            have hFilter := List.length_filter_le (fun b => !b == a) as
            rw [← hLength, List.length_cons]
            omega
          rw [List.eraseDups_cons, List.nodup_cons]
          refine ⟨?_, ih _ hShort _ rfl⟩
          simp [List.mem_eraseDups]

theorem eraseDups_of_nodup {as : List α} (h : as.Nodup) : as.eraseDups = as := by
  induction as with
  | nil => rfl
  | cons a as ih =>
      obtain ⟨hNew, hRest⟩ := List.nodup_cons.mp h
      have hKept : (as.filter fun b => !b == a) = as := by
        apply List.filter_eq_self.mpr
        intro b hb
        have hOther : b ≠ a := fun he => hNew (he ▸ hb)
        simpa using hOther
      rw [List.eraseDups_cons, hKept, ih hRest]

theorem length_eraseDups_lt {as : List α} (h : ¬ as.Nodup) : as.eraseDups.length < as.length := by
  by_contra hLong
  have hSubperm : as.eraseDups.Subperm as :=
    List.subperm_of_subset (nodup_eraseDups as) fun _ ha => List.mem_eraseDups.mp ha
  have hPerm := hSubperm.perm_of_length_le (Nat.le_of_not_lt hLong)
  exact h (hPerm.nodup_iff.mp (nodup_eraseDups as))

end EraseDups

namespace Balancer

variable {config : BalancerConfig} {outcomes : String → UpstreamOutcome} {clock : Nat → Reading}
  {b : Balancer} {tried : List String} {lastError : Option String} {left : Nat} {run : RequestRun}

/-- A refresh of an empty balancer is a construction without the duplicates. -/
theorem refresh_new {urls : List String} (h : urls ≠ []) : (new []).refresh urls = new urls.eraseDups := by
  unfold refresh
  rw [if_neg h]
  rfl

theorem mem_of_tries (h : Tries config outcomes clock tried lastError left b run) {url : String}
    (hTried : url ∈ tried) : url ∈ run.contacts := by
  induction h with
  | outOfTurns => exact hTried
  | unavailable => exact hTried
  | repeated => exact hTried
  | returned => exact List.mem_append_left _ hTried
  | retried _ _ _ _ _ ih => exact ih (List.mem_append_left _ hTried)

/-- A request records one outcome for each instance it contacts. -/
theorem tries_kept (hWellFormed : b.WellFormed) (h : Tries config outcomes clock tried lastError left b run)
    {url : String} (hOther : url ∈ tried ∨ url ∉ run.contacts) :
    run.balancer.health url = b.health url := by
  induction h with
  | outOfTurns => rfl
  | unavailable => rfl
  | repeated => rfl
  | @returned tried lastError left b b' picked response hPicked hUntried hOk hRecord =>
      have hNe : url ≠ picked := by
        rintro rfl
        rcases hOther with hTried | hNew
        · exact hUntried hTried
        · exact hNew (List.mem_append_right _ (List.mem_singleton_self url))
      rw [recordSuccess_health (hWellFormed.next _ _).distinct hRecord, if_neg hNe]
      rfl
  | @retried tried lastError left b b' picked error run hPicked hUntried hError hRecord hRest ih =>
      have hNe : url ≠ picked := by
        rintro rfl
        rcases hOther with hTried | hNew
        · exact hUntried hTried
        · exact hNew (mem_of_tries hRest (List.mem_append_right _ (List.mem_singleton_self url)))
      have hOther' : url ∈ tried ++ [picked] ∨ url ∉ run.contacts :=
        hOther.imp_left fun hTried => List.mem_append_left _ hTried
      rw [ih ((hWellFormed.next _ _).recordFailure hRecord) hOther',
        recordFailure_health (hWellFormed.next _ _).distinct hRecord, if_neg hNe]
      rfl

/-- Where no instance answers, each contact is one more failure. -/
theorem tries_health {now : Clock} (hFails : ∀ url, Fails outcomes url)
    (hClock : ∀ k, (clock k).recorded = now) (hWellFormed : b.WellFormed)
    (h : Tries config outcomes clock tried lastError left b run) {url : String} (hUntried : url ∉ tried)
    (hContact : url ∈ run.contacts) :
    run.balancer.health url = (b.health url).map (InstanceHealth.failed config now) := by
  induction h with
  | outOfTurns => exact absurd hContact hUntried
  | unavailable => exact absurd hContact hUntried
  | repeated => exact absurd hContact hUntried
  | returned _ _ hOk => exact absurd (result_ok.mp hOk) (hFails _ _)
  | @retried tried lastError left b b' picked error run hPicked hNew hError hRecord hRest ih =>
      have hNext := hWellFormed.next config (clock tried.length).scan
      have hThen := recordFailure_health hNext.distinct hRecord url
      by_cases hSame : url = picked
      · have hTried : url ∈ tried ++ [picked] := by simp [hSame]
        rw [tries_kept (hNext.recordFailure hRecord) hRest (Or.inl hTried), hThen, if_pos hSame, hSame, hClock]
        rfl
      · have hLater : url ∉ tried ++ [picked] := by simp [hUntried, hSame]
        rw [ih (hNext.recordFailure hRecord) hLater hContact, hThen, if_neg hSame]
        rfl

/-- What `_next` picks is available as it looks at it. -/
theorem available_of_picked (hCovers : b.Covers) {places : Nat → Clock} {url : String}
    (hPicked : (b.next config places).1 = .picked url) : ∃ i, b.availableAt config (places i) url = true := by
  obtain ⟨i, hStops⟩ := Rotation.Wheel.next_some.mp ((next_picked hCovers).mp hPicked)
  have hNow := (stopsAt_iff hCovers (next_picked_mem hCovers hPicked)).mp hStops.accepted
  exact ⟨i, beq_iff_eq.mpr hNow⟩

/-- What the error of a request says: that `_next` found no instance while there
were turns left, or that the turns are over, or that `_next` picked an instance
of which the request had recorded the failure. -/
theorem tries_message (hWellFormed : b.WellFormed)
    (h : Tries config outcomes clock tried lastError left b run) {message : String}
    (hRaised : run.result = .raised message) :
    (message = noneAvailable ∧ run.contacts.length < tried.length + left) ∨
      ∃ error, message = exhausted error ∧ (run.contacts.length = tried.length + left ∨
        ∃ url ∈ run.contacts, ∃ k i, run.balancer.availableAt config ((clock k).scan i) url = true) := by
  induction h with
  | outOfTurns =>
      cases hRaised
      exact Or.inr ⟨_, rfl, Or.inl rfl⟩
  | unavailable =>
      cases hRaised
      exact Or.inl ⟨rfl, by simp⟩
  | @repeated tried lastError left b url hPicked hTried =>
      cases hRaised
      obtain ⟨i, hAvailable⟩ := available_of_picked hWellFormed.covers hPicked
      exact Or.inr ⟨_, rfl, Or.inr ⟨url, hTried, _, i, hAvailable⟩⟩
  | returned => cases hRaised
  | retried _ _ _ hRecord _ ih =>
      have hRest := ih ((hWellFormed.next _ _).recordFailure hRecord) hRaised
      rw [List.length_append, List.length_singleton, Nat.add_assoc, Nat.add_comm 1] at hRest
      exact hRest

end Balancer

/-- No instance answers, and the clock stands at 0. -/
def outage : Demand := ⟨unreachable, fun _ => ⟨fun _ => 0, 0⟩⟩

/-- The health of an instance after a number of failures at 0. -/
def worn (failures : Nat) : InstanceHealth := (InstanceHealth.failed .default 0)^[failures] .fresh

theorem worn_succ (failures : Nat) : worn (failures + 1) = (worn failures).failed .default 0 :=
  Function.iterate_succ_apply' ..

theorem worn_available {failures : Nat} (h : failures < 3) : (worn failures).available .default 0 = true := by
  match failures, h with
  | 0, _ => rfl
  | 1, _ => rfl
  | 2, _ => rfl

theorem worn_three : (worn 3).available .default 0 = false := rfl

/-- The request of an outage. -/
def Balancer.suffer (b : Balancer) : RequestRun := b.request .default outage.outcomes outage.clock

/-- Each instance of the pool has had the same number of failures. -/
def Worn (failures : Nat) (b : Balancer) : Prop := ∀ url ∈ b.urls, b.health url = some (worn failures)

theorem fails_unreachable (url : String) : Fails unreachable url := by
  rintro reply ⟨hReply, -⟩
  cases hReply

theorem ticking_outage : Ticking outage.clock :=
  ⟨fun _ _ _ _ => Int.le_refl _, fun _ _ => Int.le_refl _, fun _ _ => Int.le_refl _⟩

theorem exhausted_ne (error : Option String) : noneAvailable ≠ exhausted error := by
  intro he
  have hText : noneAvailable.toList = "所有上游实例均不可用: ".toList ++ (error.getD "None").toList :=
    (congrArg String.toList he).trans String.toList_append
  have hStart := congrArg (List.take 5) hText
  rw [List.take_append_of_le_length (by decide)] at hStart
  exact absurd hStart (by decide)

section Outage

variable {b : Balancer} {failures : Nat}

theorem tries_suffer (h : b.WellFormed) : Balancer.Tries .default outage.outcomes outage.clock [] none
    b.urls.length b b.suffer := Balancer.tries_requestLoop h [] none b.urls.length

theorem wellFormed_suffer (h : b.WellFormed) : b.suffer.balancer.WellFormed ∧ b.suffer.balancer.urls = b.urls :=
  Balancer.request_wellFormed .default outage.outcomes outage.clock h

/-- One more failure for each instance, if all are contacted. -/
theorem Worn.suffer (hWorn : Worn failures b) (h : b.WellFormed)
    (hAll : ∀ url ∈ b.urls, url ∈ b.suffer.contacts) : Worn (failures + 1) b.suffer.balancer := by
  intro url hMem
  rw [(wellFormed_suffer h).2] at hMem
  have hHealth : b.suffer.balancer.health url = (b.health url).map (InstanceHealth.failed .default 0) :=
    Balancer.tries_health fails_unreachable (fun _ => rfl) h (tries_suffer h) List.not_mem_nil (hAll url hMem)
  rw [hHealth, hWorn url hMem, Option.map_some, worn_succ]

/-- A pool without duplicates reaches every instance as long as all are up, and
uses up its turns. -/
theorem suffer_reaches (hWorn : Worn failures b) (hFew : failures < 3) (h : b.WellFormed)
    (hNodup : b.urls.Nodup) : (∀ url ∈ b.urls, url ∈ b.suffer.contacts) ∧
      b.suffer.contacts.length = b.urls.length ∧ ∃ error, b.suffer.result = .raised (exhausted error) := by
  have hDone : FailedOver .default unreachable outage.clock b b.suffer :=
    request_failedOver h hNodup ticking_outage
  obtain ⟨left, pool, hSwept⟩ := hDone.swept
  cases hResult : b.suffer.result with
  | returned response =>
      obtain ⟨_, url, reply, -, -, hAnswers, -⟩ := hDone.returned response hResult
      exact absurd hAnswers (fails_unreachable url reply)
  | lookupFailed => exact absurd hResult hDone.found
  | raised message =>
      have hAll : ∀ url ∈ b.urls, url ∈ b.suffer.contacts := by
        intro url hMem
        apply (hDone.raised message hResult).2 url hMem
        exact Balancer.availableAt_iff.mpr ⟨worn failures, hWorn url hMem, worn_available hFew⟩
      have hLength : b.suffer.contacts.length = b.urls.length := by
        apply Nat.le_antisymm
        · have hTurns := hSwept.attempts.length
          omega
        · exact (List.subperm_of_subset hNodup hAll).length_le
      refine ⟨hAll, hLength, ?_⟩
      rcases Balancer.tries_message h (tries_suffer h) hResult with ⟨-, hShort⟩ | ⟨error, rfl, -⟩
      · rw [List.length_nil, Nat.zero_add, hLength] at hShort
        exact absurd hShort (Nat.lt_irrefl _)
      · exact ⟨error, rfl⟩

/-- A request that takes all instances down does not use up the turns of a pool
with duplicates. -/
theorem suffer_stops (h : b.WellFormed) (hWorn : Worn 3 b.suffer.balancer)
    (hShort : b.suffer.contacts.length < b.urls.length)
    (hKnown : ∀ url ∈ b.suffer.contacts, url ∈ b.urls) (error : Option String) :
    b.suffer.result ≠ .raised (exhausted error) := by
  intro hRaised
  rcases Balancer.tries_message h (tries_suffer h) hRaised with
    ⟨hNone, -⟩ | ⟨-, -, hTurns | ⟨url, hContact, k, i, hAvailable⟩⟩
  · exact exhausted_ne error hNone.symm
  · rw [List.length_nil, Nat.zero_add] at hTurns
    omega
  · obtain ⟨state, hState, hUp⟩ := Balancer.availableAt_iff.mp hAvailable
    have hMem : url ∈ b.suffer.balancer.urls := by
      rw [(wellFormed_suffer h).2]
      exact hKnown url hContact
    rw [hWorn url hMem] at hState
    cases hState
    rw [show ((outage.clock k).scan i) = 0 from rfl, worn_three] at hUp
    cases hUp

end Outage

/-- Two pools of the same instances with the same health, the first of them with
duplicates. -/
structure Alike (failures : Nat) (b b' : Balancer) : Prop where
  wellFormed : b.WellFormed ∧ b'.WellFormed
  worn : Worn failures b ∧ Worn failures b'
  same : ∀ url, url ∈ b.urls ↔ url ∈ b'.urls
  nodup : b'.urls.Nodup
  shorter : b'.urls.length < b.urls.length

theorem worn_new (urls : List String) : Worn 0 (Balancer.new urls) := by
  intro url hMem
  rw [Balancer.new, Balancer.urls_install] at hMem
  exact Balancer.health_new hMem

theorem alike_new {urls : List String} (hDup : ¬ urls.Nodup) :
    Alike 0 (Balancer.new urls) (Balancer.new urls.eraseDups) := by
  have hUrls : (Balancer.new urls).urls = urls := Balancer.urls_install ..
  have hUrls' : (Balancer.new urls.eraseDups).urls = urls.eraseDups := Balancer.urls_install ..
  constructor
  · exact ⟨Balancer.wellFormed_new _, Balancer.wellFormed_new _⟩
  · exact ⟨worn_new _, worn_new _⟩
  · intro url
    rw [hUrls, hUrls', List.mem_eraseDups]
  · rw [hUrls']
    exact nodup_eraseDups urls
  · rw [hUrls, hUrls']
    exact length_eraseDups_lt hDup

/-- As long as the contacts are the same, the pools stay alike. -/
theorem Alike.suffer {failures : Nat} {b b' : Balancer} (h : Alike failures b b') (hFew : failures < 3)
    (hContacts : b.suffer.contacts = b'.suffer.contacts) :
    Alike (failures + 1) b.suffer.balancer b'.suffer.balancer := by
  obtain ⟨hReaches, -⟩ := suffer_reaches h.worn.2 hFew h.wellFormed.2 h.nodup
  obtain ⟨hWellFormed, hUrls⟩ := wellFormed_suffer h.wellFormed.1
  obtain ⟨hWellFormed', hUrls'⟩ := wellFormed_suffer h.wellFormed.2
  constructor
  · exact ⟨hWellFormed, hWellFormed'⟩
  · refine ⟨h.worn.1.suffer h.wellFormed.1 ?_, h.worn.2.suffer h.wellFormed.2 hReaches⟩
    intro url hMem
    rw [hContacts]
    exact hReaches url ((h.same url).mp hMem)
  · rw [hUrls, hUrls']
    exact h.same
  · rw [hUrls']
    exact h.nodup
  · rw [hUrls, hUrls']
    exact h.shorter

/-- The request that takes all instances down ends differently. -/
theorem Alike.differ {b b' : Balancer} (h : Alike 2 b b') :
    ¬ (b.suffer.contacts = b'.suffer.contacts ∧ b.suffer.result = b'.suffer.result) := by
  rintro ⟨hContacts, hResult⟩
  obtain ⟨hReaches, hLength, error, hRaised⟩ :=
    suffer_reaches h.worn.2 (Nat.lt_succ_self 2) h.wellFormed.2 h.nodup
  have hThen := h.suffer (Nat.lt_succ_self 2) hContacts
  have hDone : FailedOver .default unreachable outage.clock b' b'.suffer :=
    request_failedOver h.wellFormed.2 h.nodup ticking_outage
  obtain ⟨left, pool, hSwept⟩ := hDone.swept
  apply suffer_stops h.wellFormed.1 hThen.worn.1 _ _ error (hResult.trans hRaised)
  · rw [hContacts, hLength]
    exact h.shorter
  · intro url hContact
    rw [hContacts] at hContact
    exact (h.same url).mpr (hSwept.attempts.known url hContact)

theorem inOrder_outages : InOrder [outage, outage, outage] := by
  constructor
  · intro demand hMem
    simp only [List.mem_cons, List.not_mem_nil, or_false, or_self] at hMem
    rw [hMem]
    exact ticking_outage
  · have hStill : ∀ k i, (outage.clock k).recorded ≤ (outage.clock 0).scan i := fun _ _ => Int.le_refl _
    simp [hStill]

/-- The constructor and a refresh build pools that no sequence of requests tells
apart exactly when the list has no duplicates. -/
theorem same_pool_iff (urls : List String) :
    (∀ demands, InOrder demands → (Balancer.new urls).requests .default demands =
      ((Balancer.new []).refresh urls).requests .default demands) ↔ urls.Nodup := by
  constructor
  · intro hSame
    by_contra hDup
    have hList : urls ≠ [] := by
      rintro rfl
      exact hDup List.nodup_nil
    have hOutages := hSame _ inOrder_outages
    rw [Balancer.refresh_new hList] at hOutages
    simp only [Balancer.requests, List.cons.injEq, Prod.mk.injEq, and_true] at hOutages
    obtain ⟨⟨hFirst, -⟩, ⟨hSecond, -⟩, hThird⟩ := hOutages
    exact (((alike_new hDup).suffer (by decide) hFirst).suffer (by decide) hSecond).differ hThird
  · intro hNodup demands _
    by_cases hList : urls = []
    · rw [hList]
      rfl
    · rw [Balancer.refresh_new hList, eraseDups_of_nodup hNodup]

/-- The first instance is given twice. No instance answers the first request:
after the refresh it is sent to both instances, after the constructor to the
first only. -/
theorem repeated_url_hides_instance :
    ((Balancer.new ["a", "a", "b"]).requests .default [outage]).map Prod.fst = [["a"]] ∧
      (((Balancer.new []).refresh ["a", "a", "b"]).requests .default [outage]).map Prod.fst = [["a", "b"]] ∧
      ¬ ∀ urls demands, urls ≠ [] → InOrder demands → (Balancer.new urls).requests .default demands =
        ((Balancer.new []).refresh urls).requests .default demands := by
  have hConstructed : ((Balancer.new ["a", "a", "b"]).requests .default [outage]).map Prod.fst = [["a"]] := by
    decide +kernel
  have hRefreshed :
      (((Balancer.new []).refresh ["a", "a", "b"]).requests .default [outage]).map Prod.fst = [["a", "b"]] := by
    decide +kernel
  refine ⟨hConstructed, hRefreshed, ?_⟩
  intro hSame
  have hOrder : InOrder [outage] := by
    constructor
    · intro demand hMem
      rw [List.mem_singleton.mp hMem]
      exact ticking_outage
    · exact List.pairwise_singleton ..
  rw [hSame _ _ (by decide) hOrder, hRefreshed] at hConstructed
  cases hConstructed

end ServicePlatform.Gateway
