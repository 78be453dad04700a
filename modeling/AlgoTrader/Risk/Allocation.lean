import AlgoTrader.Lib.Rounding
import AlgoTrader.Lib.Runs
import AlgoTrader.Lib.Tally
import Mathlib.Data.List.Sort

/-! The portfolio allocator (``app/risk/allocation.py``): a greedy pass over the ranked candidates that keeps
running totals for the gross, sector and correlation limits, and none for the symbol limit. -/

namespace AlgoTrader.Risk.Allocator

structure AllocationCandidate where
  symbol : String
  strategyName : String
  sector : String := "unknown"
  score : ℚ := 0
  annualizedVolatilityPct : ℚ
  correlationBucket : String := "default"
  requestedAmountUsd : ℚ
  volatility_pos : 0 < annualizedVolatilityPct
  requested_pos : 0 < requestedAmountUsd

structure AllocationDecision where
  symbol : String
  strategyName : String
  amountUsd : ℚ
  weightPct : ℚ
  blockers : List String
  deriving DecidableEq

structure Limits where
  equityUsd : ℚ
  grossExposureLimitPct : ℚ
  symbolLimitPct : ℚ
  sectorLimitPct : ℚ
  correlationLimitPct : ℚ
  perTradeCapUsd : ℚ

namespace Limits

variable (l : Limits)

def gross : ℚ := l.equityUsd * l.grossExposureLimitPct / 100
def symbol : ℚ := l.equityUsd * l.symbolLimitPct / 100
def sector : ℚ := l.equityUsd * l.sectorLimitPct / 100
def correlation : ℚ := l.equityUsd * l.correlationLimitPct / 100

end Limits

def AllocationCandidate.ticker (c : AllocationCandidate) : String := c.symbol.toUpper

-- ``accepted`` before it is rounded for display.
structure Grant where
  candidate : AllocationCandidate
  amount : ℚ
  blockers : List String

structure Allocation where
  grossUsed : ℚ := 0
  sectorUsed : String → ℚ := fun _ => 0
  correlationUsed : String → ℚ := fun _ => 0
  grants : List Grant := []

-- ``sorted(..., reverse=True)`` keeps the order of candidates with equal keys.
def ranked (candidates : List AllocationCandidate) : List AllocationCandidate :=
  candidates.insertionSort fun a b =>
    b.score < a.score ∨ (a.score = b.score ∧ 1 / b.annualizedVolatilityPct ≤ 1 / a.annualizedVolatilityPct)

section Loop

variable (l : Limits)

def cappedAmount (c : AllocationCandidate) : ℚ := min (min c.requestedAmountUsd l.perTradeCapUsd) l.symbol

def blockersOf (s : Allocation) (c : AllocationCandidate) : List String :=
  let amount := cappedAmount l c
  (if l.gross < s.grossUsed + amount then ["gross_exposure_limit"] else []) ++
    (if l.sector < s.sectorUsed c.sector + amount then ["sector_exposure_limit"] else []) ++
    (if l.correlation < s.correlationUsed c.correlationBucket + amount then ["correlated_exposure_limit"] else [])

def consider (s : Allocation) (c : AllocationCandidate) : Allocation :=
  let blockers := blockersOf l s c
  let accepted := if blockers = [] then cappedAmount l c else 0
  let grants := s.grants ++ [⟨c, accepted, blockers⟩]
  if accepted ≠ 0 then
    { grossUsed := s.grossUsed + accepted
      sectorUsed := Function.update s.sectorUsed c.sector (s.sectorUsed c.sector + accepted)
      correlationUsed :=
        Function.update s.correlationUsed c.correlationBucket (s.correlationUsed c.correlationBucket + accepted)
      grants := grants }
  else { s with grants := grants }

def allocate (candidates : List AllocationCandidate) : Allocation := Runs.run (consider l) {} (ranked candidates)

def decisionOf (grant : Grant) : AllocationDecision :=
  { symbol := grant.candidate.ticker
    strategyName := grant.candidate.strategyName
    amountUsd := Rounding.toDigits 2 grant.amount
    weightPct := Rounding.toDigits 4 (grant.amount / l.equityUsd * 100)
    blockers := grant.blockers }

def allocateCandidates (candidates : List AllocationCandidate) : Except String (List AllocationDecision) :=
  if l.equityUsd ≤ 0 then .error "equity_usd must be positive"
  else .ok ((allocate l candidates).grants.map (decisionOf l))

end Loop

def Allocation.accepted (s : Allocation) : List Grant := s.grants.filter (·.blockers = [])

/-- The accepted amounts against each limit, for every sector, group and symbol that was granted anything. -/
structure WithinLimits (l : Limits) (accepted : List Grant) : Prop where
  gross : Tally.Within Grant.amount (fun _ => ()) l.gross accepted
  sector : Tally.Within Grant.amount (·.candidate.sector) l.sector accepted
  correlation : Tally.Within Grant.amount (·.candidate.correlationBucket) l.correlation accepted
  symbol : Tally.Within Grant.amount (·.candidate.ticker) l.symbol accepted

def symbolUsed (s : Allocation) (ticker : String) : ℚ := Tally.total Grant.amount (·.candidate.ticker) s.accepted ticker

/-- A candidate that passes the three checks finds room left for its symbol too. -/
def SymbolRoom (l : Limits) (s : Allocation) (c : AllocationCandidate) : Prop :=
  blockersOf l s c = [] → symbolUsed s c.ticker + cappedAmount l c ≤ l.symbol

section Loop

variable {l : Limits} {s : Allocation} {c : AllocationCandidate}

lemma blockersOf_eq_nil : blockersOf l s c = [] ↔
    s.grossUsed + cappedAmount l c ≤ l.gross ∧ s.sectorUsed c.sector + cappedAmount l c ≤ l.sector ∧
      s.correlationUsed c.correlationBucket + cappedAmount l c ≤ l.correlation := by
  simp [blockersOf]

lemma accepted_consider_of_blocked (h : blockersOf l s c ≠ []) : (consider l s c).accepted = s.accepted := by
  simp [consider, Allocation.accepted, h]

lemma accepted_consider (h : blockersOf l s c = []) :
    (consider l s c).accepted = s.accepted ++ [⟨c, cappedAmount l c, []⟩] := by
  rw [consider, Allocation.accepted]
  simp only [h, if_true]
  split_ifs <;> simp [Allocation.accepted]

structure Booked (l : Limits) (s : Allocation) : Prop where
  gross : s.grossUsed = Tally.total Grant.amount (fun _ => ()) s.accepted ()
  sector (name : String) : s.sectorUsed name = Tally.total Grant.amount (·.candidate.sector) s.accepted name
  correlation (name : String) :
    s.correlationUsed name = Tally.total Grant.amount (·.candidate.correlationBucket) s.accepted name
  capped : ∀ grant ∈ s.accepted, grant.amount = cappedAmount l grant.candidate

lemma consider_of_blocked (h : blockersOf l s c ≠ []) :
    consider l s c = { s with grants := s.grants ++ [⟨c, 0, blockersOf l s c⟩] } := by
  simp [consider, h]

lemma grossUsed_consider (h : blockersOf l s c = []) : (consider l s c).grossUsed = s.grossUsed + cappedAmount l c := by
  simp only [consider, h, if_true]
  split_ifs with hzero
  · rfl
  · rw [not_not.mp hzero, add_zero]

lemma sectorUsed_consider (h : blockersOf l s c = []) (name : String) :
    (consider l s c).sectorUsed name = s.sectorUsed name + if c.sector = name then cappedAmount l c else 0 := by
  simp only [consider, h, if_true]
  by_cases hzero : cappedAmount l c = 0
  · simp [hzero]
  · rw [if_pos hzero]
    exact Tally.update_add_apply

lemma correlationUsed_consider (h : blockersOf l s c = []) (name : String) :
    (consider l s c).correlationUsed name =
      s.correlationUsed name + if c.correlationBucket = name then cappedAmount l c else 0 := by
  simp only [consider, h, if_true]
  by_cases hzero : cappedAmount l c = 0
  · simp [hzero]
  · rw [if_pos hzero]
    exact Tally.update_add_apply

lemma Booked.consider (h : Booked l s) (c : AllocationCandidate) : Booked l (consider l s c) := by
  by_cases hblockers : blockersOf l s c = []
  · have haccepted := accepted_consider hblockers
    refine ⟨?_, fun name => ?_, fun name => ?_, fun grant hgrant => ?_⟩
    · rw [grossUsed_consider hblockers, haccepted, Tally.total_append_singleton, h.gross, if_pos rfl]
    · rw [sectorUsed_consider hblockers, haccepted, Tally.total_append_singleton, h.sector]
    · rw [correlationUsed_consider hblockers, haccepted, Tally.total_append_singleton, h.correlation]
    · rw [haccepted, List.mem_append, List.mem_singleton] at hgrant
      rcases hgrant with hold | rfl
      · exact h.capped grant hold
      · rfl
  · have haccepted := accepted_consider_of_blocked hblockers
    refine ⟨?_, fun name => ?_, fun name => ?_, fun grant hgrant => ?_⟩
    · rw [haccepted, consider_of_blocked hblockers]
      exact h.gross
    · rw [haccepted, consider_of_blocked hblockers]
      exact h.sector name
    · rw [haccepted, consider_of_blocked hblockers]
      exact h.correlation name
    · exact h.capped grant (haccepted ▸ hgrant)

lemma booked_start : Booked l {} := ⟨rfl, fun _ => rfl, fun _ => rfl, nofun⟩

structure Tallied (l : Limits) (s : Allocation) : Prop extends Booked l s where
  within_gross : Tally.Within Grant.amount (fun _ => ()) l.gross s.accepted
  within_sector : Tally.Within Grant.amount (·.candidate.sector) l.sector s.accepted
  within_correlation : Tally.Within Grant.amount (·.candidate.correlationBucket) l.correlation s.accepted

lemma Tallied.consider (h : Tallied l s) (c : AllocationCandidate) : Tallied l (consider l s c) := by
  have hbooked := h.toBooked.consider c
  by_cases hblockers : blockersOf l s c = []
  · obtain ⟨hgross, hsector, hcorrelation⟩ := blockersOf_eq_nil.mp hblockers
    rw [h.gross] at hgross
    rw [h.sector] at hsector
    rw [h.correlation] at hcorrelation
    have haccepted := accepted_consider hblockers
    refine ⟨hbooked, ?_, ?_, ?_⟩ <;> rw [haccepted]
    · exact h.within_gross.append_singleton hgross
    · exact h.within_sector.append_singleton hsector
    · exact h.within_correlation.append_singleton hcorrelation
  · have haccepted := accepted_consider_of_blocked hblockers
    refine ⟨hbooked, ?_, ?_, ?_⟩ <;> rw [haccepted]
    · exact h.within_gross
    · exact h.within_sector
    · exact h.within_correlation

lemma tallied_start : Tallied l {} := ⟨booked_start, nofun, nofun, nofun⟩

def WithinSymbol (l : Limits) (s : Allocation) : Prop :=
  Tally.Within Grant.amount (·.candidate.ticker) l.symbol s.accepted

lemma Tallied.withinLimits_iff (h : Tallied l s) : WithinLimits l s.accepted ↔ WithinSymbol l s :=
  ⟨WithinLimits.symbol, fun hsymbol => ⟨h.within_gross, h.within_sector, h.within_correlation, hsymbol⟩⟩

lemma cappedAmount_le_symbol (c : AllocationCandidate) : cappedAmount l c ≤ l.symbol := min_le_right _ _

-- A negative cap or symbol limit makes every amount negative, and no total can exceed the limit.
lemma withinSymbol_of_nonpos (h : Booked l s) (hcapped : ∀ c, cappedAmount l c ≤ 0) : WithinSymbol l s := by
  intro grant hgrant
  have hamounts : ∀ other ∈ s.accepted, other.amount ≤ 0 := by
    intro other hother
    rw [h.capped other hother]
    exact hcapped other.candidate
  calc
    _ ≤ grant.amount := Tally.total_le_of_mem hamounts hgrant
    _ = cappedAmount l grant.candidate := h.capped grant hgrant
    _ ≤ l.symbol := cappedAmount_le_symbol _

lemma symbolRoom_of_nonpos (h : Booked l s) (hcapped : ∀ c, cappedAmount l c ≤ 0) : SymbolRoom l s c := by
  intro _
  have hused : symbolUsed s c.ticker ≤ 0 := by
    apply Tally.total_nonpos
    intro other hother
    rw [h.capped other hother]
    exact hcapped other.candidate
  have := cappedAmount_le_symbol (l := l) c
  linarith

lemma cappedAmount_nonneg_or (l : Limits) : (∀ c, 0 ≤ cappedAmount l c) ∨ ∀ c, cappedAmount l c ≤ 0 := by
  rcases le_or_gt 0 (min l.perTradeCapUsd l.symbol) with hcap | hcap
  · left
    intro c
    have := le_min_iff.mp hcap
    exact le_min (le_min c.requested_pos.le this.1) this.2
  · right
    intro c
    rw [cappedAmount, min_assoc]
    exact (min_le_right _ _).trans hcap.le

lemma withinSymbol_consider_iff (hcapped : ∀ c, 0 ≤ cappedAmount l c) :
    WithinSymbol l (consider l s c) ↔ WithinSymbol l s ∧ SymbolRoom l s c := by
  by_cases hblockers : blockersOf l s c = []
  · rw [WithinSymbol, accepted_consider hblockers]
    refine (Tally.within_append_singleton_iff ?_).trans ?_
    · exact hcapped c
    · exact and_congr_right fun _ => ⟨fun hroom _ => hroom, fun hroom => hroom hblockers⟩
  · rw [WithinSymbol, accepted_consider_of_blocked hblockers]
    exact ⟨fun h => ⟨h, fun h' => absurd h' hblockers⟩, And.left⟩

lemma withinSymbol_iff_allowed (candidates : List AllocationCandidate) (h : Booked l s) (hs : WithinSymbol l s) :
    WithinSymbol l (Runs.run (consider l) s candidates) ↔ Runs.Allowed (consider l) (SymbolRoom l) s candidates := by
  have hbooked := Runs.invariant_of_step (fun s c (h : Booked l s) => h.consider c) h candidates
  rcases cappedAmount_nonneg_or l with hcapped | hcapped
  · constructor
    · intro hend
      exact (Runs.allowed_of_run (fun _ _ hnext => ((withinSymbol_consider_iff hcapped).mp hnext).1)
        (fun _ _ hnext => ((withinSymbol_consider_iff hcapped).mp hnext).2) hend).2
    · intro hall
      exact Runs.invariant (fun _ _ hs hroom => (withinSymbol_consider_iff hcapped).mpr ⟨hs, hroom⟩) hs hall
  · refine iff_of_true (withinSymbol_of_nonpos hbooked hcapped) ?_
    have hsteps : Runs.Allowed (consider l) (fun _ _ => True) s candidates := Runs.allowed_of_forall fun _ _ => trivial
    exact Runs.allowed_of_invariant (I := Booked l) (fun _ c hs _ => hs.consider c)
      (fun _ _ hs _ => symbolRoom_of_nonpos hs hcapped) h hsteps

lemma mem_accepted_consider {grant : Grant} (h : grant ∈ (consider l s c).accepted) :
    grant ∈ s.accepted ∨ grant.candidate = c := by
  by_cases hblockers : blockersOf l s c = []
  · rw [accepted_consider hblockers, List.mem_append, List.mem_singleton] at h
    rcases h with hold | rfl
    · exact .inl hold
    · exact .inr rfl
  · rw [accepted_consider_of_blocked hblockers] at h
    exact .inl h

lemma symbolRoom_of_fresh (h : ∀ grant ∈ s.accepted, grant.candidate.ticker ≠ c.ticker) : SymbolRoom l s c := by
  intro _
  have hnone : s.accepted.filter (·.candidate.ticker = c.ticker) = [] :=
    List.filter_eq_nil_iff.mpr fun grant hgrant => by simpa using h grant hgrant
  rw [symbolUsed, Tally.total, hnone, List.map_nil, List.sum_nil, zero_add]
  exact cappedAmount_le_symbol c

lemma symbolRoom_of_nodup {candidates : List AllocationCandidate}
    (h : (candidates.map AllocationCandidate.ticker).Nodup)
    (hfresh : ∀ grant ∈ s.accepted, grant.candidate.ticker ∉ candidates.map AllocationCandidate.ticker) :
    Runs.Allowed (consider l) (SymbolRoom l) s candidates := by
  induction candidates generalizing s with
  | nil => trivial
  | cons c rest ih =>
    rw [List.map_cons, List.nodup_cons] at h
    rw [List.map_cons] at hfresh
    refine ⟨symbolRoom_of_fresh fun grant hgrant hsame => hfresh grant hgrant (hsame ▸ List.mem_cons_self), ?_⟩
    refine ih h.2 fun grant hgrant => ?_
    rcases mem_accepted_consider hgrant with hold | rfl
    · exact fun hmem => hfresh grant hold (List.mem_cons_of_mem _ hmem)
    · exact h.1

lemma tallied_allocate (l : Limits) (candidates : List AllocationCandidate) : Tallied l (allocate l candidates) :=
  Runs.invariant_of_step (fun _ c h => h.consider c) tallied_start (ranked candidates)

lemma ranked_perm (candidates : List AllocationCandidate) : (ranked candidates).Perm candidates :=
  List.perm_insertionSort _ _

theorem withinLimits_of_symbols_nodup (l : Limits) {candidates : List AllocationCandidate}
    (h : (candidates.map AllocationCandidate.ticker).Nodup) : WithinLimits l (allocate l candidates).accepted := by
  rw [(tallied_allocate l candidates).withinLimits_iff]
  refine (withinSymbol_iff_allowed (ranked candidates) booked_start nofun).mpr (symbolRoom_of_nodup ?_ nofun)
  exact (((ranked_perm candidates).map _).nodup_iff).mpr h

lemma grants_consider (l : Limits) (s : Allocation) (c : AllocationCandidate) : (consider l s c).grants =
    s.grants ++ [⟨c, if blockersOf l s c = [] then cappedAmount l c else 0, blockersOf l s c⟩] := by
  rw [consider]
  split_ifs <;> rfl

lemma grants_run (l : Limits) (s : Allocation) (candidates : List AllocationCandidate) :
    (Runs.run (consider l) s candidates).grants.map Grant.candidate = s.grants.map Grant.candidate ++ candidates := by
  induction candidates generalizing s with
  | nil => exact (List.append_nil _).symm
  | cons c rest ih =>
    change (Runs.run (consider l) (consider l s c) rest).grants.map Grant.candidate = _
    rw [ih, grants_consider, List.map_append, List.append_assoc]
    rfl

def BlockedGetNothing (s : Allocation) : Prop := ∀ grant ∈ s.grants, grant.blockers ≠ [] → grant.amount = 0

lemma BlockedGetNothing.consider (h : BlockedGetNothing s) (c : AllocationCandidate) :
    BlockedGetNothing (consider l s c) := by
  intro grant hgrant hblocked
  rw [grants_consider, List.mem_append, List.mem_singleton] at hgrant
  rcases hgrant with hold | rfl
  · exact h grant hold hblocked
  · exact if_neg hblocked

/-- What the caller is shown: a decision for each candidate in the order of the ranking, nothing for a blocked one,
and amounts that exceed the gross limit by no more than their rounding to cents. -/
structure Shown (l : Limits) (candidates : List AllocationCandidate) (decisions : List AllocationDecision) : Prop where
  ranking : decisions.map (fun d => (d.symbol, d.strategyName)) =
    (ranked candidates).map fun c => (c.ticker, c.strategyName)
  blocked : ∀ decision ∈ decisions, decision.blockers ≠ [] → decision.amountUsd = 0 ∧ decision.weightPct = 0
  gross : ∀ decision ∈ decisions, decision.blockers = [] →
    ((decisions.filter (·.blockers = [])).map AllocationDecision.amountUsd).sum ≤
      l.gross + (decisions.filter (·.blockers = [])).length / 200

theorem allocateCandidates_shown {candidates : List AllocationCandidate} {decisions : List AllocationDecision}
    (h : allocateCandidates l candidates = .ok decisions) : Shown l candidates decisions := by
  rw [allocateCandidates] at h
  split_ifs at h
  obtain rfl := Except.ok.inj h
  have hzero (digits : ℕ) : Rounding.toDigits digits 0 = 0 := Rounding.Rounded.toDigits_eq (Rounding.rounded_zero digits)
  have hfilter : ((allocate l candidates).grants.map (decisionOf l)).filter (·.blockers = []) =
      (allocate l candidates).accepted.map (decisionOf l) := List.filter_map
  refine ⟨?_, fun decision hdecision hblocked => ?_, fun decision hdecision haccepted => ?_⟩
  · have hcandidates := grants_run l {} (ranked candidates)
    rw [List.map_nil, List.nil_append] at hcandidates
    rw [← hcandidates, List.map_map, List.map_map]
    rfl
  · obtain ⟨grant, hgrant, rfl⟩ := List.mem_map.mp hdecision
    have hstart : BlockedGetNothing {} := fun _ hnone => absurd hnone List.not_mem_nil
    have hrun : BlockedGetNothing (allocate l candidates) :=
      Runs.invariant_of_step (fun _ c hs => hs.consider c) hstart (ranked candidates)
    rw [decisionOf, hrun grant hgrant hblocked, zero_div, zero_mul]
    exact ⟨hzero 2, hzero 4⟩
  · obtain ⟨grant, hgrant, rfl⟩ := List.mem_map.mp hdecision
    have hmem : grant ∈ (allocate l candidates).accepted := List.mem_filter.mpr ⟨hgrant, decide_eq_true haccepted⟩
    have hwithin := (tallied_allocate l candidates).within_gross grant hmem
    have hall : (allocate l candidates).accepted.filter (fun _ => decide (() = ())) = (allocate l candidates).accepted :=
      List.filter_eq_self.mpr fun _ _ => decide_eq_true rfl
    rw [Tally.total, hall] at hwithin
    have hrounded := (abs_le.mp (Rounding.abs_sum_toDigits_sub_le 2
      ((allocate l candidates).accepted.map Grant.amount))).2
    rw [List.map_map, List.length_map] at hrounded
    rw [hfilter, List.map_map, List.length_map]
    have hamounts : (AllocationDecision.amountUsd ∘ decisionOf l) = Rounding.toDigits 2 ∘ Grant.amount := rfl
    rw [hamounts]
    have hcents : (1 : ℚ) / (2 * 10 ^ 2) = 1 / 200 := by norm_num
    rw [hcents] at hrounded
    linarith

end Loop

theorem allocation_within_limits_iff (l : Limits) (candidates : List AllocationCandidate) :
    WithinLimits l (allocate l candidates).accepted ↔
      Runs.Allowed (consider l) (SymbolRoom l) {} (ranked candidates) := by
  rw [(tallied_allocate l candidates).withinLimits_iff]
  exact withinSymbol_iff_allowed (ranked candidates) booked_start nofun

def proposed (strategyName : String) (score : ℚ) : AllocationCandidate :=
  { symbol := "AAPL", strategyName := strategyName, sector := "technology", score := score
    annualizedVolatilityPct := 20, correlationBucket := "mega_cap_tech", requestedAmountUsd := 5000
    volatility_pos := by norm_num, requested_pos := by norm_num }

def testLimits : Limits :=
  { equityUsd := 10000, grossExposureLimitPct := 30, symbolLimitPct := 15, sectorLimitPct := 20
    correlationLimitPct := 20, perTradeCapUsd := 1000 }

-- Two strategies propose one symbol: $2,000 of it is accepted against a limit of $1,500.
theorem symbol_limit_exceeded :
    ¬ WithinLimits testLimits (allocate testLimits [proposed "trend" 90, proposed "momentum" 80]).accepted := by
  intro h
  have hsymbol := h.symbol
  revert hsymbol
  decide +kernel

end AlgoTrader.Risk.Allocator
