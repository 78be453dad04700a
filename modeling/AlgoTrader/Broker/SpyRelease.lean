import AlgoTrader.Broker.ExposureCap
import AlgoTrader.Broker.ReserveIsolation

/-! What a release of the SPY reserve (``release_for_copy``) leaves when one of its calls raises: the closes go out
one by one, and the recorded cost is saved after the last of them. -/

namespace AlgoTrader.Broker.Etoro.SpyRelease

def closesAsked (rate : ℚ) (answer : ℕ → Attempt) (needUnits : ℚ) : List ReserveRow → List SoldLot
  | [] => []
  | row :: rest =>
      if needUnits ≤ 0 ∨ rowUnits row ≤ 0 then []
      else
        let lot := lotToSell rate needUnits row
        match (answer row.positionId).result with
        | .error _ => [lot]
        | .ok _ =>
            lot :: closesAsked rate answer
              (needUnits - if lot.whole then rowUnits row else min (rowUnits row) needUnits) rest

-- Which of the writes at the end raises: the mirror's state, or the reserve's note and the log.
inductive Ending
  | complete
  | stateUnsaved
  | noteFailed
  deriving DecidableEq

structure Released where
  closes : List SoldLot
  raised : Bool
  recorded : MirrorState

def Sale.lots (sale : Sale) (store : Store) : List ReserveRow :=
  match sale.rows, instrumentIdOf store sale.lookup with
  | some rows, some instrumentId => sortedLots rows instrumentId
  | _, _ => []

section Release

variable (settings : Settings) (store : Store) (state : MirrorState) (amount : ℚ) (sale : Sale) (ending : Ending)

/-- ``release_for_copy`` with the closes it asked for and what is recorded when it returns or raises. -/
def released : Released :=
  match saleShortfall settings state amount with
  | none => ⟨[], false, state⟩
  | some short =>
      if sellableUsd settings state ≤ 0 then ⟨[], true, state⟩
      else
        match sale.run store short with
        | none => ⟨[], true, state⟩
        | some (_, rate) =>
            let closes := closesAsked rate sale.closeAnswer (neededUnits short rate) (Sale.lots sale store)
            match releaseForCopy settings state amount (sale.release store short) with
            | none => ⟨closes, true, state⟩
            | some state' => ⟨closes, ending ≠ .complete, if ending = .stateUnsaved then state else state'⟩

end Release

def spyCost (state : MirrorState) : ℚ := ((state.openNotional.lookup reserveSymbol).bind (·.costUsd)).getD 0

section Plan

def unitsLeft (rate needUnits : ℚ) (row : ReserveRow) : ℚ :=
  needUnits - if (lotToSell rate needUnits row).whole then rowUnits row else min (rowUnits row) needUnits

def planned (rate needUnits : ℚ) : List ReserveRow → List SoldLot
  | [] => []
  | row :: rest =>
      if needUnits ≤ 0 ∨ rowUnits row ≤ 0 then []
      else lotToSell rate needUnits row :: planned rate (unitsLeft rate needUnits row) rest

def remaining (rate needUnits : ℚ) : List ReserveRow → ℚ
  | [] => needUnits
  | row :: rest =>
      if needUnits ≤ 0 ∨ rowUnits row ≤ 0 then needUnits else remaining rate (unitsLeft rate needUnits row) rest

def heldUnits (lots : List ReserveRow) : ℚ := (lots.map fun row => max (rowUnits row) 0).sum

variable {rate need : ℚ} {answer : ℕ → Attempt} {row : ReserveRow} {lots : List ReserveRow}

lemma lotToSell_cases (hrate : 0 < rate) (need : ℚ) (row : ReserveRow) :
    lotToSell rate need row = ⟨row.positionId, rowUnits row, true⟩ ∧ unitsLeft rate need row = need - rowUnits row ∧
        (rowUnits row - need) * rate < minLeftUsd ∨
      lotToSell rate need row = ⟨row.positionId, Rounding.toDigits 6 need, false⟩ ∧ unitsLeft rate need row = 0 ∧
        minLeftUsd ≤ (rowUnits row - need) * rate := by
  by_cases hwhole : (rowUnits row - min (rowUnits row) need) * rate < minLeftUsd
  · have hlot : lotToSell rate need row = ⟨row.positionId, rowUnits row, true⟩ := by
      rw [lotToSell]
      exact if_pos hwhole
    refine .inl ⟨hlot, by rw [unitsLeft, hlot, if_pos rfl], lt_of_le_of_lt ?_ hwhole⟩
    exact mul_le_mul_of_nonneg_right (sub_le_sub_left (min_le_right _ _) _) hrate.le
  · have hneed : need ≤ rowUnits row := by
      by_contra hlt
      rw [min_eq_left (not_le.mp hlt).le, sub_self, zero_mul] at hwhole
      exact hwhole (by norm_num [minLeftUsd])
    have hlot : lotToSell rate need row = ⟨row.positionId, Rounding.toDigits 6 need, false⟩ := by
      rw [lotToSell, ← min_eq_right hneed]
      simpa using hwhole
    rw [min_eq_right hneed] at hwhole
    refine .inr ⟨hlot, ?_, not_lt.mp hwhole⟩
    rw [unitsLeft, hlot, if_neg Bool.false_ne_true, min_eq_right hneed, sub_self]

lemma planned_done (h : need ≤ 0) : planned rate need lots = [] := by
  cases lots with
  | nil => rfl
  | cons row rest => exact if_pos (.inl h)

lemma remaining_done (h : need ≤ 0) : remaining rate need lots = need := by
  cases lots with
  | nil => rfl
  | cons row rest => exact if_pos (.inl h)

def untilUnanswered (answer : ℕ → Attempt) : List SoldLot → List SoldLot
  | [] => []
  | lot :: rest => lot :: if (answer lot.positionId).answered then untilUnanswered answer rest else []

lemma untilUnanswered_eq_self {plan : List SoldLot} (h : ∀ lot ∈ plan, (answer lot.positionId).answered = true) :
    untilUnanswered answer plan = plan := by
  induction plan with
  | nil => rfl
  | cons lot rest ih =>
    obtain ⟨hlot, hrest⟩ := List.forall_mem_cons.mp h
    rw [untilUnanswered, if_pos hlot, ih hrest]

lemma closesAsked_eq (rate : ℚ) (answer : ℕ → Attempt) (lots : List ReserveRow) (need : ℚ) :
    closesAsked rate answer need lots = untilUnanswered answer (planned rate need lots) := by
  induction lots generalizing need with
  | nil => rfl
  | cons row rest ih =>
    rw [planned, closesAsked]
    by_cases hstop : need ≤ 0 ∨ rowUnits row ≤ 0
    · rw [if_pos hstop, if_pos hstop]
      rfl
    rw [if_neg hstop, if_neg hstop, untilUnanswered, lotToSell_id, Attempt.answered]
    dsimp only
    rw [← unitsLeft, ih]
    cases (answer row.positionId).result <;> rfl

-- The loop runs the plan to its end if every close is answered, and raises at the first one that is not.
lemma sellLots_eq (rate : ℚ) (answer : ℕ → Attempt) (lots : List ReserveRow) (need : ℚ) :
    ((∀ lot ∈ planned rate need lots, (answer lot.positionId).answered = true) →
      sellLots rate answer need lots = ⟨planned rate need lots, remaining rate need lots, false⟩) ∧
    (¬ (∀ lot ∈ planned rate need lots, (answer lot.positionId).answered = true) →
      (sellLots rate answer need lots).failed = true) := by
  induction lots generalizing need with
  | nil => exact ⟨fun _ => rfl, fun h => absurd (by simp [planned]) h⟩
  | cons row rest ih =>
    rw [planned, remaining, sellLots]
    by_cases hstop : need ≤ 0 ∨ rowUnits row ≤ 0
    · simp only [if_pos hstop]
      exact ⟨fun _ => trivial, fun h => absurd (by simp) h⟩
    simp only [if_neg hstop, List.forall_mem_cons, lotToSell_id]
    rw [← unitsLeft]
    obtain ⟨hdone, hfails⟩ := ih (unitsLeft rate need row)
    cases hanswer : (answer row.positionId).result with
    | error failure =>
      have hraises : (answer row.positionId).answered = false := by
        rw [Attempt.answered, hanswer]
        rfl
      exact ⟨fun h => absurd h.1 (by rw [hraises]; exact Bool.false_ne_true), fun _ => rfl⟩
    | ok status =>
      have hanswered : (answer row.positionId).answered = true := by
        rw [Attempt.answered, hanswer]
        rfl
      dsimp only
      exact ⟨fun h => by rw [hdone h.2], fun h => hfails fun hrest => h ⟨hanswered, hrest⟩⟩

lemma need_le_planned (hrate : 0 < rate) (lots : List ReserveRow) (need : ℚ) :
    need - soldUnits (planned rate need lots) ≤ max (remaining rate need lots) (1 / 2000000) := by
  induction lots generalizing need with
  | nil => simp [planned, remaining, soldUnits]
  | cons row rest ih =>
    rw [planned, remaining]
    split_ifs with hstop
    · simp [soldUnits]
    rw [soldUnits_cons]
    rcases lotToSell_cases hrate need row with ⟨hlot, hleft, _⟩ | ⟨hlot, hleft, _⟩
    · have hrest := ih (unitsLeft rate need row)
      rw [hleft] at hrest ⊢
      rw [hlot]
      calc
        _ = need - rowUnits row - soldUnits (planned rate (need - rowUnits row) rest) := by ring
        _ ≤ _ := hrest
    · rw [hlot, hleft, planned_done le_rfl]
      have hround := (abs_le.mp (Rounding.abs_toDigits_sub_le 6 need)).1
      apply le_max_of_le_right
      norm_num [soldUnits] at hround ⊢
      linarith

lemma planned_oversold (hrate : 0 < rate) (hscale : rate < 40000000) (lots : List ReserveRow) (need : ℚ)
    (hneed : 0 ≤ need) : (soldUnits (planned rate need lots) - need) * rate < minLeftUsd := by
  have hnothing {need : ℚ} (hneed : 0 ≤ need) : (0 - need) * rate < minLeftUsd := by
    have hcost := mul_nonneg hneed hrate.le
    rw [minLeftUsd]
    linarith
  induction lots generalizing need with
  | nil => exact hnothing hneed
  | cons row rest ih =>
    rw [planned]
    split_ifs with hstop
    · exact hnothing hneed
    rw [soldUnits_cons]
    rcases lotToSell_cases hrate need row with ⟨hlot, hleft, hcrumb⟩ | ⟨hlot, hleft, _⟩
    · rw [hleft, hlot]
      rcases le_total 0 (need - rowUnits row) with hmore | hdone
      · calc
          _ = (soldUnits (planned rate (need - rowUnits row) rest) - (need - rowUnits row)) * rate := by ring
          _ < _ := ih _ hmore
      · rw [planned_done hdone]
        simpa [soldUnits] using hcrumb
    · rw [hlot, hleft, planned_done le_rfl]
      have hround := (abs_le.mp (Rounding.abs_toDigits_sub_le 6 need)).2
      have hscaled := mul_le_mul_of_nonneg_right hround hrate.le
      norm_num [soldUnits, minLeftUsd] at hscaled ⊢
      linarith

lemma planned_ids (lots : List ReserveRow) (need : ℚ) :
    ∀ pair ∈ (planned rate need lots).zip lots, pair.1.positionId = pair.2.positionId := by
  induction lots generalizing need with
  | nil => simp [planned]
  | cons row rest ih =>
    rw [planned]
    split_ifs with hstop
    · simp
    · rw [List.zip_cons_cons, List.forall_mem_cons]
      exact ⟨lotToSell_id rate need row, ih _⟩

lemma planned_within (hrate : 0 < rate) (hscale : rate < 40000000) (lots : List ReserveRow) (need : ℚ) :
    ∀ pair ∈ (planned rate need lots).zip lots, pair.1.units ≤ rowUnits pair.2 := by
  induction lots generalizing need with
  | nil => simp [planned]
  | cons row rest ih =>
    rw [planned]
    split_ifs with hstop
    · simp
    rw [List.zip_cons_cons, List.forall_mem_cons]
    refine ⟨?_, ih _⟩
    rcases lotToSell_cases hrate need row with ⟨hlot, _, _⟩ | ⟨hlot, _, hleft⟩
    · rw [hlot]
    · rw [hlot]
      have hround := (abs_le.mp (Rounding.abs_toDigits_sub_le 6 need)).2
      have hgap : 1 / 2000000 < rowUnits row - need := by
        by_contra hsmall
        have hvalue := mul_le_mul_of_nonneg_right (not_lt.mp hsmall) hrate.le
        rw [minLeftUsd] at hleft
        linarith
      norm_num at hround
      dsimp only
      linarith

lemma remaining_le_iff (hrate : 0 < rate) {slack : ℚ} (hslack : 0 ≤ slack)
    (hsorted : lots.Pairwise fun first second => rowUnits second ≤ rowUnits first) (need : ℚ) :
    remaining rate need lots ≤ slack ↔ need ≤ heldUnits lots + slack := by
  have hnonneg (lots : List ReserveRow) : 0 ≤ heldUnits lots := by
    refine List.sum_nonneg fun units hunits => ?_
    obtain ⟨row, _, rfl⟩ := List.mem_map.mp hunits
    exact le_max_right _ _
  induction lots generalizing need with
  | nil => simp [remaining, heldUnits]
  | cons row rest ih =>
    obtain ⟨hfirst, hrest⟩ := List.pairwise_cons.mp hsorted
    have hheld : heldUnits (row :: rest) = max (rowUnits row) 0 + heldUnits rest := by
      rw [heldUnits, List.map_cons, List.sum_cons, heldUnits]
    rw [remaining]
    split_ifs with hstop
    · by_cases hdone : need ≤ 0
      · have := hnonneg (row :: rest)
        constructor <;> intro _ <;> linarith
      · -- The lots come in descending order: after one without units there are no units left.
        have hunits := hstop.resolve_left hdone
        have hnone : heldUnits rest = 0 := by
          refine List.sum_eq_zero fun units hmem => ?_
          obtain ⟨other, hother, rfl⟩ := List.mem_map.mp hmem
          exact max_eq_right ((hfirst other hother).trans hunits)
        rw [hheld, hnone, max_eq_right hunits, add_zero, zero_add]
    · rw [not_or, not_le, not_le] at hstop
      rw [hheld, max_eq_left hstop.2.le]
      rcases lotToSell_cases hrate need row with ⟨_, hleft, _⟩ | ⟨_, hleft, hcrumb⟩
      · rw [hleft]
        refine (ih hrest _).trans ?_
        constructor <;> intro h <;> linarith
      · rw [hleft, remaining_done le_rfl]
        have hgap : 0 ≤ rowUnits row - need := by
          by_contra hneg
          have := mul_neg_of_neg_of_pos (not_le.mp hneg) hrate
          rw [minLeftUsd] at hcrumb
          linarith
        have := hnonneg rest
        constructor <;> intro _ <;> linarith

end Plan

def Sale.plan (sale : Sale) (store : Store) (short rate : ℚ) : List SoldLot :=
  planned rate (neededUnits short rate) (Sale.lots sale store)

section Accounted

variable (settings : Settings) (store : Store) (state : MirrorState) (amount : ℚ) (sale : Sale) (ending : Ending)
  (filled : ℕ → Bool)

/-- What eToro sold of the lots it was asked to close: an answered close may be left undone, and one that raised
may be filled. -/
def soldLots (closes : List SoldLot) : List SoldLot := closes.filter fun lot => filled lot.positionId

/-- A release that returns sold what the copy is short of, from the lots that are held and with less than a crumb
to spare, and lowers the recorded cost by its value; one that raises sold nothing and records nothing. -/
def AllOrAccounted : Prop :=
  let ended := released settings store state amount sale ending
  let sold := soldLots filled ended.closes
  if ended.raised then sold = [] ∧ spyCost ended.recorded = spyCost state
  else
    ∀ short rate, saleShortfall settings state amount = some short → sale.rate = some rate →
      short / rate ≤ soldUnits sold ∧
      (soldUnits sold - neededUnits short rate) * rate < minLeftUsd ∧
      (∀ pair ∈ ended.closes.zip (Sale.lots sale store), filled pair.1.positionId →
        pair.1.positionId = pair.2.positionId ∧ pair.1.units ≤ rowUnits pair.2) ∧
      spyCost ended.recorded = Rounding.toDigits 2 (spyCost state - soldValue rate sold)

structure Closes (short rate : ℚ) : Prop where
  answered : ∀ lot ∈ Sale.plan sale store short rate, (sale.closeAnswer lot.positionId).answered = true
  covered : neededUnits short rate ≤ heldUnits (Sale.lots sale store) + 1 / 1000000000
  confirmed : confirmCash sale.credit short sale.polls ≠ none

def loweredCost (rate : ℚ) (plan : List SoldLot) : ℚ :=
  Rounding.toDigits 2 (max (spyCost state - soldValue rate plan) 0)

structure SoldAsPlanned (short rate : ℚ) (plan : List SoldLot) : Prop where
  enough : short / rate ≤ soldUnits (soldLots filled plan)
  spared : (soldUnits (soldLots filled plan) - neededUnits short rate) * rate < minLeftUsd
  within : ∀ pair ∈ plan.zip (Sale.lots sale store), filled pair.1.positionId → pair.1.units ≤ rowUnits pair.2
  worth : loweredCost state rate plan = Rounding.toDigits 2 (spyCost state - soldValue rate (soldLots filled plan))

/-- A sale that nothing ends early is filled as planned; of one that raises no lot that was asked for is filled,
and no cost is written. -/
def SaleGoesThrough : Prop :=
  ∀ short rate, saleShortfall settings state amount = some short → 0 < sellableUsd settings state →
    sale.rate = some rate → 0 < rate → Sale.lots sale store ≠ [] →
    let plan := Sale.plan sale store short rate
    (Closes store sale short rate ∧ ending = .complete → SoldAsPlanned store state sale filled short rate plan) ∧
      (¬ (Closes store sale short rate ∧ ending = .complete) →
        (∀ lot ∈ untilUnanswered sale.closeAnswer plan, filled lot.positionId = false) ∧
        (Closes store sale short rate → ending = .noteFailed → loweredCost state rate plan = spyCost state))

/-- The margin of a sale covers the rounding of units to six digits, and a millionth of a unit is not worth a
crumb. -/
structure Scaled (short rate : ℚ) : Prop where
  positive : 0 < rate
  margin : rate ≤ 20000 * short
  crumb : rate < 40000000

end Accounted

section Release

variable {settings : Settings} {store : Store} {state : MirrorState} {amount : ℚ} {sale : Sale} {ending : Ending}
  {filled : ℕ → Bool} {short rate : ℚ}

lemma lots_sorted (sale : Sale) (store : Store) :
    (Sale.lots sale store).Pairwise fun first second => rowUnits second ≤ rowUnits first := by
  rw [Sale.lots]
  split
  · rw [sortedLots]
    exact List.pairwise_insertionSort _ _
  · exact List.Pairwise.nil

lemma run_lots {run : SaleRun} (h : sale.run store short = some (run, rate)) :
    run = sellLots rate sale.closeAnswer (neededUnits short rate) (Sale.lots sale store) ∧ sale.rate = some rate ∧
      0 < rate ∧ Sale.lots sale store ≠ [] := by
  obtain ⟨hrate, hpositive, _⟩ := Sale.run_some h
  rw [Sale.run] at h
  split at h
  · rename_i rows instrumentId rate' hrows hid _
    have hlots : Sale.lots sale store = sortedLots rows instrumentId := by rw [Sale.lots, hrows, hid]
    split_ifs at h with hnone
    cases h
    exact ⟨by rw [hlots], hrate, hpositive, hlots ▸ (not_or.mp hnone).1⟩
  · cases h

lemma spyCost_sold (h : 0 < sellableUsd settings state) (value : ℚ) :
    spyCost { state with openNotional := sellReserve state.openNotional value } =
      Rounding.toDigits 2 (max (spyCost state - value) 0) := by
  rw [sellableUsd] at h
  split_ifs at h
  swap
  · exact absurd h (lt_irrefl 0)
  cases hlookup : state.openNotional.lookup reserveSymbol with
  | none =>
    rw [hlookup] at h
    exact absurd h (lt_irrefl 0)
  | some row =>
    rw [spyCost, spyCost, sellReserve, hlookup]
    simp

lemma max_cents_iff (x : ℚ) : Rounding.toDigits 2 (max x 0) = Rounding.toDigits 2 x ↔ 0 ≤ Rounding.toDigits 2 x := by
  rcases le_total 0 x with hx | hx
  · rw [max_eq_left hx]
    exact iff_of_true rfl (Rounding.toDigits_nonneg 2 hx)
  · rw [max_eq_right hx]
    have hzero : Rounding.toDigits 2 0 = 0 := by decide +kernel
    have hle := Rounding.toDigits_mono 2 hx
    rw [hzero] at hle ⊢
    constructor
    · exact fun h => h.le
    · exact fun h => le_antisymm h hle

lemma soldLots_eq_nil {closes : List SoldLot} :
    soldLots filled closes = [] ↔ ∀ lot ∈ closes, filled lot.positionId = false := by
  simp [soldLots, List.filter_eq_nil_iff]

lemma soldLots_eq_self {closes : List SoldLot} (h : ∀ lot ∈ closes, filled lot.positionId = true) :
    soldLots filled closes = closes := List.filter_eq_self.mpr h

lemma run_some (hrate : sale.rate = some rate) (hpositive : 0 < rate) (hlots : Sale.lots sale store ≠ []) :
    ∃ run, sale.run store short = some (run, rate) := by
  rw [Sale.lots] at hlots
  split at hlots
  · rename_i rows instrumentId hrows hid
    rw [Sale.run, hrows, hid, hrate]
    dsimp only
    rw [if_neg (not_or.mpr ⟨hlots, not_le.mpr hpositive⟩)]
    exact ⟨_, rfl⟩
  · exact absurd rfl hlots

lemma released_of_not_due (hshort : saleShortfall settings state amount = some short)
    (hnone : ¬ (0 < sellableUsd settings state ∧
      ∃ rate, sale.rate = some rate ∧ 0 < rate ∧ Sale.lots sale store ≠ [])) :
    released settings store state amount sale ending = ⟨[], true, state⟩ := by
  rw [released, hshort]
  dsimp only
  by_cases hsellable : sellableUsd settings state ≤ 0
  · rw [if_pos hsellable]
  · rw [if_neg hsellable]
    cases hrun : sale.run store short with
    | none => rfl
    | some made =>
      obtain ⟨_, hrate, hpositive, hlots⟩ := run_lots hrun
      exact absurd ⟨not_le.mp hsellable, made.2, hrate, hpositive, hlots⟩ hnone

lemma releaseForCopy_due (hshort : saleShortfall settings state amount = some short)
    (hsellable : 0 < sellableUsd settings state) (release : Release) :
    releaseForCopy settings state amount release =
      match release with
      | .refused => none
      | .sold valueUsd confirmedCash =>
          some { state with
            lastCash := (confirmedCash.map (Rounding.toDigits 2)).or state.lastCash
            openNotional := sellReserve state.openNotional valueUsd } := by
  obtain ⟨henabled, hpositive, cash, hcash, hcents⟩ := saleShortfall_some hshort
  rw [shortfall] at hcents
  rw [releaseForCopy, hcash]
  cases release <;>
    simp only [henabled, Bool.not_true, Bool.false_eq_true, if_false, hcents, hpositive.not_ge, hsellable.not_ge]

structure Due (settings : Settings) (store : Store) (state : MirrorState) (amount : ℚ) (sale : Sale)
    (short rate : ℚ) : Prop where
  asked : saleShortfall settings state amount = some short
  sellable : 0 < sellableUsd settings state
  atRate : sale.rate = some rate
  positive : 0 < rate
  lots : Sale.lots sale store ≠ []

namespace Due

variable (h : Due settings store state amount sale short rate)

include h

lemma run_eq : sale.run store short =
      some (sellLots rate sale.closeAnswer (neededUnits short rate) (Sale.lots sale store), rate) := by
  obtain ⟨run, hrun⟩ := run_some h.atRate h.positive h.lots
  rw [hrun, ← (run_lots hrun).1]

lemma remaining_le_iff_covered :
    remaining rate (neededUnits short rate) (Sale.lots sale store) ≤ 1 / 1000000000 ↔
      neededUnits short rate ≤ heldUnits (Sale.lots sale store) + 1 / 1000000000 :=
  remaining_le_iff h.positive (by norm_num) (lots_sorted sale store) _

lemma released_eq (ending : Ending) :
    released settings store state amount sale ending =
      match sale.release store short with
      | .refused => ⟨untilUnanswered sale.closeAnswer (Sale.plan sale store short rate), true, state⟩
      | .sold valueUsd confirmedCash =>
          ⟨untilUnanswered sale.closeAnswer (Sale.plan sale store short rate), ending ≠ .complete,
            if ending = .stateUnsaved then state else { state with
              lastCash := (confirmedCash.map (Rounding.toDigits 2)).or state.lastCash
              openNotional := sellReserve state.openNotional valueUsd }⟩ := by
  rw [released, h.asked]
  simp only [h.sellable.not_ge, if_false, h.run_eq, releaseForCopy_due h.asked h.sellable, closesAsked_eq]
  rw [← Sale.plan]
  cases sale.release store short <;> rfl

lemma released_of_closes (hcloses : Closes store sale short rate) (ending : Ending) :
    ∃ confirmed : Option ℚ, released settings store state amount sale ending =
      ⟨Sale.plan sale store short rate, ending ≠ .complete, if ending = .stateUnsaved then state else { state with
        lastCash := (confirmed.map (Rounding.toDigits 2)).or state.lastCash
        openNotional := sellReserve state.openNotional (soldValue rate (Sale.plan sale store short rate)) }⟩ := by
  obtain ⟨confirmed, hconfirmed⟩ := Option.ne_none_iff_exists'.mp hcloses.confirmed
  have hrun := (sellLots_eq rate sale.closeAnswer (Sale.lots sale store) (neededUnits short rate)).1 hcloses.answered
  have hsold : sale.release store short = .sold (soldValue rate (Sale.plan sale store short rate)) confirmed := by
    have hcovered := not_lt.mpr (h.remaining_le_iff_covered.mpr hcloses.covered)
    simp only [Sale.release, h.run_eq, hrun, Bool.false_eq_true, false_or, if_neg hcovered, hconfirmed, Sale.plan]
  refine ⟨confirmed, ?_⟩
  rw [h.released_eq, hsold, untilUnanswered_eq_self hcloses.answered]

lemma released_of_not_closes (hcloses : ¬ Closes store sale short rate) (ending : Ending) :
    released settings store state amount sale ending =
      ⟨untilUnanswered sale.closeAnswer (Sale.plan sale store short rate), true, state⟩ := by
  have hrefused : sale.release store short = .refused := by
    obtain ⟨hdone, hfails⟩ := sellLots_eq rate sale.closeAnswer (Sale.lots sale store) (neededUnits short rate)
    by_cases hanswered : ∀ lot ∈ Sale.plan sale store short rate, (sale.closeAnswer lot.positionId).answered = true
    swap
    · simp [Sale.release, h.run_eq, hfails hanswered]
    simp only [Sale.release, h.run_eq, hdone hanswered, Bool.false_eq_true, false_or]
    by_cases hcovered : remaining rate (neededUnits short rate) (Sale.lots sale store) ≤ 1 / 1000000000
    · have hnone : confirmCash sale.credit short sale.polls = none := by
        by_contra hsome
        exact hcloses ⟨hanswered, h.remaining_le_iff_covered.mp hcovered, hsome⟩
      rw [if_neg (not_lt.mpr hcovered), hnone]
    · rw [if_pos (not_le.mp hcovered)]
  rw [h.released_eq, hrefused]

lemma accounted_iff_of_closes (hcloses : Closes store sale short rate) :
    AllOrAccounted settings store state amount sale .complete filled ↔
      SoldAsPlanned store state sale filled short rate (Sale.plan sale store short rate) := by
  obtain ⟨confirmed, hreleased⟩ := h.released_of_closes hcloses .complete
  have hcost : spyCost (released settings store state amount sale .complete).recorded =
      loweredCost state rate (Sale.plan sale store short rate) := by
    rw [hreleased]
    exact spyCost_sold h.sellable _
  rw [AllOrAccounted]
  rw [hcost, hreleased]
  dsimp only
  rw [if_neg (by simp)]
  constructor
  · intro hall
    obtain ⟨henough, hspared, hwithin, hworth⟩ := hall short rate h.asked h.atRate
    exact ⟨henough, hspared, fun pair hpair hfilled => (hwithin pair hpair hfilled).2, hworth⟩
  · rintro ⟨henough, hspared, hwithin, hworth⟩ short' rate' hshort' hrate'
    obtain rfl : short = short' := Option.some.inj (h.asked.symm.trans hshort')
    obtain rfl : rate = rate' := Option.some.inj (h.atRate.symm.trans hrate')
    exact ⟨henough, hspared, fun pair hpair hfilled => ⟨planned_ids _ _ pair hpair, hwithin pair hpair hfilled⟩, hworth⟩

lemma accounted_iff_of_raised (hraised : ¬ (Closes store sale short rate ∧ ending = .complete)) :
    AllOrAccounted settings store state amount sale ending filled ↔
      (∀ lot ∈ untilUnanswered sale.closeAnswer (Sale.plan sale store short rate), filled lot.positionId = false) ∧
      (Closes store sale short rate → ending = .noteFailed →
        loweredCost state rate (Sale.plan sale store short rate) = spyCost state) := by
  rw [AllOrAccounted]
  by_cases hcloses : Closes store sale short rate
  · obtain ⟨confirmed, hreleased⟩ := h.released_of_closes hcloses ending
    have hending : ending ≠ .complete := fun hcomplete => hraised ⟨hcloses, hcomplete⟩
    rw [hreleased, untilUnanswered_eq_self hcloses.answered]
    dsimp only
    rw [if_pos (decide_eq_true hending), soldLots_eq_nil]
    refine and_congr_right fun _ => ?_
    by_cases hunsaved : ending = .stateUnsaved
    · rw [if_pos hunsaved, hunsaved]
      exact iff_of_true rfl fun _ hnote => nomatch hnote
    · have hnote : ending = .noteFailed := by
        cases ending with
        | complete => exact absurd rfl hending
        | stateUnsaved => exact absurd rfl hunsaved
        | noteFailed => rfl
      rw [if_neg hunsaved]
      refine Iff.trans ?_ ⟨fun hcost _ _ => hcost, fun hcost => hcost hcloses hnote⟩
      exact iff_of_eq (congrArg (· = spyCost state) (spyCost_sold h.sellable _))
  · rw [h.released_of_not_closes hcloses ending]
    dsimp only
    rw [if_pos rfl, soldLots_eq_nil]
    exact and_congr_right fun _ => iff_of_true rfl fun hyes => absurd hyes hcloses

end Due

lemma short_le_planned (hscaled : Scaled short rate) (hcloses : Closes store sale short rate) :
    short / rate ≤ soldUnits (Sale.plan sale store short rate) := by
  have hcovered := (remaining_le_iff hscaled.positive (by norm_num) (lots_sorted sale store) _).mpr hcloses.covered
  have hunits := need_le_planned hscaled.positive (Sale.lots sale store) (neededUnits short rate)
  have hslack := max_le (hcovered.trans (by norm_num : (1 : ℚ) / 1000000000 ≤ 1 / 2000000)) (le_refl ((1 : ℚ) / 2000000))
  have hneeded : neededUnits short rate = short / rate + short / rate / 100 := by
    rw [neededUnits, releaseMarginPct]
    ring
  have hmargin : 1 / 20000 ≤ short / rate := by
    rw [le_div_iff₀ hscaled.positive]
    linarith [hscaled.margin]
  rw [Sale.plan]
  linarith

lemma soldAsPlanned_iff (hscaled : Scaled short rate) (hcloses : Closes store sale short rate)
    (hfilled : ∀ lot ∈ Sale.plan sale store short rate, filled lot.positionId = true) :
    SoldAsPlanned store state sale filled short rate (Sale.plan sale store short rate) ↔
      0 ≤ Rounding.toDigits 2 (spyCost state - soldValue rate (Sale.plan sale store short rate)) := by
  have hsold := soldLots_eq_self hfilled
  have hneed : 0 ≤ neededUnits short rate := by
    have hpositive := hscaled.positive
    have hshort : 0 ≤ short := by linarith [hscaled.margin]
    rw [neededUnits, releaseMarginPct]
    positivity
  constructor
  · intro hplanned
    have hworth := hplanned.worth
    rw [hsold] at hworth
    exact (max_cents_iff _).mp hworth
  · intro hworth
    refine ⟨?_, ?_, fun pair hpair _ => planned_within hscaled.positive hscaled.crumb _ _ pair hpair, ?_⟩
    · rw [hsold]
      exact short_le_planned hscaled hcloses
    · rw [hsold]
      exact planned_oversold hscaled.positive hscaled.crumb _ _ hneed
    · rw [hsold]
      exact (max_cents_iff _).mpr hworth

end Release

-- Two lots of SPY at $600, the second of which eToro does not answer for.
def twoLots (polls : List Poll) (closeAnswer : ℕ → Attempt) : Sale where
  rows := some [{ positionId := 1, instrumentId := 5, symbol := "SPY", units := some 5 },
    { positionId := 2, instrumentId := 5, symbol := "SPY", units := some 4 }]
  credit := some 600
  lookup := some 5
  rate := some 600
  closeAnswer := closeAnswer
  polls := polls

def shortState : MirrorState where
  lastCash := some 600
  openNotional := AList.insert "SPY" { costUsd := some 5400 } ∅

def secondFails (positionId : ℕ) : Attempt :=
  if positionId = 1 then .posted (.accepted (some 1)) else .posted (.httpError 503 "")

end AlgoTrader.Broker.Etoro.SpyRelease
