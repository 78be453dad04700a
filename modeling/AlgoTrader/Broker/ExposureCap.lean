import AlgoTrader.Broker.EtoroLiveAccount
import AlgoTrader.Broker.MirrorCaps

/-! The exposure cap of the live mirror when the SPY reserve funds copies. The room of a copy is
credited with nearly all of the reserve, but the sale brings only what the copy is short of in cash:
the cap holds of the copies whose missing room that sale covers. -/

namespace AlgoTrader.Broker.Etoro

open AlgoTrader.Utils.Time
open AlgoTrader.Models

section Lots

variable {rate : ℚ} {answer : ℕ → Attempt}

def soldUnits (sold : List SoldLot) : ℚ := (sold.map (·.units)).sum

lemma soldUnits_cons (lot : SoldLot) (sold : List SoldLot) :
    soldUnits (lot :: sold) = lot.units + soldUnits sold := by
  rw [soldUnits, List.map_cons, List.sum_cons, soldUnits]

lemma sellLots_done {need : ℚ} (h : need ≤ 0) (lots : List ReserveRow) :
    sellLots rate answer need lots = { needUnits := need } := by
  cases lots with
  | nil => rfl
  | cons row rest => exact if_pos (Or.inl h)

/-- One lot of a sale that goes through: the sale stops before it, sells it whole, or takes from it
all that is still needed. -/
lemma sellLots_cons (hrate : 0 < rate) {need : ℚ} {row : ReserveRow} {rest : List ReserveRow}
    (h : (sellLots rate answer need (row :: rest)).failed = false) :
    sellLots rate answer need (row :: rest) = { needUnits := need } ∨
      (0 < need ∧ 0 < rowUnits row ∧ (answer row.positionId).answered = true) ∧
        ((rowUnits row - need) * rate < minLeftUsd ∧
            (sellLots rate answer (need - rowUnits row) rest).failed = false ∧
            sellLots rate answer need (row :: rest) =
              { sellLots rate answer (need - rowUnits row) rest with
                sold := ⟨row.positionId, rowUnits row, true⟩ ::
                  (sellLots rate answer (need - rowUnits row) rest).sold } ∨
          sellLots rate answer need (row :: rest) =
            { sold := [⟨row.positionId, Rounding.toDigits 6 need, false⟩], needUnits := 0 }) := by
  rw [sellLots] at h ⊢
  by_cases hstop : need ≤ 0 ∨ rowUnits row ≤ 0
  · rw [if_pos hstop]
    exact Or.inl rfl
  · rw [if_neg hstop] at h ⊢
    rw [not_or, not_le, not_le] at hstop
    right
    cases hanswer : (answer row.positionId).result with
    | error failure =>
      rw [hanswer] at h
      cases h
    | ok status =>
      rw [hanswer] at h
      refine ⟨⟨hstop.1, hstop.2, by rw [Attempt.answered, hanswer]; rfl⟩, ?_⟩
      dsimp only at h ⊢
      rw [lotToSell] at h ⊢
      by_cases hwhole : (rowUnits row - min (rowUnits row) need) * rate < minLeftUsd
      · simp only [if_pos hwhole, if_true] at h ⊢
        refine Or.inl ⟨lt_of_le_of_lt ?_ hwhole, h, trivial⟩
        exact mul_le_mul_of_nonneg_right (sub_le_sub_left (min_le_right _ _) _) hrate.le
      · right
        have hneed : need ≤ rowUnits row := by
          by_contra hlt
          rw [min_eq_left (not_le.mp hlt).le, sub_self, zero_mul] at hwhole
          exact hwhole (by norm_num [minLeftUsd])
        rw [min_eq_right hneed] at hwhole
        simp only [min_eq_right hneed, if_neg hwhole, Bool.false_eq_true, if_false, sub_self,
          sellLots_done (le_refl (0 : ℚ))]

lemma needed_le_soldUnits (hrate : 0 < rate) (lots : List ReserveRow) (need : ℚ)
    (h : (sellLots rate answer need lots).failed = false) :
    need - soldUnits (sellLots rate answer need lots).sold ≤
      max (sellLots rate answer need lots).needUnits (1 / 2000000) := by
  induction lots generalizing need with
  | nil => simp [sellLots, soldUnits]
  | cons row rest ih =>
    rcases sellLots_cons hrate h with hstop | ⟨-, ⟨-, hrest, hwhole⟩ | hpart⟩
    · simp [hstop, soldUnits]
    · rw [hwhole, soldUnits_cons]
      calc
        _ = need - rowUnits row - soldUnits (sellLots rate answer (need - rowUnits row) rest).sold := by
          ring
        _ ≤ _ := ih _ hrest
    · rw [hpart, soldUnits_cons]
      have hround := (abs_le.mp (Rounding.abs_toDigits_sub_le 6 need)).1
      apply le_max_of_le_right
      norm_num [soldUnits] at hround ⊢
      linarith

lemma soldUnits_le_needed (hrate : 0 < rate) (lots : List ReserveRow) (need : ℚ) (hneed : 0 ≤ need)
    (h : (sellLots rate answer need lots).failed = false) :
    (soldUnits (sellLots rate answer need lots).sold - need) * rate ≤ minLeftUsd + rate / 2000000 := by
  have hslack : 0 ≤ minLeftUsd + rate / 2000000 := by
    rw [minLeftUsd]
    positivity
  have hnothing : (0 - need) * rate ≤ minLeftUsd + rate / 2000000 := by
    have := mul_nonneg hneed hrate.le
    linarith
  induction lots generalizing need with
  | nil => exact hnothing
  | cons row rest ih =>
    rcases sellLots_cons hrate h with hstop | ⟨-, ⟨hleft, hrest, hwhole⟩ | hpart⟩
    · rw [hstop]
      exact hnothing
    · rw [hwhole, soldUnits_cons]
      rcases le_total 0 (need - rowUnits row) with hmore | hdone
      · have hnone : (0 - (need - rowUnits row)) * rate ≤ minLeftUsd + rate / 2000000 := by
          have := mul_nonneg hmore hrate.le
          linarith
        calc
          _ = (soldUnits (sellLots rate answer (need - rowUnits row) rest).sold -
              (need - rowUnits row)) * rate := by ring
          _ ≤ _ := ih _ hmore hrest hnone
      · rw [sellLots_done hdone]
        calc
          _ = (rowUnits row - need) * rate := by simp [soldUnits]
          _ ≤ minLeftUsd := hleft.le
          _ ≤ _ := le_add_of_nonneg_right (by positivity)
    · rw [hpart, soldUnits_cons]
      have hround := (abs_le.mp (Rounding.abs_toDigits_sub_le 6 need)).2
      have hscaled := mul_le_mul_of_nonneg_right hround hrate.le
      norm_num [soldUnits, minLeftUsd] at hscaled ⊢
      linarith

lemma sold_answered (hrate : 0 < rate) (lots : List ReserveRow) (need : ℚ)
    (h : (sellLots rate answer need lots).failed = false) :
    ∀ lot ∈ (sellLots rate answer need lots).sold,
      0 ≤ lot.units ∧ (answer lot.positionId).answered = true := by
  induction lots generalizing need with
  | nil => exact fun lot hlot => absurd hlot List.not_mem_nil
  | cons row rest ih =>
    intro lot hlot
    rcases sellLots_cons hrate h with hstop | ⟨⟨hneed, hunits, hanswer⟩, ⟨-, hrest, hwhole⟩ | hpart⟩
    · rw [hstop] at hlot
      exact absurd hlot List.not_mem_nil
    · rw [hwhole, List.mem_cons] at hlot
      rcases hlot with rfl | hlot
      · exact ⟨hunits.le, hanswer⟩
      · exact ih _ hrest lot hlot
    · rw [hpart, List.mem_singleton] at hlot
      rw [hlot]
      exact ⟨Rounding.toDigits_nonneg 6 hneed.le, hanswer⟩

end Lots

section Release

variable {store : Store} {sale : Sale} {short rate : ℚ} {run : SaleRun}

def askedUsd (short rate : ℚ) : ℚ :=
  Rounding.toDigits 2 (short * (1 + releaseMarginPct / 100) - rate / 2000000)

def mostUsd (short rate : ℚ) : ℚ :=
  Rounding.toDigits 2 (short * (1 + releaseMarginPct / 100) + minLeftUsd + rate / 2000000)

/-- A sale that goes through has sold, up to a millionth of a unit or less than a crumb of the last
lot, the units it asked for. -/
structure Sale.Done (sale : Sale) (store : Store) (short : ℚ) (run : SaleRun) (rate : ℚ) : Prop where
  made : sale.run store short = some (run, rate)
  atRate : sale.rate = some rate
  positive : 0 < rate
  lots : ∃ lots, run = sellLots rate sale.closeAnswer (neededUnits short rate) lots
  failed : run.failed = false
  needUnits : run.needUnits ≤ 1 / 1000000000

lemma Sale.run_some (h : sale.run store short = some (run, rate)) :
    sale.rate = some rate ∧ 0 < rate ∧
      ∃ lots, run = sellLots rate sale.closeAnswer (neededUnits short rate) lots := by
  rw [Sale.run] at h
  split at h
  · rename_i rows instrumentId found _ _ hrate
    split_ifs at h with hnone
    cases h
    rw [not_or, not_le] at hnone
    exact ⟨hrate, hnone.2, _, rfl⟩
  · cases h

lemma Sale.done_of_sold {value : ℚ} {confirmed : Option ℚ}
    (h : sale.release store short = .sold value confirmed) :
    ∃ run rate, sale.Done store short run rate := by
  rw [Sale.release] at h
  cases hrun : sale.run store short with
  | none =>
    rw [hrun] at h
    cases h
  | some made =>
    obtain ⟨run, rate⟩ := made
    rw [hrun] at h
    dsimp only at h
    split_ifs at h with hbad
    rw [not_or, Bool.not_eq_true, not_lt] at hbad
    obtain ⟨hrate, hpositive, hlots⟩ := Sale.run_some hrun
    exact ⟨run, rate, hrun, hrate, hpositive, hlots, hbad.1, hbad.2⟩

lemma neededUnits_mul (hrate : 0 < rate) :
    neededUnits short rate * rate = short * (1 + releaseMarginPct / 100) := by
  rw [neededUnits, div_mul_cancel₀ _ hrate.ne']

lemma Sale.Done.asked_le (h : sale.Done store short run rate) :
    askedUsd short rate ≤ soldValue rate run.sold := by
  obtain ⟨lots, hlots⟩ := h.lots
  have hfailed := h.failed
  have hneed := h.needUnits
  rw [hlots] at hfailed hneed ⊢
  have hunits := needed_le_soldUnits h.positive lots _ hfailed
  have hslack : neededUnits short rate - 1 / 2000000 ≤
      soldUnits (sellLots rate sale.closeAnswer (neededUnits short rate) lots).sold := by
    have hmax := max_le (hneed.trans (by norm_num : (1 : ℚ) / 1000000000 ≤ 1 / 2000000))
      (le_refl ((1 : ℚ) / 2000000))
    linarith
  apply Rounding.toDigits_mono
  calc
    _ = (neededUnits short rate - 1 / 2000000) * rate := by
      rw [sub_mul, neededUnits_mul h.positive]
      ring
    _ ≤ _ := mul_le_mul_of_nonneg_right hslack h.positive.le

lemma Sale.Done.le_most (h : sale.Done store short run rate) (hshort : 0 < short) :
    soldValue rate run.sold ≤ mostUsd short rate := by
  obtain ⟨lots, hlots⟩ := h.lots
  have hfailed := h.failed
  rw [hlots] at hfailed ⊢
  have hneed : 0 ≤ neededUnits short rate := by
    have := h.positive
    rw [neededUnits, releaseMarginPct]
    positivity
  have hunits := soldUnits_le_needed h.positive lots _ hneed hfailed
  rw [sub_mul, neededUnits_mul h.positive] at hunits
  apply Rounding.toDigits_mono
  rw [soldUnits] at hunits
  linarith

lemma Sale.Done.closed (h : sale.Done store short run rate) :
    ∀ lot ∈ run.sold, 0 ≤ lot.units ∧ (sale.closeAnswer lot.positionId).answered = true := by
  obtain ⟨lots, hlots⟩ := h.lots
  have hfailed := h.failed
  rw [hlots] at hfailed ⊢
  exact sold_answered h.positive lots _ hfailed

lemma Sale.Done.effective (h : sale.Done store short run rate)
    (heffective : ∀ positionId, (sale.closeAnswer positionId).answered = true →
      (sale.closeAnswer positionId).effective = true) :
    run.sold.filter (fun lot => (sale.closeAnswer lot.positionId).effective) = run.sold := by
  rw [List.filter_eq_self]
  intro lot hlot
  exact heffective lot.positionId (h.closed lot hlot).2

lemma Sale.Done.effective_nonneg (h : sale.Done store short run rate) :
    0 ≤ soldValue rate (run.sold.filter fun lot => (sale.closeAnswer lot.positionId).effective) := by
  apply Rounding.toDigits_nonneg
  apply mul_nonneg _ h.positive.le
  apply List.sum_nonneg
  intro units hunits
  obtain ⟨lot, hlot, rfl⟩ := List.mem_map.mp hunits
  exact (h.closed lot (List.mem_of_mem_filter hlot)).1

lemma Sale.Done.effective_le (h : sale.Done store short run rate) :
    soldValue rate (run.sold.filter fun lot => (sale.closeAnswer lot.positionId).effective) ≤
      soldValue rate run.sold := by
  apply Rounding.toDigits_mono
  apply mul_le_mul_of_nonneg_right _ h.positive.le
  apply List.Sublist.sum_le_sum (List.Sublist.map _ List.filter_sublist)
  intro units hunits
  obtain ⟨lot, hlot, rfl⟩ := List.mem_map.mp hunits
  exact (h.closed lot hlot).1

end Release

def Funding.Capped (funding : Funding) : Prop :=
  funding.exposure + funding.amount - funding.released ≤
    funding.equity * hardMaxExposurePctOfEquity / 100

section Copy

variable {settings : Settings} {store : Store} {input : CopyInput} {times : CopyTimes} {sale : Sale}

def missingRoom (settings : Settings) (store : Store) (input : CopyInput) (times : CopyTimes) : ℚ :=
  let state := currentState store.mirror (utcDate times.readAt)
  (copyStake settings store input times).getD 0 -
    (state.lastEquity.getD 0 * hardMaxExposurePctOfEquity / 100 -
      (openExposureUsd store state times.readAt).getD 0)

structure AsksFor (settings : Settings) (store : Store) (input : CopyInput) (times : CopyTimes)
    (sale : Sale) (short rate : ℚ) : Prop where
  short : saleShortfall settings store.mirror ((copyStake settings store input times).getD 0) =
    some short
  atRate : sale.rate = some rate

@[simp]
lemma saleShortfall_currentState (state : MirrorState) (today : ℤ) (amount : ℚ) :
    saleShortfall settings (currentState state today) amount = saleShortfall settings state amount := by
  rw [currentState]
  split_ifs <;> rfl

lemma saleShortfall_some {state : MirrorState} {amount short : ℚ}
    (h : saleShortfall settings state amount = some short) :
    settings.spyReserveEnabled = true ∧ 0 < short ∧
      ∃ cash, state.lastCash = some cash ∧ shortfall cash amount = short := by
  rw [saleShortfall] at h
  split_ifs at h with henabled
  obtain ⟨hfound, hpositive⟩ := Option.filter_eq_some_iff.mp h
  obtain ⟨cash, hcash, hshort⟩ := Option.map_eq_some_iff.mp hfound
  exact ⟨henabled, of_decide_eq_true hpositive, cash, hcash, hshort⟩

lemma sold_of_released {state released : MirrorState} {amount short : ℚ} {release : Release}
    (hshort : saleShortfall settings state amount = some short)
    (h : releaseForCopy settings state amount release = some released) :
    ∃ value confirmed, release = .sold value confirmed := by
  obtain ⟨henabled, hpositive, cash, hcash, hcents⟩ := saleShortfall_some hshort
  rw [shortfall] at hcents
  rw [releaseForCopy, hcash] at h
  simp only [henabled, Bool.not_true, Bool.false_eq_true, if_false, hcents, hpositive.not_ge] at h
  split_ifs at h
  cases release with
  | refused => cases h
  | sold value confirmed => exact ⟨value, confirmed, rfl⟩

lemma prepared_stake {prepared : Prepared}
    (h : prepareCopy settings store (sale.fund settings store input times) times = some prepared) :
    copyStake settings store input times = some prepared.amount :=
  (prepareCopy_some h).amount

lemma prepared_room {prepared : Prepared}
    (h : prepareCopy settings store (sale.fund settings store input times) times = some prepared) :
    missingRoom settings store input times =
      (fundingOf settings store times sale prepared).amount -
        ((fundingOf settings store times sale prepared).equity * hardMaxExposurePctOfEquity / 100 -
          (fundingOf settings store times sale prepared).exposure) := by
  rw [missingRoom, prepared_stake h]
  rfl

lemma capped_iff {prepared : Prepared}
    (h : prepareCopy settings store (sale.fund settings store input times) times = some prepared) :
    (fundingOf settings store times sale prepared).Capped ↔
      missingRoom settings store input times ≤
        (fundingOf settings store times sale prepared).released := by
  rw [prepared_room h, Funding.Capped]
  constructor <;> intro hcap <;> linarith

lemma prepared_sale {prepared : Prepared} {short : ℚ}
    (h : prepareCopy settings store (sale.fund settings store input times) times = some prepared)
    (hshort : saleShortfall settings store.mirror prepared.amount = some short) :
    ∃ run rate, sale.Done store short run rate := by
  obtain ⟨-, -, hrelease⟩ := prepareCopy_steps h
  have hdue := (saleShortfall_currentState store.mirror (utcDate times.readAt) _).trans hshort
  obtain ⟨value, confirmed, hsold⟩ := sold_of_released hdue hrelease
  rw [Sale.fund, prepared_stake h, Option.getD_some, hshort] at hsold
  exact Sale.done_of_sold hsold

lemma released_of_sale {prepared : Prepared} {short rate : ℚ} {run : SaleRun}
    (hshort : saleShortfall settings store.mirror prepared.amount = some short)
    (hdone : sale.Done store short run rate) :
    (fundingOf settings store times sale prepared).released =
      soldValue rate (run.sold.filter fun lot => (sale.closeAnswer lot.positionId).effective) := by
  simp only [fundingOf, Sale.released, saleShortfall_currentState, hshort, Option.bind_some, hdone.made]

lemma released_none {prepared : Prepared}
    (hshort : saleShortfall settings store.mirror prepared.amount = none) :
    (fundingOf settings store times sale prepared).released = 0 := by
  simp only [fundingOf, Sale.released, saleShortfall_currentState, hshort, Option.bind_none]

lemma capped_of_fits {prepared : Prepared}
    (h : prepareCopy settings store (sale.fund settings store input times) times = some prepared)
    (hfits : missingRoom settings store input times ≤ 0) :
    (fundingOf settings store times sale prepared).Capped := by
  rw [capped_iff h]
  cases hshort : saleShortfall settings store.mirror prepared.amount with
  | none =>
    rw [released_none hshort]
    exact hfits
  | some short =>
    obtain ⟨run, rate, hdone⟩ := prepared_sale h hshort
    rw [released_of_sale hshort hdone]
    exact hfits.trans hdone.effective_nonneg

lemma capped_of_asked {prepared : Prepared}
    (h : prepareCopy settings store (sale.fund settings store input times) times = some prepared)
    {short rate : ℚ} (hasks : AsksFor settings store input times sale short rate)
    (hmissing : missingRoom settings store input times ≤ askedUsd short rate)
    (heffective : ∀ positionId, (sale.closeAnswer positionId).answered = true →
      (sale.closeAnswer positionId).effective = true) :
    (fundingOf settings store times sale prepared).Capped := by
  have hshort := hasks.short
  rw [prepared_stake h, Option.getD_some] at hshort
  obtain ⟨run, found, hdone⟩ := prepared_sale h hshort
  have hrate : found = rate := Option.some.inj (hdone.atRate.symm.trans hasks.atRate)
  rw [hrate] at hdone
  rw [capped_iff h, released_of_sale hshort hdone, hdone.effective heffective]
  exact hmissing.trans hdone.asked_le

lemma asked_of_capped {prepared : Prepared}
    (h : prepareCopy settings store (sale.fund settings store input times) times = some prepared)
    (hcapped : (fundingOf settings store times sale prepared).Capped)
    (hmissing : 0 < missingRoom settings store input times) :
    ∃ short rate, AsksFor settings store input times sale short rate ∧
      missingRoom settings store input times ≤ mostUsd short rate := by
  rw [capped_iff h] at hcapped
  cases hshort : saleShortfall settings store.mirror prepared.amount with
  | none =>
    rw [released_none hshort] at hcapped
    exact absurd hmissing hcapped.not_gt
  | some short =>
    obtain ⟨run, rate, hdone⟩ := prepared_sale h hshort
    rw [released_of_sale hshort hdone] at hcapped
    refine ⟨short, rate, ⟨?_, hdone.atRate⟩, ?_⟩
    · rw [prepared_stake h]
      exact hshort
    · exact hcapped.trans (hdone.effective_le.trans (hdone.le_most (saleShortfall_some hshort).2.1))

end Copy

def CoversMissing (settings : Settings) (account : Account) : Event → Prop
  | .copy waits input sale =>
      let store := account.world.store
      let times := waits.times account.world.clock
      input.attempt.possiblyFilled = true → blockers settings store times.gatesAt input.request = [] →
        0 < missingRoom settings store input times →
          (∃ short rate, AsksFor settings store input times sale short rate ∧
              missingRoom settings store input times ≤ askedUsd short rate) ∧
            ∀ positionId, (sale.closeAnswer positionId).answered = true →
              (sale.closeAnswer positionId).effective = true
  | _ => True

def MayCoverMissing (settings : Settings) (account : Account) : Event → Prop
  | .copy waits input sale =>
      let store := account.world.store
      let times := waits.times account.world.clock
      input.attempt.possiblyFilled = true →
        (prepareCopy settings store (sale.fund settings store input times) times).isSome = true →
        0 < missingRoom settings store input times →
          ∃ short rate, AsksFor settings store input times sale short rate ∧
            missingRoom settings store input times ≤ mostUsd short rate
  | _ => True

section Runs

variable {settings : Settings} {clock : NewYorkClock} {instrumentOf : String → ℕ} {account : Account}

def Account.Capped (account : Account) : Prop := ∀ funding ∈ account.fundings, funding.Capped

lemma applyAll_fundings (day : ℤ) (attempt : Attempt) (effects : List Effect) (account : Account) :
    (account.applyAll day attempt effects).fundings = account.fundings := by
  induction effects generalizing account with
  | nil => rfl
  | cons effect rest ih =>
    apply (ih (account.apply day attempt effect)).trans
    cases effect with
    | saveReserve instrumentId lastTopupDay => rfl
    | saveMirror mirror => rfl
    | order rooms => rfl

lemma topUp_fundings (waits : TopUpWaits) (reads : TopUpReads) (done : ℕ) :
    (account.topUp settings clock waits reads done).fundings = account.fundings :=
  applyAll_fundings _ _ _ _

lemma mem_copy_fundings {waits : CopyWaits} {input : CopyInput} {sale : Sale} {funding : Funding} :
    funding ∈ (account.copy settings waits input sale).fundings ↔
      funding ∈ account.fundings ∨ input.attempt.possiblyFilled = true ∧
        ∃ prepared, prepareCopy settings account.world.store
            (sale.fund settings account.world.store input (waits.times account.world.clock))
            (waits.times account.world.clock) = some prepared ∧
          fundingOf settings account.world.store (waits.times account.world.clock) sale prepared =
            funding := by
  rw [Account.copy]
  cases hfilled : input.attempt.possiblyFilled with
  | false => simp [Sale.fund, hfilled]
  | true => simp [Sale.fund, hfilled]

lemma Account.Capped.step (h : account.Capped) (event : Event)
    (hcovers : CoversMissing settings account event) :
    (accountStep settings clock instrumentOf account event).Capped := by
  intro funding hfunding
  cases event with
  | copy waits input sale =>
    rcases mem_copy_fundings.mp hfunding with hold | ⟨hfilled, prepared, hprepared, rfl⟩
    · exact h funding hold
    · rcases le_or_gt (missingRoom settings account.world.store input
        (waits.times account.world.clock)) 0 with hfits | hmissing
      · exact capped_of_fits hprepared hfits
      · obtain ⟨⟨short, rate, hasks, hasked⟩, heffective⟩ :=
          hcovers hfilled (prepareCopy_some hprepared).passed hmissing
        exact capped_of_asked hprepared hasks hasked heffective
  | topUp waits reads done =>
    rw [accountStep, topUp_fundings] at hfunding
    exact h funding hfunding
  | reconcile toRead toDone input => exact h funding hfunding
  | check toRead toDone check => exact h funding hfunding
  | updateScorecard wait update => exact h funding hfunding
  | clearHalt => exact h funding hfunding

lemma Account.Capped.before {event : Event}
    (h : (accountStep settings clock instrumentOf account event).Capped) :
    account.Capped ∧ MayCoverMissing settings account event := by
  cases event with
  | copy waits input sale =>
    constructor
    · exact fun funding hfunding => h funding (mem_copy_fundings.mpr (Or.inl hfunding))
    · intro hfilled hsome hmissing
      obtain ⟨prepared, hprepared⟩ := Option.isSome_iff_exists.mp hsome
      have hcapped := h _ (mem_copy_fundings.mpr (Or.inr ⟨hfilled, prepared, hprepared, rfl⟩))
      exact asked_of_capped hprepared hcapped hmissing
  | topUp waits reads done =>
    refine ⟨?_, trivial⟩
    intro funding hfunding
    rw [← topUp_fundings waits reads done] at hfunding
    exact h funding hfunding
  | reconcile toRead toDone input => exact ⟨h, trivial⟩
  | check toRead toDone check => exact ⟨h, trivial⟩
  | updateScorecard wait update => exact ⟨h, trivial⟩
  | clearHalt => exact ⟨h, trivial⟩

end Runs

/-- The exposure after each copy is within the equity in every run whose copies have room for their
stake, or ask the sale for what is missing; and a run in which it always is has only copies whose
missing room the sale could have brought, its last crumb included. -/
theorem exposure_within_equity (settings : Settings) (clock : NewYorkClock)
    (instrumentOf : String → ℕ) (store : Store) (now : Timestamp) (lastTopupDay : Option ℤ)
    (events : List Event) :
    let step := accountStep settings clock instrumentOf
    let start := Account.start store now lastTopupDay
    (Runs.Allowed step (CoversMissing settings) start events →
        ∀ funding ∈ (Runs.run step start events).fundings, funding.Capped) ∧
      ((∀ funding ∈ (Runs.run step start events).fundings, funding.Capped) →
        Runs.Allowed step (MayCoverMissing settings) start events) := by
  intro step start
  have hstart : start.Capped := fun funding hfunding => absurd hfunding List.not_mem_nil
  constructor
  · intro hcovers
    have hcapped : (Runs.run step start events).Capped :=
      Runs.invariant (fun account event h => h.step event) hstart hcovers
    exact hcapped
  · intro hcapped
    have hafter : (Runs.run step start events).Capped := hcapped
    have hall : start.Capped ∧ Runs.Allowed step (MayCoverMissing settings) start events :=
      Runs.allowed_of_run (fun account event h => h.before.1) (fun account event h => h.before.2) hafter
    exact hall.2

-- The open positions are up three percent and the free cash covers the copy, so nothing
-- is sold.
def investedStore (cash appleCost : ℚ) (marks : Records.Dict String Mark) : Store where
  mirror :=
    { lastEquity := some 10000
      lastCash := some cash
      openSymbols := ["SPY", "AAPL"]
      openNotional :=
        (AList.insert "SPY" { costUsd := some 6000, units := some 10 } ∅).insert "AAPL"
          { costUsd := some appleCost, units := some 20 } }
  marks := marks

def markedUp (now : Timestamp) : Records.Dict String Mark :=
  (AList.insert "SPY" ⟨620, now⟩ ∅).insert "AAPL" ⟨145, now⟩

def reserveSale : Sale where
  rows := some [{ positionId := 1, instrumentId := 5, symbol := "SPY", amount := some 6000, units := some 10 }]
  credit := some 600
  lookup := some 5
  rate := some 600
  polls := [.credit (some 1105)]

theorem exposure_exceeds_equity :
    ¬ ∀ (settings : Settings) (clock : NewYorkClock) (instrumentOf : String → ℕ) (store : Store)
      (now : Timestamp) (lastTopupDay : Option ℤ) (events : List Event),
      ∀ funding ∈ (Runs.run (accountStep settings clock instrumentOf)
        (Account.start store now lastTopupDay) events).fundings, funding.Capped := by
  intro h
  have hcopy := h { spyReserveEnabled := true } easternStandard (fun _ => 1)
    (investedStore 1200 2800 (markedUp (midnight 20000))) (midnight 20000) none
    [.copy {} (entryOf "MSFT") reserveSale]
  revert hcopy
  unfold Funding.Capped
  decide +kernel

theorem exposure_within_equity_sold :
    ∀ funding ∈ (Runs.run (accountStep { spyReserveEnabled := true } easternStandard fun _ => 1)
      (Account.start (investedStore 600 3400 ∅) (midnight 20000) none)
      [.copy {} (entryOf "MSFT") reserveSale]).fundings, funding.Capped := by
  refine (exposure_within_equity _ _ _ _ _ _ _).1 ⟨?_, trivial⟩
  intro _ _ _
  refine ⟨⟨500, 600, ⟨by decide +kernel, rfl⟩, by decide +kernel⟩, fun _ _ => rfl⟩

end AlgoTrader.Broker.Etoro
