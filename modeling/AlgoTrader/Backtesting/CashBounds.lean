import AlgoTrader.Backtesting.CostDecomposition

/-! Bounds on the size of an entry and on the equity of a run. With no leverage an entry never
costs more than the cash at hand, so what a long-only run can lose below zero is only the
costs of closing. -/

namespace AlgoTrader.Backtesting

open Utils.Time Models BoundedLoop

variable {r : RunInput} {index : ℕ} {s t : LoopState}

section Size

variable {config : EngineConfig} {stop : Option ℚ} {price cash quantity : ℚ}

/-- How a positive size comes about: all of the cash, or the risk budget over the distance to
the stop, cut down to the cash. -/
inductive Sized (config : EngineConfig) (stop : Option ℚ) (price cash quantity : ℚ) : Prop
  | allIn (hprice : 0 < price) (hquantity : quantity = cash / price)
      (hstop : ∀ pct level, config.riskPerTradePct = some pct → stop = some level → level ≤ 0)
  | risk (pct level : ℚ) (hpct : config.riskPerTradePct = some pct) (hstop : stop = some level)
      (hlevel : 0 < level) (hdistance : 0 < |price - level|)
      (hfits : quantity * price ≤ cash) (hquantity : quantity * |price - level| = cash * (pct / 100))
  | capped (pct level : ℚ) (hpct : config.riskPerTradePct = some pct) (hstop : stop = some level)
      (hlevel : 0 < level) (hdistance : 0 < |price - level|) (hprice : price ≠ 0)
      (hfits : cash * |price - level| < cash * (pct / 100) * price) (hquantity : quantity = cash / price)

lemma sizePosition_sized (hlev : config.leverage ≤ 1)
    (h : sizePosition config stop price cash = .ok quantity) (hpos : 0 < quantity) :
    Sized config stop price cash quantity := by
  have hallIn : quantity = (if price ≤ 0 then 0 else cash / price) →
      (∀ pct level, config.riskPerTradePct = some pct → stop = some level → level ≤ 0) →
      Sized config stop price cash quantity := by
    intro hq hstop
    split_ifs at hq with hp
    · exact absurd hq hpos.ne'
    · exact .allIn (not_le.mp hp) hq hstop
  unfold sizePosition at h
  cases hpct : config.riskPerTradePct with
  | none =>
    simp only [hpct] at h
    exact hallIn (Except.ok.inj h).symm (by simp [hpct])
  | some pct =>
    cases stop with
    | none =>
      simp only [hpct] at h
      exact hallIn (Except.ok.inj h).symm (by simp)
    | some level =>
      simp only [hpct, max_eq_right hlev, Int.cast_one, mul_one] at h
      rcases le_or_gt level 0 with hlevel | hlevel
      · rw [if_pos hlevel] at h
        refine hallIn (Except.ok.inj h).symm ?_
        rintro _ _ _ ⟨⟩
        exact hlevel
      · rw [if_neg hlevel.not_ge] at h
        split_ifs at h with hdistance hcap hzero
        · exact absurd (Except.ok.inj h).symm hpos.ne'
        · refine .capped pct level hpct rfl hlevel (not_le.mp hdistance) hzero ?_ (Except.ok.inj h).symm
          rwa [div_mul_eq_mul_div, lt_div_iff₀ (not_le.mp hdistance)] at hcap
        · have hd := not_le.mp hdistance
          have hq := (Except.ok.inj h).symm
          refine .risk pct level hpct rfl hlevel hd ?_ ?_
          · rw [hq]
            exact not_lt.mp hcap
          · rw [hq]
            field_simp

lemma Sized.le_cash (h : Sized config stop price cash quantity) : quantity * price ≤ cash := by
  cases h with
  | allIn hprice hquantity => rw [hquantity, div_mul_cancel₀ _ hprice.ne']
  | risk _ _ _ _ _ _ hfits => exact hfits
  | capped _ _ _ _ _ _ hprice _ hquantity => rw [hquantity, div_mul_cancel₀ _ hprice]

end Size

structure EntrySound (config : EngineConfig) (cash : ℚ) (entry : EntryAttempt) : Prop where
  risk : ∀ pct level, config.riskPerTradePct = some pct → entry.openTrade.stopLoss = some level →
    entry.openTrade.quantity * |entry.openTrade.entryPrice - level| ≤ cash * (pct / 100)
  notional : entry.openTrade.entryNotional ≤ cash
  cashAfter : 0 ≤ entry.cashAfterEntry
  funded : 0 < cash

/-- A stop that the session-ATR floor moved to zero or below is no further from the fill than
the risk fraction of the price, and a fill below zero is not bought on an overdrawn account. -/
structure EntryWithin (config : EngineConfig) (cash : ℚ) (entry : EntryAttempt) : Prop where
  stop : ∀ pct level, config.riskPerTradePct = some pct → entry.openTrade.stopLoss = some level → level ≤ 0 →
    entry.openTrade.entryPrice - level ≤ entry.openTrade.entryPrice * (pct / 100)
  price : entry.openTrade.entryPrice < 0 → 0 < cash

section Entry

variable {clock : NewYorkClock} {config : EngineConfig} {signal : Signal} {next : Bar} {cash distance : ℚ}
  {fillBarIndex : ℕ} {entry : EntryAttempt}

lemma attemptEntry_sized (hlev : config.leverage ≤ 1)
    (h : attemptEntry clock config signal next cash fillBarIndex distance = .ok (some entry)) :
    Sized config entry.openTrade.stopLoss entry.openTrade.entryPrice cash entry.openTrade.quantity := by
  obtain ⟨fillPrice, quantity, _, _, _, hsize, hpos, _, rfl⟩ := attemptEntry_eq h
  exact sizePosition_sized hlev hsize hpos

lemma attemptEntry_notional_le (hlev : config.leverage ≤ 1)
    (h : attemptEntry clock config signal next cash fillBarIndex distance = .ok (some entry)) :
    entry.openTrade.entryNotional ≤ cash := by
  rw [(attemptEntry_some h).notional]
  exact (attemptEntry_sized hlev h).le_cash

lemma attemptEntry_cashAfter_nonneg (hlev : config.leverage ≤ 1)
    (h : attemptEntry clock config signal next cash fillBarIndex distance = .ok (some entry)) :
    0 ≤ entry.cashAfterEntry := by
  rw [(attemptEntry_some h).cashAfter]
  exact sub_nonneg.mpr (attemptEntry_notional_le hlev h)

lemma allIn_risk_iff {cash price level pct : ℚ} (hcash : 0 < cash) (hprice : 0 < price) (hlevel : level ≤ 0) :
    cash / price * |price - level| ≤ cash * (pct / 100) ↔ price - level ≤ price * (pct / 100) := by
  rw [abs_of_pos (by linarith), div_mul_eq_mul_div, div_le_iff₀ hprice, mul_assoc,
    mul_le_mul_iff_right₀ hcash, mul_comm (pct / 100)]

theorem entrySound_iff (hlev : config.leverage ≤ 1)
    (h : attemptEntry clock config signal next cash fillBarIndex distance = .ok (some entry)) :
    EntrySound config cash entry ↔ EntryWithin config cash entry := by
  have hpos := (attemptEntry_some h).quantityPos
  have hsized := attemptEntry_sized hlev h
  constructor
  · intro hsound
    refine ⟨?_, fun _ => hsound.funded⟩
    intro pct level hpct hstop hlevel
    have hrisk := hsound.risk pct level hpct hstop
    cases hsized with
    | allIn hprice hquantity _ =>
      rw [hquantity] at hrisk
      exact (allIn_risk_iff hsound.funded hprice hlevel).mp hrisk
    | risk _ level' _ hstop' hlevel' =>
      obtain rfl := Option.some.inj (hstop.symm.trans hstop')
      exact absurd hlevel' hlevel.not_gt
    | capped _ level' _ hstop' hlevel' =>
      obtain rfl := Option.some.inj (hstop.symm.trans hstop')
      exact absurd hlevel' hlevel.not_gt
  · intro hwithin
    have hnotional := attemptEntry_notional_le hlev h
    have hcashAfter := attemptEntry_cashAfter_nonneg hlev h
    cases hsized with
    | allIn hprice hquantity hstop =>
      have hcash : 0 < cash := by
        rw [hquantity, div_pos_iff_of_pos_right hprice] at hpos
        exact hpos
      refine ⟨?_, hnotional, hcashAfter, hcash⟩
      intro pct level hpct hlevel
      have hle := hstop pct level hpct hlevel
      rw [hquantity]
      exact (allIn_risk_iff hcash hprice hle).mpr (hwithin.stop pct level hpct hlevel hle)
    | risk pct level hpct hstop _ hdistance hfits hquantity =>
      refine ⟨?_, hnotional, hcashAfter, ?_⟩
      · intro pct' level' hpct' hstop'
        obtain rfl := Option.some.inj (hpct.symm.trans hpct')
        obtain rfl := Option.some.inj (hstop.symm.trans hstop')
        exact hquantity.le
      · have hbudget : 0 < cash * (pct / 100) := hquantity ▸ mul_pos hpos hdistance
        by_contra hcash
        have hneg : cash < 0 := lt_of_le_of_ne (not_lt.mp hcash) fun h0 => by simp [h0] at hbudget
        have hprice : entry.openTrade.entryPrice < 0 := by
          by_contra hprice
          have := mul_nonneg hpos.le (not_lt.mp hprice)
          linarith
        exact hcash (hwithin.price hprice)
    | capped pct level hpct hstop _ hdistance hprice hfits hquantity =>
      have hcash : 0 < cash := by
        rcases hprice.lt_or_gt with hneg | hgt
        · exact hwithin.price hneg
        · rw [hquantity, div_pos_iff_of_pos_right hgt] at hpos
          exact hpos
      have hgt : 0 < entry.openTrade.entryPrice := by
        rw [hquantity, div_pos_iff_of_pos_left hcash] at hpos
        exact hpos
      refine ⟨?_, hnotional, hcashAfter, hcash⟩
      intro pct' level' hpct' hstop'
      obtain rfl := Option.some.inj (hpct.symm.trans hpct')
      obtain rfl := Option.some.inj (hstop.symm.trans hstop')
      rw [hquantity, div_mul_eq_mul_div, div_le_iff₀ hgt]
      exact hfits.le

end Entry

def EntersAt (r : RunInput) (index : ℕ) (settled : LoopState) (entry : EntryAttempt) : Prop :=
  ∃ s bar, r.stateAt index = .ok s ∧ r.normalized[index]? = some bar ∧ r.inWarmup bar = false ∧
    r.settleBar bar index s = .ok settled ∧ r.decideEntry index settled = .ok (.filled entry)

lemma EntersAt.sound_iff {settled : LoopState} {entry : EntryAttempt} (hlev : r.runConfig.leverage ≤ 1)
    (h : EntersAt r index settled entry) :
    EntrySound r.runConfig settled.cash entry ↔ EntryWithin r.runConfig settled.cash entry := by
  obtain ⟨_, _, _, _, _, _, hdecide⟩ := h
  obtain ⟨_, _, _, _, _, _, _, hattempt⟩ := decideEntry_filled hdecide
  exact entrySound_iff hlev hattempt

def closingCosts (m : CostModel) (trade : OpenTrade) (action : ExitAction) : ℚ :=
  let costs := tradeCosts m trade action
  costs.financingUsd + costs.fxUsd + costs.commissionUsd + costs.slippageUsd + costs.regulatoryUsd

/-- Closing the trade costs no more than its exit notional and the cash at hand. -/
def PaysItsWay (m : CostModel) (cash : ℚ) (trade : OpenTrade) (action : ExitAction) : Prop :=
  closingCosts m trade action ≤ cash + trade.quantity * action.fillPrice

structure CostsCovered (r : RunInput) : Prop where
  initial : 0 ≤ r.runConfig.initialCash
  closes : ∀ bar ∈ r.normalized, 0 ≤ bar.close
  exits : ∀ index s trade bar action, r.stateAt index = .ok s → s.openTrade = some trade →
    r.normalized[index]? = some bar → BarExit r bar index trade action →
    PaysItsWay r.runConfig.costModel s.cash trade action
  endOfData : ∀ s trade finalBar action, r.stateAt r.totalBars = .ok s → s.openTrade = some trade →
    r.normalized.getLast? = some finalBar →
    r.runConfig.costModel.exitFillPrice finalBar.close trade.side false = .ok action.fillPrice →
    action.fillTime = finalBar.timestamp → PaysItsWay r.runConfig.costModel s.cash trade action

structure EquityNonneg (r : RunInput) (run : BacktestRun) : Prop where
  marks : ∀ index s, index ≤ r.totalBars → r.stateAt index = .ok s → ∀ point ∈ s.equityCurve, 0 ≤ point
  curve : ∀ point ∈ run.final.equityCurve, 0 ≤ point
  ending : 0 ≤ run.endingCash

structure NonnegState (s : LoopState) : Prop where
  cash : 0 ≤ s.cash
  held : ∀ trade, s.openTrade = some trade → trade.side = .buy ∧ 0 < trade.quantity
  curve : ∀ point ∈ s.equityCurve, 0 ≤ point

lemma PaysItsWay.cash_nonneg {m : CostModel} {cash : ℚ} {trade : OpenTrade} {action : ExitAction}
    (h : PaysItsWay m cash trade action) (hside : trade.side = .buy) :
    0 ≤ cash + realizedProceeds m trade action := by
  rw [PaysItsWay, closingCosts] at h
  rw [realizedProceeds]
  simp only [hside, reduceCtorEq, if_false]
  linarith

lemma NonnegState.bookExit {m : CostModel} {trade : OpenTrade} {action : ExitAction} (hs : NonnegState s)
    (hopen : s.openTrade = some trade) (hpays : PaysItsWay m s.cash trade action) :
    NonnegState (s.bookExit m trade action) := by
  refine ⟨?_, by simp, hs.curve⟩
  exact hpays.cash_nonneg (hs.held trade hopen).1

lemma NonnegState.mark {bar : Bar} (hs : NonnegState s) (hclose : 0 ≤ bar.close) : NonnegState (s.mark bar) := by
  refine ⟨hs.cash, hs.held, ?_⟩
  intro point hpoint
  rw [mark_equityCurve, List.mem_append, List.mem_singleton] at hpoint
  rcases hpoint with hpoint | rfl
  · exact hs.curve point hpoint
  · cases hopen : s.openTrade with
    | none => exact hs.cash
    | some trade =>
      obtain ⟨hside, hquantity⟩ := hs.held trade hopen
      have hcash := hs.cash
      have hvalue : 0 ≤ trade.quantity * bar.close := mul_nonneg hquantity.le hclose
      simp only [markToMarket, marketValue, hside]
      linarith

lemma NonnegState.enter {signal : Signal} {next : Bar} {cash distance : ℚ} {fillBarIndex : ℕ} {entry : EntryAttempt}
    (hs : NonnegState s) (hlev : r.runConfig.leverage ≤ 1) (hlong : r.runConfig.shortEntries = false)
    (h : attemptEntry r.clock r.runConfig signal next cash fillBarIndex distance = .ok (some entry)) :
    NonnegState (s.enter entry) := by
  have hfill := attemptEntry_some h
  refine ⟨attemptEntry_cashAfter_nonneg hlev h, ?_, hs.curve⟩
  rintro trade ⟨⟩
  refine ⟨?_, hfill.quantityPos⟩
  simp [hfill.side, entrySide, hlong]

lemma nonnegState_processBar (hlev : r.runConfig.leverage ≤ 1) (hlong : r.runConfig.shortEntries = false)
    (hcloses : ∀ bar ∈ r.normalized, 0 ≤ bar.close)
    (hpays : ∀ trade bar action, s.openTrade = some trade → r.normalized[index]? = some bar →
      BarExit r bar index trade action → PaysItsWay r.runConfig.costModel s.cash trade action)
    (h : r.processBar index s = .ok t) (hs : NonnegState s) : NonnegState t := by
  rcases processBar_cases h with ⟨_, rfl⟩ | ⟨bar, settled, outcome, hbar, _, hsettle, hdecide, rfl⟩
  · exact hs
  · have hsettled : NonnegState settled := by
      obtain ⟨u, rfl, hu⟩ := settleBar_cases hsettle
      rcases hu with ⟨rfl, _⟩ | ⟨trade, action, hopen, hexit, rfl⟩
      · exact ⟨hs.cash, hs.held, hs.curve⟩
      · have hbooked := hs.bookExit hopen (hpays trade bar action hopen hbar hexit)
        exact ⟨hbooked.cash, hbooked.held, hbooked.curve⟩
    have hclose := hcloses bar (List.mem_of_getElem? hbar)
    cases outcome with
    | dropped => exact hsettled
    | notTaken => exact hsettled.mark hclose
    | filled entry =>
      obtain ⟨_, _, _, _, _, _, _, hattempt⟩ := decideEntry_filled hdecide
      exact (hsettled.enter hlev hlong hattempt).mark hclose

theorem nonnegState_stateAt (hlev : r.runConfig.leverage ≤ 1) (hlong : r.runConfig.shortEntries = false)
    (hcovered : CostsCovered r) (h : r.stateAt index = .ok s) : NonnegState s := by
  refine invariant (P := fun _ => NonnegState) ?_ ?_ h
  · exact ⟨hcovered.initial, by simp [RunInput.initialState], by simp [RunInput.initialState]⟩
  · intro i a b _ ha hP hb
    exact nonnegState_processBar hlev hlong hcovered.closes (fun trade bar action =>
      hcovered.exits i a trade bar action ha) hb hP

lemma equityNonneg_run {run : BacktestRun} (h : r.run = .ok run) (hlev : r.runConfig.leverage ≤ 1)
    (hlong : r.runConfig.shortEntries = false) (hcovered : CostsCovered r) : EquityNonneg r run := by
  obtain ⟨looped, hlooped, hfinal, hending, _⟩ := run_cases h
  have hloop := nonnegState_stateAt hlev hlong hcovered hlooped
  have hcurve : ∀ point ∈ run.final.equityCurve, 0 ≤ point := by
    rcases closeAtEnd_cases hfinal with ⟨hsame, _⟩ |
      ⟨trade, finalBar, action, hopen, hlast, hfill, htime, _, _, hclosed⟩
    · rw [hsame]
      exact hloop.curve
    · have hpays := hcovered.endOfData looped trade finalBar action hlooped hopen hlast hfill htime
      have hbooked := hloop.bookExit hopen hpays
      have hne : (looped.bookExit r.runConfig.costModel trade action).equityCurve ≠ [] := by
        rw [bookExit_equityCurve]
        exact curve_nonempty_of_open hlooped (by simp [hopen])
      intro point hpoint
      rw [hclosed, markLastCash_equityCurve _ hne, List.mem_append, List.mem_singleton] at hpoint
      rcases hpoint with hpoint | rfl
      · exact hbooked.curve point (List.mem_of_mem_dropLast hpoint)
      · exact hbooked.cash
  refine ⟨fun index s _ hs => (nonnegState_stateAt hlev hlong hcovered hs).curve, hcurve, ?_⟩
  rw [hending]
  cases hlast : run.final.equityCurve.getLast? with
  | none => exact hcovered.initial
  | some point => exact hcurve point (List.mem_of_getLast? hlast)

structure CashBounded (r : RunInput) (run : BacktestRun) : Prop where
  entries : ∀ index settled entry, EntersAt r index settled entry → EntrySound r.runConfig settled.cash entry
  equity : r.runConfig.shortEntries = false → EquityNonneg r run

/-- Without leverage each entry keeps its bounds exactly when its stop, after the floor, is
within them, and a long-only run whose exits pay for themselves has no negative equity. -/
theorem cash_bounded {run : BacktestRun} (h : r.run = .ok run) (hlev : r.runConfig.leverage ≤ 1) :
    (∀ index settled entry, EntersAt r index settled entry →
      (EntrySound r.runConfig settled.cash entry ↔ EntryWithin r.runConfig settled.cash entry)) ∧
    ((∀ index settled entry, EntersAt r index settled entry → EntryWithin r.runConfig settled.cash entry) →
      (r.runConfig.shortEntries = false → CostsCovered r) → CashBounded r run) := by
  have hiff : ∀ index settled entry, EntersAt r index settled entry →
      (EntrySound r.runConfig settled.cash entry ↔ EntryWithin r.runConfig settled.cash entry) :=
    fun _ _ _ henters => henters.sound_iff hlev
  refine ⟨hiff, fun hwithin hcovered => ⟨?_, ?_⟩⟩
  · intro index settled entry henters
    exact (hiff index settled entry henters).mpr (hwithin index settled entry henters)
  · intro hlong
    exact equityNonneg_run h hlev hlong (hcovered hlong)

lemma entersAt_within {settled : LoopState} {entry : EntryAttempt} (h : EntersAt r index settled entry)
    (hfloor : r.runConfig.minStopSessionAtrMultiple = 0)
    (hspread : ∀ extended, |r.runConfig.costModel.halfSpreadFraction extended| < 1) :
    EntryWithin r.runConfig settled.cash entry := by
  obtain ⟨_, _, _, _, _, _, hdecide⟩ := h
  obtain ⟨signal, next, _, _, _, _, _, hattempt⟩ := decideEntry_filled hdecide
  obtain ⟨fillPrice, quantity, hplan, hopen, hfill, _, _, _, rfl⟩ := attemptEntry_eq hattempt
  have hdistance : r.minStopDistance index = 0 := by
    have hatr : r.sessionAtr = [] := by simp [RunInput.sessionAtr, hfloor]
    simp [RunInput.minStopDistance, hatr]
  refine ⟨?_, ?_⟩
  · intro pct level _ hlevel hle
    have hstop : signal.stopLoss = some level := by
      rw [hdistance] at hlevel
      cases hstop : signal.stopLoss with
      | none => simp [filledEntry, entryLevels, hstop] at hlevel
      | some stop => simpa [filledEntry, entryLevels, hstop] using hlevel
    -- a plan with a stop at or below zero is refused
    simp [Signal.validPlan, validTradePlan, hstop, hle] at hplan
  · intro hneg
    obtain ⟨_, hprice⟩ := entryFillPrice_ok hfill
    have hdrag := abs_lt.mp (hspread (isExtended r.clock next.timestamp r.runConfig.barsPerYear))
    have hfactor : 0 < 1 + (entrySide r.runConfig).sign *
        r.runConfig.costModel.halfSpreadFraction (isExtended r.clock next.timestamp r.runConfig.barsPerYear) := by
      cases entrySide r.runConfig with
      | buy =>
        rw [Side.sign, one_mul]
        linarith [hdrag.1]
      | sell =>
        rw [Side.sign, neg_one_mul]
        linarith [hdrag.2]
    have hpos : 0 < fillPrice := hprice ▸ mul_pos hopen hfactor
    exact absurd hneg hpos.not_gt

lemma zeroCostModel_closingCosts (trade : OpenTrade) (action : ExitAction) :
    closingCosts zeroCostModel trade action = 0 := by
  have hholding : ∀ notional entry exit, zeroCostModel.holdingCostUsd notional entry exit = 0 := by
    intro notional entry exit
    rw [CostModel.holdingCostUsd]
    simp [zeroCostModel]
  simp only [closingCosts, tradeCosts, CostModel.shortHoldingCostUsd, hholding]
  simp [CostModel.fxRoundTripCostUsd, CostModel.commissionUsd, CostModel.legFeeUsd, CostModel.slippageUsd,
    CostModel.regulatorySellFeeUsd, zeroCostModel]

lemma zeroCostModel_paysItsWay {trade : OpenTrade} {action : ExitAction} {reference : ℚ} {extended : Bool}
    (hs : NonnegState s) (hopen : s.openTrade = some trade)
    (hfill : zeroCostModel.exitFillPrice reference trade.side extended = .ok action.fillPrice) :
    PaysItsWay zeroCostModel s.cash trade action := by
  obtain ⟨hpos, hprice⟩ := exitFillPrice_ok hfill
  have hdrag : zeroCostModel.halfSpreadFraction extended = 0 := by
    cases extended <;> simp [CostModel.halfSpreadFraction, zeroCostModel]
  rw [hdrag, mul_zero, sub_zero, mul_one] at hprice
  obtain ⟨_, hquantity⟩ := hs.held trade hopen
  have hvalue : 0 < trade.quantity * action.fillPrice := mul_pos hquantity (hprice ▸ hpos)
  rw [PaysItsWay, zeroCostModel_closingCosts]
  linarith [hs.cash]

lemma costsCovered_of_zeroCost (hlev : r.runConfig.leverage ≤ 1) (hlong : r.runConfig.shortEntries = false)
    (hmodel : r.runConfig.costModel = zeroCostModel) (hcash : 0 ≤ r.runConfig.initialCash)
    (hcloses : ∀ bar ∈ r.normalized, 0 ≤ bar.close) : CostsCovered r := by
  have hexits : ∀ index s trade bar action, NonnegState s → s.openTrade = some trade →
      r.normalized[index]? = some bar → BarExit r bar index trade action →
      PaysItsWay r.runConfig.costModel s.cash trade action := by
    intro index s trade bar action hs hopen hbar hexit
    obtain ⟨reference, hpriced⟩ := hexit.priced hbar
    have hfill := hpriced.price
    rw [hmodel] at hfill ⊢
    exact zeroCostModel_paysItsWay hs hopen hfill
  have hstates : ∀ index s, r.stateAt index = .ok s → NonnegState s := by
    intro index s h
    refine invariant (P := fun _ => NonnegState) ?_ ?_ h
    · exact ⟨hcash, by simp [RunInput.initialState], by simp [RunInput.initialState]⟩
    · intro i a b _ _ hP hb
      exact nonnegState_processBar hlev hlong hcloses (fun trade bar action => hexits i a trade bar action hP) hb hP
  refine ⟨hcash, hcloses, ?_, ?_⟩
  · intro index s trade bar action h
    exact hexits index s trade bar action (hstates index s h)
  · intro s trade finalBar action h hopen _ hfill _
    rw [hmodel] at hfill ⊢
    exact zeroCostModel_paysItsWay (hstates _ s h) hopen hfill

theorem cash_bounded_reentry : ∃ run, reentryOnLastBar.run = .ok run ∧ CashBounded reentryOnLastBar run := by
  obtain ⟨run, hrun, _⟩ := reentry_run
  refine ⟨run, hrun, (cash_bounded hrun (by decide)).2 ?_ ?_⟩
  · intro index settled entry henters
    refine entersAt_within henters rfl fun extended => ?_
    cases extended <;> decide +kernel
  · intro hlong
    exact costsCovered_of_zeroCost (by decide) hlong rfl (by decide +kernel) (by decide +kernel)

-- All of the cash is in a position with a stop one tenth of a percent away when the
-- next open is at a cent: the flat fees of its two legs exceed what is left.
def gappedThroughStop : RunInput where
  clock := easternStandard
  config := { costModel := { commissionFlatUsdPerLeg := 1 } }
  strategy window :=
    if window.length = 1 then
      some { action := .buy, price := some 100, stopLoss := some (999 / 10), takeProfit := some 120 }
    else none
  data :=
    [⟨0, 100, 101, 99, 100, 0⟩, ⟨microsPerDay, 100, 101, 100, 101, 0⟩,
      ⟨2 * microsPerDay, 1 / 100, 1 / 50, 1 / 100, 1 / 100, 0⟩]

lemma gappedThroughStop_run : ∃ run, gappedThroughStop.run = .ok run ∧ run.endingCash < 0 := by
  have h : gappedThroughStop.run.toOption.any (fun run => run.endingCash < 0) = true := by decide +kernel
  obtain ⟨run, hrun, hending⟩ := exists_ok_of_any h
  exact ⟨run, hrun, by simpa using hending⟩

theorem gap_through_stop_overdraws : gappedThroughStop.runConfig.leverage ≤ 1 ∧
    ∃ run, gappedThroughStop.run = .ok run ∧ ¬ CashBounded gappedThroughStop run := by
  obtain ⟨run, hrun, hending⟩ := gappedThroughStop_run
  exact ⟨by decide, run, hrun, fun hbounded => hending.not_ge (hbounded.equity rfl).ending⟩

end AlgoTrader.Backtesting
