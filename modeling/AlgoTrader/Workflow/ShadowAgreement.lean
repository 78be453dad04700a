import AlgoTrader.Workflow.ShadowScoring

/-! The engine run on the ledger's setups takes the same trades one at a time, so the two
agree on every trade. -/

namespace AlgoTrader.Workflow

open Utils.Time Models Backtesting BoundedLoop OneAtATime

def setupSignal (setup : Setup) : Signal :=
  { action := .buy, price := some setup.price, stopLoss := some setup.stop, takeProfit := some setup.target }

def setupStrategy (setupAt : ℕ → Option Setup) : Strategy := fun window =>
  (setupAt (window.length - 1)).map setupSignal

def setupRun (clock : NewYorkClock) (config : EngineConfig) (initialCash : Option ℚ) (f : DailyFrame)
    (setupAt : ℕ → Option Setup) : RunInput where
  clock := clock
  config := config
  strategy := setupStrategy setupAt
  data := f.data
  initialCash := initialCash

structure LedgerConfig (config : EngineConfig) : Prop where
  daily : config.barsPerYear ≤ dailyBarsPerYear
  longOnly : config.shortEntries = false
  noDelay : config.entryDelayBars ≤ 0
  sameCost : config.costModel = cost

/-- An entry attempted on this bar, with a stop away from its fill, is sized below the minimum
notional. -/
def minimumBinds (r : RunInput) (index : ℕ) : Bool :=
  match r.stateAt index, r.normalized[index]?, r.signalAt index, r.normalized[index + 1]? with
  | .ok s, some bar, some signal, some next =>
    match r.settleBar bar index s, r.runConfig.costModel.entryFillPrice next.openPrice .buy false with
    | .ok settled, .ok fill =>
      settled.openTrade.isNone && signal.stopLoss ≠ some fill &&
        match sizePosition r.runConfig signal.stopLoss fill settled.cash with
        | .ok quantity => !r.runConfig.costModel.acceptsPosition (quantity * fill)
        | .error _ => false
    | _, _ => false
  | _, _, _, _ => false

def ledgerReason : ExitReason → Option LegReason
  | .stopLoss => some .stop
  | .takeProfit => some .target
  | .endOfData => some .marked
  | _ => none

def recordView (record : TradeRecord) : Option TradeView :=
  (ledgerReason record.reason).map fun reason =>
    ⟨utcDate record.entryTime, utcDate record.exitTime, Rounding.toDigits 4 record.entryPrice,
      Rounding.toDigits 4 record.exitPrice, reason, record.reason = .endOfData⟩

structure DailyRun (r : RunInput) (f : DailyFrame) (setupAt : ℕ → Option Setup) : Prop where
  normalized : r.normalized = f.data
  signal : ∀ index < f.rows.length, r.signalAt index = (setupAt index).map setupSignal
  delay : r.delay = 0
  sessionEnds : r.sessionEnds = []
  sessionAtr : r.sessionAtr = []
  window : r.tradeWindowStart = none
  daily : r.runConfig.barsPerYear ≤ dailyBarsPerYear
  longOnly : r.runConfig.shortEntries = false
  sameCost : r.runConfig.costModel = cost

lemma setupRun_daily (clock : NewYorkClock) {config : EngineConfig} (hconfig : LedgerConfig config)
    (initialCash : Option ℚ) (f : DailyFrame) (setupAt : ℕ → Option Setup) :
    DailyRun (setupRun clock config initialCash f setupAt) f setupAt := by
  have hrun : (setupRun clock config initialCash f setupAt).runConfig = config ∨
      ∃ cash, (setupRun clock config initialCash f setupAt).runConfig = { config with initialCash := cash } := by
    cases initialCash with
    | none => exact .inl rfl
    | some cash => exact .inr ⟨cash, rfl⟩
  have hnormalized : (setupRun clock config initialCash f setupAt).normalized = f.data :=
    normalizeData_of_sorted (data_sorted f)
  have hfields : ∀ {c : EngineConfig}, (c = config ∨ ∃ cash, c = { config with initialCash := cash }) →
      c.barsPerYear ≤ dailyBarsPerYear ∧ c.shortEntries = false ∧ c.entryDelayBars ≤ 0 ∧ c.costModel = cost := by
    rintro c (rfl | ⟨cash, rfl⟩)
    · exact ⟨hconfig.daily, hconfig.longOnly, hconfig.noDelay, hconfig.sameCost⟩
    · exact ⟨hconfig.daily, hconfig.longOnly, hconfig.noDelay, hconfig.sameCost⟩
  obtain ⟨hdaily, hlong, hdelay, hcost⟩ := hfields hrun
  have hintraday : (setupRun clock config initialCash f setupAt).intraday = false := by
    simpa [RunInput.intraday] using hdaily
  refine ⟨hnormalized, ?_, ?_, ?_, ?_, rfl, hdaily, hlong, hcost⟩
  · intro index hindex
    rw [rows_length] at hindex
    rw [RunInput.signalAt, hnormalized]
    change (setupAt ((f.data.take (index + 1)).length - 1)).map setupSignal = _
    rw [List.length_take, min_eq_left (by omega), Nat.add_sub_cancel]
  · simp [RunInput.delay, max_eq_right hdelay]
  · simp [RunInput.sessionEnds, hintraday]
  · simp [RunInput.sessionAtr, hintraday]

section Bar

variable {r : RunInput} {f : DailyFrame} {setupAt : ℕ → Option Setup} {index : ℕ} {s : LoopState}
  {bar : Bar} (h : DailyRun r f setupAt)
include h

lemma atSessionEnd_daily (index : ℕ) : r.atSessionEnd index = false := by
  simp [RunInput.atSessionEnd, h.sessionEnds]

lemma isExtended_daily (t : Timestamp) : isExtended r.clock t r.runConfig.barsPerYear = false :=
  if_pos h.daily

def exitReason : LegReason → ExitReason
  | .stop => .stopLoss
  | .target => .takeProfit
  | .timeExit => .timeStop
  | .marked => .endOfData

structure HeldLong (trade : OpenTrade) (stop target : ℚ) : Prop where
  side : trade.side = .buy
  stopLoss : trade.stopLoss = some stop
  takeProfit : trade.takeProfit = some target
  noTimeStop : trade.maxHoldBars = none
  stopPos : 0 < stop
  targetPos : 0 < target

omit h in
lemma stopOrTarget_long {trade : OpenTrade} {stop target : ℚ} (hheld : HeldLong trade stop target)
    (bar : Bar) : stopOrTarget trade bar =
      (crossed false stop target (rowOf bar)).map fun level => (level.1, exitReason level.2) := by
  simp only [stopOrTarget, hheld.side, hheld.stopLoss, hheld.takeProfit, crossed, rowOf, Option.filter_some]
  by_cases hstop : bar.low ≤ stop
  · simp [hstop, exitReason]
  · by_cases htarget : target ≤ bar.high
    · simp [hstop, htarget, exitReason]
    · simp [hstop, htarget]

lemma signal_not_closing (hindex : index < f.rows.length) {signal : Signal}
    (hsignal : r.signalAt index = some signal) : signal.action ≠ closingAction .buy := by
  rw [h.signal index hindex] at hsignal
  obtain ⟨setup, _, rfl⟩ := Option.map_eq_some_iff.mp hsignal
  simp [setupSignal, closingAction]

lemma evaluateExit_long {trade : OpenTrade} {stop target : ℚ} (hheld : HeldLong trade stop target)
    (hbar : f.data[index]? = some bar) (hopen : 0 < bar.openPrice) :
    evaluateExit r.clock r.runConfig trade bar (r.signalAt index) index (maybeNextBar r.normalized index) =
      .ok ((crossed false stop target (rowOf bar)).map fun level =>
        ⟨level.1 * (1 - halfSpread), bar.timestamp, index, exitReason level.2⟩) := by
  have hindex : index < f.rows.length := by
    rw [rows_length]
    exact (List.getElem?_eq_some_iff.mp hbar).1
  have hdue : timeStopDue trade index = false := by simp [timeStopDue, hheld.noTimeStop]
  unfold evaluateExit
  simp only [hdue, stopOrTarget_long hheld, isExtended_daily h]
  cases hcross : crossed false stop target (rowOf bar) with
  | some level =>
    have hpos := crossed_pos hheld.stopPos hheld.targetPos hopen hcross
    simp only [Option.map_some, h.sameCost, hheld.side, cost_exitFill hpos, ok_bind]
    rfl
  | none =>
    cases hsignal : r.signalAt index with
    | none => rfl
    | some signal =>
      have hstays : ¬ signal.action = closingAction trade.side := by
        rw [hheld.side]
        exact signal_not_closing h hindex hsignal
      cases maybeNextBar r.normalized index with
      | none => rfl
      | some next => exact if_neg hstays

lemma flattenSession_daily (bar : Bar) (s : LoopState) : r.flattenSession bar index s = .ok s := by
  rw [RunInput.flattenSession, atSessionEnd_daily h]
  cases s.openTrade with
  | none => rfl
  | some trade => rfl

lemma settleBar_daily {u : LoopState} (hexit : r.handleExit bar index s = .ok u) :
    r.settleBar bar index s = .ok (u.recordSignal index r.delay (r.signalAt index)) := by
  rw [RunInput.settleBar, hexit, ok_bind, flattenSession_daily h, ok_bind]
  rfl

lemma settleBar_flat (hflat : s.openTrade = none) :
    r.settleBar bar index s = .ok (s.recordSignal index r.delay (r.signalAt index)) := by
  apply settleBar_daily h
  rw [RunInput.handleExit, hflat]
  rfl

lemma handleExit_long {trade : OpenTrade} {stop target : ℚ} (hheld : HeldLong trade stop target)
    (hopenTrade : s.openTrade = some trade) (hbar : f.data[index]? = some bar) (hopen : 0 < bar.openPrice) :
    r.handleExit bar index s = .ok (((crossed false stop target (rowOf bar)).map fun level =>
      s.bookExit r.runConfig.costModel trade
        ⟨level.1 * (1 - halfSpread), bar.timestamp, index, exitReason level.2⟩).getD s) := by
  rw [RunInput.handleExit, hopenTrade]
  dsimp only
  rw [evaluateExit_long h hheld hbar hopen, ok_bind]
  cases crossed false stop target (rowOf bar) with
  | none => rfl
  | some level => rfl

lemma entrySignal_recorded (s : LoopState) (signal : Option Signal) :
    entrySignal (s.recordSignal index r.delay signal).recentSignals index r.delay r.sessionEnds =
      if s.openTrade.isNone then signal else none := by
  have hlast : (s.recordSignal index r.delay signal).recentSignals =
      [(index, if s.openTrade.isNone then signal else none)] := by
    simp [LoopState.recordSignal, h.delay]
  rw [hlast, h.delay]
  simp [entrySignal]

lemma decideEntry_held (index : ℕ) (hopenTrade : s.openTrade.isSome) (signal : Option Signal) :
    r.decideEntry index (s.recordSignal index r.delay signal) = .ok .notTaken := by
  have hnone : s.openTrade.isNone = false := by
    cases hopen : s.openTrade with
    | none => simp [hopen] at hopenTrade
    | some trade => rfl
  rw [RunInput.decideEntry, entrySignal_recorded h, hnone]
  rfl

omit h in
lemma validPlan_setup (setup : Setup) : (setupSignal setup).validPlan = true := by
  obtain ⟨hstop, hprice, htarget⟩ := setup.plan
  have hentry := hstop.trans hprice
  have htop := hentry.trans htarget
  simp [setupSignal, Signal.validPlan, validTradePlan, hprice, htarget, not_le.mpr hstop, not_le.mpr hentry,
    not_le.mpr htop]

omit h in
lemma sizePosition_ok (config : EngineConfig) (stop : Option ℚ) {fill : ℚ} (hfill : 0 < fill) (cash : ℚ) :
    ∃ quantity, sizePosition config stop fill cash = .ok quantity := by
  unfold sizePosition
  cases config.riskPerTradePct with
  | none => exact ⟨_, rfl⟩
  | some risk =>
    cases stop with
    | none => exact ⟨_, rfl⟩
    | some stop =>
      have hne : fill ≠ 0 := hfill.ne'
      simp only [if_neg hne]
      split_ifs <;> exact ⟨_, rfl⟩

omit h in
lemma sizePosition_at_stop {config : EngineConfig} (hrisk : config.riskPerTradePct.isSome) {stop : ℚ}
    (hstop : 0 < stop) (cash : ℚ) : sizePosition config (some stop) stop cash = .ok 0 := by
  obtain ⟨risk, hrisk⟩ := Option.isSome_iff_exists.mp hrisk
  simp [sizePosition, hrisk, not_le.mpr hstop]

structure OpensOn (setup : Setup) (next : Bar) (fillIndex : ℕ) (trade : OpenTrade) : Prop where
  held : HeldLong trade setup.stop setup.target
  time : trade.entryTime = next.timestamp
  price : trade.entryPrice = next.openPrice * (1 + halfSpread)

lemma attemptEntry_setup (setup : Setup) {next : Bar} (hopen : 0 < next.openPrice) (cash : ℚ) (fillIndex : ℕ) :
    ∃ quantity attempt,
      sizePosition r.runConfig (some setup.stop) (next.openPrice * (1 + halfSpread)) cash = .ok quantity ∧
      OpensOn setup next fillIndex attempt.openTrade ∧
      attemptEntry r.clock r.runConfig (setupSignal setup) next cash fillIndex 0 =
        if quantity ≤ 0 ∨ !r.runConfig.costModel.acceptsPosition
            (quantity * (next.openPrice * (1 + halfSpread))) then .ok none
        else .ok (some attempt) := by
  have hhalf : (0 : ℚ) < 1 + halfSpread := by decide +kernel
  have hside : entrySide r.runConfig = .buy := by simp [entrySide, h.longOnly]
  have hlevels : entryLevels r.runConfig (setupSignal setup) (next.openPrice * (1 + halfSpread)) 0 =
      (some setup.stop, some setup.target) := by
    simp [entryLevels, setupSignal]
  obtain ⟨quantity, hquantity⟩ := sizePosition_ok r.runConfig (some setup.stop)
    (mul_pos hopen hhalf) cash
  obtain ⟨hstop, hprice, htarget⟩ := setup.plan
  refine ⟨quantity, filledEntry r.runConfig (setupSignal setup) next cash fillIndex
    (next.openPrice * (1 + halfSpread)) (some setup.stop, some setup.target) quantity, hquantity, ?_, ?_⟩
  · refine ⟨⟨hside, rfl, rfl, rfl, hstop, ?_⟩, rfl, rfl⟩
    linarith
  · rw [attemptEntry]
    simp only [isExtended_daily h, validPlan_setup, hside, h.sameCost, cost_entryFill hopen, ok_bind, hlevels,
      hquantity]
    rw [if_neg (by simpa using hopen)]
    rfl

lemma decideEntry_flat (hflat : s.openTrade = none) (hindex : index < f.rows.length) :
    r.decideEntry index (s.recordSignal index r.delay (r.signalAt index)) =
      match setupAt index, f.data[index + 1]? with
      | none, _ => .ok .notTaken
      | some _, none => .ok .dropped
      | some setup, some next =>
        (attemptEntry r.clock r.runConfig (setupSignal setup) next s.cash (index + 1) 0 >>= fun attempt =>
          match attempt with
          | none => .ok .dropped
          | some entry => .ok (.filled entry)) := by
  have hnone : s.openTrade.isNone = true := by simp [hflat]
  have hdistance : r.minStopDistance index = 0 := by simp [RunInput.minStopDistance, h.sessionAtr]
  rw [RunInput.decideEntry]
  rw [entrySignal_recorded h, if_pos hnone, h.signal index hindex, maybeNextBar_eq, h.normalized]
  cases setupAt index with
  | none => rfl
  | some setup =>
    have hopens : opensPosition (setupSignal setup) r.runConfig.shortEntries = true := by
      simp [opensPosition, h.longOnly, setupSignal]
    simp only [Option.map_some, recordSignal_openTrade, hnone, atSessionEnd_daily h, hopens, hdistance,
      recordSignal_cash]
    cases f.data[index + 1]? with
    | none => rfl
    | some next => rfl

end Bar

def engineViews (s : LoopState) : List (Option TradeView) := s.trades.map fun c => recordView c.record

structure Holds (f : DailyFrame) (index : ℕ) (trade : OpenTrade) (t : SetupTrade) : Prop where
  held : HeldLong trade t.stop t.target
  day : utcDate trade.entryTime = f.dayAt t.entry
  price : trade.entryPrice = t.fill
  pending : t.hit = firstHit t.stop t.target index (f.rows.drop index)

structure HoldsLast (f : DailyFrame) (index : ℕ) (s : LoopState) (d : Desk SetupTrade) (trade : OpenTrade)
    (rest : List SetupTrade) (t : SetupTrade) : Prop where
  taken : d.taken = rest ++ [t]
  free : d.free = t.freeAt
  trades : engineViews s = rest.map fun t => some (t.view f)
  holds : Holds f index trade t

structure Flat (f : DailyFrame) (index : ℕ) (s : LoopState) (d : Desk SetupTrade) : Prop where
  free : d.isFree index = true
  trades : engineViews s = d.taken.map fun t => some (t.view f)

structure Synced (f : DailyFrame) (index : ℕ) (s : LoopState) (d : Desk SetupTrade) : Prop where
  flat : s.openTrade = none → Flat f index s d
  held : ∀ trade, s.openTrade = some trade → ∃ rest t, HoldsLast f index s d trade rest t

lemma crossed_reason {stop target : ℚ} {bar : Row} {level : ℚ × LegReason}
    (h : crossed false stop target bar = some level) :
    ledgerReason (exitReason level.2) = some level.2 ∧ exitReason level.2 ≠ .endOfData := by
  simp only [crossed, Bool.false_eq_true, if_false] at h
  split_ifs at h with hlow hhigh
  · obtain rfl := Option.some.inj h
    exact ⟨rfl, by simp [exitReason]⟩
  · obtain rfl := Option.some.inj h
    exact ⟨rfl, by simp [exitReason]⟩

lemma closing_view {f : DailyFrame} {index : ℕ} {trade : OpenTrade} {t : SetupTrade} (m : CostModel)
    {action : ExitAction} (hholds : Holds f index trade t)
    (hday : utcDate action.fillTime = f.dayAt (exitOrMark f t.hit).1)
    (hprice : action.fillPrice = (exitOrMark f t.hit).2.1 * (1 - halfSpread))
    (hreason : ledgerReason action.reason = some (exitOrMark f t.hit).2.2)
    (hopen : action.reason = .endOfData ↔ t.hit = none) :
    recordView (closeTrade m trade action).tradeRecord = some (t.view f) := by
  have hstill : decide (action.reason = .endOfData) = t.hit.isNone := by
    rw [Bool.eq_iff_iff, decide_eq_true_eq, Option.isNone_iff_eq_none]
    exact hopen
  simp only [recordView, closeTrade, hreason, Option.map_some, hholds.day, hholds.price, hday, hprice, hstill,
    SetupTrade.view]

section Sync

variable {r : RunInput} {f : DailyFrame} {setupAt : ℕ → Option Setup} {index : ℕ} {s : LoopState}
  {d : Desk SetupTrade} (h : DailyRun r f setupAt)
include h

lemma synced_settle {bar : Bar} (hbar : f.data[index]? = some bar) (hsync : Synced f index s d) :
    ∃ u, r.settleBar bar index s = .ok (u.recordSignal index r.delay (r.signalAt index)) ∧
      (u.openTrade = none → Flat f index u d) ∧
      ∀ trade, u.openTrade = some trade → d.isFree index = false ∧
        ∃ rest t, HoldsLast f (index + 1) u d trade rest t := by
  have hrow : f.rows[index]? = some (rowOf bar) := by rw [rows_getElem?, hbar]; rfl
  have hopen : 0 < bar.openPrice := (row_positive hrow).1
  cases hopenTrade : s.openTrade with
  | none =>
    refine ⟨s, settleBar_flat h hopenTrade, hsync.flat, ?_⟩
    intro trade htrade
    simp [hopenTrade] at htrade
  | some trade =>
    obtain ⟨rest, t, hlast⟩ := hsync.held trade hopenTrade
    have hexit := handleExit_long h hlast.holds.held hopenTrade hbar hopen
    refine ⟨_, settleBar_daily h hexit, ?_⟩
    have hpending := hlast.holds.pending
    rw [drop_rows hrow] at hpending
    cases hcross : crossed false t.stop t.target (rowOf bar) with
    | some level =>
      rw [firstHit_crossed hcross] at hpending
      have hview : recordView (closeTrade r.runConfig.costModel trade
          ⟨level.1 * (1 - halfSpread), bar.timestamp, index, exitReason level.2⟩).tradeRecord =
          some (t.view f) := by
        obtain ⟨hreason, hended⟩ := crossed_reason hcross
        apply closing_view r.runConfig.costModel hlast.holds
        · rw [hpending]
          exact (dayAt_eq hrow).symm
        · rw [hpending]
          rfl
        · rw [hpending]
          exact hreason
        · simp [hpending, hended]
      refine ⟨fun _ => ⟨?_, ?_⟩, ?_⟩
      · simp [Desk.isFree, hlast.free, SetupTrade.freeAt, hpending]
      · simp only [Option.map_some, Option.getD_some, engineViews, bookExit_trades, List.map_append,
          List.map_cons, List.map_nil, hview, hlast.taken]
        rw [← hlast.trades]
        rfl
      · intro trade' htrade'
        simp at htrade'
    | none =>
      rw [firstHit_missed hcross] at hpending
      refine ⟨?_, ?_⟩
      · intro hnone
        simp [hopenTrade] at hnone
      · intro trade' htrade'
        obtain rfl : trade = trade' := by
          rw [Option.map_none, Option.getD_none, hopenTrade] at htrade'
          exact Option.some.inj htrade'
        refine ⟨?_, rest, t, hlast.taken, hlast.free, hlast.trades, hlast.holds.held, hlast.holds.day,
          hlast.holds.price, hpending⟩
        simp only [Desk.isFree, hlast.free, SetupTrade.freeAt, hpending]
        cases hhit : firstHit t.stop t.target (index + 1) (f.rows.drop (index + 1)) with
        | none => rfl
        | some hit =>
          have hle := firstHit_le hhit
          simp only [Option.map_some, Option.any_some, decide_eq_false_iff_not]
          omega

lemma accepts_of_not_binding {bar next : Bar} {setup : Setup} {u : LoopState} {quantity : ℚ}
    (hs : r.stateAt index = .ok s) (hbar : f.data[index]? = some bar) (hindex : index < f.rows.length)
    (hsettle : r.settleBar bar index s = .ok (u.recordSignal index r.delay (r.signalAt index)))
    (hflat : u.openTrade = none) (hsetup : setupAt index = some setup)
    (hnext : f.data[index + 1]? = some next) (hopen : 0 < next.openPrice)
    (hne : next.openPrice * (1 + halfSpread) ≠ setup.stop)
    (hquantity : sizePosition r.runConfig (some setup.stop) (next.openPrice * (1 + halfSpread)) u.cash =
      .ok quantity)
    (hmin : minimumBinds r index = false) :
    r.runConfig.costModel.acceptsPosition (quantity * (next.openPrice * (1 + halfSpread))) = true := by
  have hsignal : r.signalAt index = some (setupSignal setup) := by
    rw [h.signal index hindex, hsetup]
    rfl
  have hstop : (setupSignal setup).stopLoss = some setup.stop := rfl
  have hfill := cost_entryFill hopen
  rw [minimumBinds] at hmin
  rw [hs, h.normalized, hbar, hsignal, hnext] at hmin
  rw [hsignal] at hsettle
  simp only [hsettle, h.sameCost, hfill, recordSignal_openTrade, hflat, recordSignal_cash, hstop, hquantity,
    Option.isNone_none, Bool.true_and, Bool.and_eq_false_iff] at hmin
  rcases hmin with hstop' | haccepts
  · simp [hne.symm] at hstop'
  · rw [h.sameCost]
    simpa using haccepts

lemma acceptsPosition_pos {quantity fill : ℚ} (hfill : 0 < fill)
    (haccepts : r.runConfig.costModel.acceptsPosition (quantity * fill) = true) : 0 < quantity := by
  rw [h.sameCost] at haccepts
  have hmin : (50 : ℚ) ≤ quantity * fill := of_decide_eq_true haccepts
  by_contra hle
  have hneg : quantity * fill ≤ 0 := mul_nonpos_of_nonpos_of_nonneg (not_lt.mp hle) hfill.le
  linarith

lemma decideEntry_offer {bar : Bar} {u : LoopState} (hs : r.stateAt index = .ok s)
    (hbar : f.data[index]? = some bar)
    (hsettle : r.settleBar bar index s = .ok (u.recordSignal index r.delay (r.signalAt index)))
    (hflat : u.openTrade = none) (hmin : minimumBinds r index = false)
    (hsized : r.runConfig.riskPerTradePct.isSome ∨ ∀ i setup next, setupAt i = some setup →
      f.rows[i + 1]? = some next → next.openPrice * (1 + halfSpread) ≠ setup.stop) :
    (tradeOffer f setupAt index = none ∧ ∃ outcome,
      r.decideEntry index (u.recordSignal index r.delay (r.signalAt index)) = .ok outcome ∧
        (outcome = .notTaken ∨ outcome = .dropped)) ∨
    ∃ t attempt, tradeOffer f setupAt index = some t ∧
      r.decideEntry index (u.recordSignal index r.delay (r.signalAt index)) = .ok (.filled attempt) ∧
      Holds f (index + 1) attempt.openTrade t := by
  have hindex : index < f.rows.length := by
    rw [rows_length]
    exact (List.getElem?_eq_some_iff.mp hbar).1
  rw [decideEntry_flat h hflat hindex, tradeOffer]
  rw [rows_getElem?]
  cases hsetup : setupAt index with
  | none => exact .inl ⟨rfl, _, rfl, .inl rfl⟩
  | some setup =>
    cases hnext : f.data[index + 1]? with
    | none => exact .inl ⟨rfl, _, rfl, .inr rfl⟩
    | some next =>
      have hrow : f.rows[index + 1]? = some (rowOf next) := by
        rw [rows_getElem?, hnext]
        rfl
      have hopen : 0 < next.openPrice := (row_positive hrow).1
      obtain ⟨quantity, attempt, hquantity, hopens, hattempt⟩ :=
        attemptEntry_setup h setup hopen u.cash (index + 1)
      simp only [Option.map_some]
      by_cases hfill : next.openPrice * (1 + halfSpread) = setup.stop
      · refine .inl ⟨if_pos hfill, .dropped, ?_, .inr rfl⟩
        have hrisk : r.runConfig.riskPerTradePct.isSome := by
          rcases hsized with hrisk | hnever
          · exact hrisk
          · exact absurd hfill (hnever index setup (rowOf next) hsetup hrow)
        rw [hfill, sizePosition_at_stop hrisk setup.plan.1] at hquantity
        obtain rfl := Except.ok.inj hquantity
        rw [hattempt, if_pos (.inl le_rfl), ok_bind]
      · have haccepts := accepts_of_not_binding h hs hbar hindex hsettle hflat hsetup hnext hopen hfill
          hquantity hmin
        have hhalf : (0 : ℚ) < 1 + halfSpread := by decide +kernel
        have hpos := acceptsPosition_pos h (mul_pos hopen hhalf) haccepts
        refine .inr ⟨_, attempt, if_neg hfill, ?_, hopens.held, ?_, hopens.price, rfl⟩
        · rw [hattempt, if_neg (by simp [hpos, haccepts]), ok_bind]
        · rw [hopens.time]
          exact (dayAt_eq hrow).symm

lemma synced_processBar {bar : Bar} (hs : r.stateAt index = .ok s) (hbar : f.data[index]? = some bar)
    (hmin : minimumBinds r index = false)
    (hsized : r.runConfig.riskPerTradePct.isSome ∨ ∀ i setup next, setupAt i = some setup →
      f.rows[i + 1]? = some next → next.openPrice * (1 + halfSpread) ≠ setup.stop)
    (hsync : Synced f index s d) : ∃ t, r.processBar index s = .ok t ∧
      Synced f (index + 1) t (step SetupTrade.freeAt (tradeOffer f setupAt) index d) := by
  obtain ⟨u, hsettle, hflat, hheld⟩ := synced_settle h hbar hsync
  have hprocess : ∀ {outcome : EntryOutcome},
      r.decideEntry index (u.recordSignal index r.delay (r.signalAt index)) = .ok outcome →
      r.processBar index s = .ok (RunInput.applyEntry bar
        (u.recordSignal index r.delay (r.signalAt index)) outcome) := by
    intro outcome hdecide
    have hwarm : r.inWarmup bar = false := by simp [RunInput.inWarmup, h.window]
    rw [RunInput.processBar, h.normalized, hbar]
    simp only [hwarm, hsettle, ok_bind, hdecide]
    rfl
  cases hopenTrade : u.openTrade with
  | some trade =>
    obtain ⟨hbusy, rest, t, hlast⟩ := hheld trade hopenTrade
    have hdecide := decideEntry_held h index (show u.openTrade.isSome by simp [hopenTrade]) (r.signalAt index)
    refine ⟨_, hprocess hdecide, ?_⟩
    rw [step_busy hbusy]
    refine ⟨?_, ?_⟩
    · intro hnone
      simp [RunInput.applyEntry, hopenTrade] at hnone
    · intro trade' htrade'
      obtain rfl : trade = trade' := by simpa [RunInput.applyEntry, hopenTrade] using htrade'
      exact ⟨rest, t, hlast.taken, hlast.free, hlast.trades, hlast.holds⟩
  | none =>
    obtain ⟨hfree, htrades⟩ := hflat hopenTrade
    rcases decideEntry_offer h hs hbar hsettle hopenTrade hmin hsized with
      ⟨hoffer, outcome, hdecide, hout⟩ | ⟨t, attempt, hoffer, hdecide, hholds⟩
    · refine ⟨_, hprocess hdecide, ?_⟩
      rw [step_idle hoffer]
      have hstill : Flat f (index + 1) u d := ⟨isFree_mono hfree (Nat.le_succ index), htrades⟩
      rcases hout with rfl | rfl
      · refine ⟨fun _ => ⟨hstill.free, hstill.trades⟩, ?_⟩
        intro trade htrade
        simp [RunInput.applyEntry, hopenTrade] at htrade
      · refine ⟨fun _ => ⟨hstill.free, hstill.trades⟩, ?_⟩
        intro trade htrade
        simp [RunInput.applyEntry, hopenTrade] at htrade
    · refine ⟨_, hprocess hdecide, ?_⟩
      rw [step_take hfree hoffer]
      refine ⟨?_, ?_⟩
      · intro hnone
        simp [RunInput.applyEntry] at hnone
      · intro trade htrade
        obtain rfl : attempt.openTrade = trade := by simpa [RunInput.applyEntry] using htrade
        exact ⟨d.taken, t, rfl, rfl, htrades, hholds⟩

end Sync

lemma engine_trades {r : RunInput} {f : DailyFrame} {setupAt : ℕ → Option Setup} (h : DailyRun r f setupAt)
    (hmin : ∀ index < f.rows.length, minimumBinds r index = false)
    (hsized : r.runConfig.riskPerTradePct.isSome ∨ ∀ i setup next, setupAt i = some setup →
      f.rows[i + 1]? = some next → next.openPrice * (1 + halfSpread) ≠ setup.stop) :
    ∃ run, r.run = .ok run ∧
      run.trades.map recordView = (tradeDesk f setupAt f.rows.length).taken.map fun t => some (t.view f) := by
  have hloop : ∀ n ≤ f.rows.length, ∃ s, r.stateAt n = .ok s ∧ Synced f n s (tradeDesk f setupAt n) := by
    intro n hn
    induction n with
    | zero =>
      refine ⟨r.initialState, rfl, fun _ => ⟨rfl, rfl⟩, ?_⟩
      intro trade htrade
      simp [RunInput.initialState] at htrade
    | succ n ih =>
      obtain ⟨s, hs, hsync⟩ := ih (Nat.le_of_succ_le hn)
      have hlt : n < f.data.length := rows_length f ▸ hn
      obtain ⟨t, ht, hsync'⟩ := synced_processBar h hs (List.getElem?_eq_getElem hlt) (hmin n hn) hsized hsync
      exact ⟨t, iterate_succ_ok.mpr ⟨s, hs, ht⟩, hsync'⟩
  obtain ⟨looped, hlooped, hsync⟩ := hloop f.rows.length le_rfl
  have htotal : r.totalBars = f.rows.length := by rw [RunInput.totalBars, h.normalized, rows_length]
  have hfinish : ∀ final, r.closeAtEnd looped = .ok final → engineViews final =
      (tradeDesk f setupAt f.rows.length).taken.map (fun t => some (t.view f)) → ∃ run, r.run = .ok run ∧
      run.trades.map recordView = (tradeDesk f setupAt f.rows.length).taken.map fun t => some (t.view f) := by
    intro final hfinal hviews
    obtain ⟨run, hrun, rfl⟩ := run_of_final (htotal ▸ hlooped) hfinal
    refine ⟨run, hrun, ?_⟩
    rw [← hviews, BacktestRun.trades, List.map_map]
    rfl
  cases hopenTrade : looped.openTrade with
  | none =>
    apply hfinish looped ?_ (hsync.flat hopenTrade).trades
    simp only [RunInput.closeAtEnd, hopenTrade]
    rfl
  | some trade =>
    obtain ⟨rest, t, hlast⟩ := hsync.held trade hopenTrade
    have hpending := hlast.holds.pending
    rw [List.drop_length] at hpending
    have hne : f.rows ≠ [] := by
      intro hempty
      have htaken := hlast.taken
      rw [hempty] at htaken
      simp [tradeDesk, OneAtATime.run, Desk.empty] at htaken
    have hlt : f.rows.length - 1 < f.rows.length := by
      have := List.length_pos_iff.mpr hne
      omega
    obtain ⟨bar, hbar, hrow⟩ := Option.map_eq_some_iff.mp
      ((rows_getElem? f (f.rows.length - 1)).symm.trans (List.getElem?_eq_getElem hlt))
    have hbarRow : f.rows[f.rows.length - 1]? = some (rowOf bar) := by rw [rows_getElem?, hbar]; rfl
    have hclose : 0 < bar.close := (row_positive hbarRow).2.2.2
    have hgetLast : r.normalized.getLast? = some bar := by
      rw [h.normalized, List.getLast?_eq_getElem?, ← rows_length]
      exact hbar
    have hfill : r.runConfig.costModel.exitFillPrice bar.close trade.side false =
        .ok (bar.close * (1 - halfSpread)) := by
      rw [h.sameCost, hlast.holds.held.side]
      exact cost_exitFill hclose
    have hview : recordView (closeTrade r.runConfig.costModel trade
        ⟨bar.close * (1 - halfSpread), bar.timestamp, r.totalBars - 1, .endOfData⟩).tradeRecord =
        some (t.view f) := by
      have hhit : t.hit = none := hpending
      apply closing_view r.runConfig.costModel hlast.holds
      · rw [hhit]
        exact (dayAt_eq hbarRow).symm
      · rw [hhit]
        simp only [exitOrMark, Option.getD_none, closeOf, hbarRow]
        rfl
      · rw [hhit]
        rfl
      · simp [hhit]
    refine hfinish (looped.bookExit r.runConfig.costModel trade
      ⟨bar.close * (1 - halfSpread), bar.timestamp, r.totalBars - 1, .endOfData⟩).markLastCash ?_ ?_
    · simp only [RunInput.closeAtEnd, hopenTrade, hgetLast, hfill, ok_bind]
      rfl
    · simp only [engineViews, markLastCash_trades, bookExit_trades, List.map_append, List.map_cons,
        List.map_nil, hview, hlast.taken]
      rw [← hlast.trades]
      rfl

theorem ledger_agrees_with_engine (clock : NewYorkClock) (config : EngineConfig)
    (hconfig : LedgerConfig config) (initialCash : Option ℚ) (f : DailyFrame) (spec : String)
    (setupAt : ℕ → Option Setup) (today : ℤ)
    (hmin : ∀ index < f.rows.length,
      minimumBinds (setupRun clock config initialCash f setupAt) index = false)
    (hsized : config.riskPerTradePct.isSome ∨ ∀ i setup next, setupAt i = some setup →
      f.rows[i + 1]? = some next → next.openPrice * (1 + halfSpread) ≠ setup.stop) :
    ∃ run scored, (setupRun clock config initialCash f setupAt).run = .ok run ∧
      scoreSymbol (ledgerEntries f spec setupAt f.rows.length) (Workflow.rows f.data) today = .ok scored ∧
      run.trades.map recordView = (ledgerTrades scored).map some := by
  have hdaily := setupRun_daily clock hconfig initialCash f setupAt
  have hrisk : (setupRun clock config initialCash f setupAt).runConfig.riskPerTradePct =
      config.riskPerTradePct := by
    cases initialCash with
    | none => rfl
    | some cash => rfl
  obtain ⟨run, hrun, hengine⟩ := engine_trades hdaily hmin (by rwa [hrisk])
  obtain ⟨scored, hscored, hledger⟩ := ledger_trades f spec setupAt today
  refine ⟨run, scored, hrun, by rwa [rows_data], ?_⟩
  rw [hengine, hledger, List.map_map]
  rfl

def gapBars : DailyFrame where
  data := [⟨0, 101, 103, 100, 102, 0⟩, ⟨microsPerDay, 100, 103, 99, 101, 0⟩,
    ⟨2 * microsPerDay, 101, 112, 100, 108, 0⟩, ⟨3 * microsPerDay, 108, 109, 105, 106, 0⟩]
  positive := by decide +kernel
  ascending := by decide +kernel

def gapSetup : Setup where
  price := 102
  stop := 98
  target := 110
  plan := by norm_num

def setupsOn (setup : Setup) (indices : List ℕ) (index : ℕ) : Option Setup :=
  if index ∈ indices then some setup else none

theorem ledger_agrees_on_gapBars : ∃ run scored,
    (setupRun easternStandard {} none gapBars (setupsOn gapSetup [0, 1, 2])).run = .ok run ∧
      scoreSymbol (ledgerEntries gapBars "trend_following:1d" (setupsOn gapSetup [0, 1, 2]) 4)
        (Workflow.rows gapBars.data) 4 = .ok scored ∧
      run.trades.map recordView = (ledgerTrades scored).map some :=
  ledger_agrees_with_engine easternStandard {} ⟨by decide, rfl, by decide, rfl⟩ none gapBars
    "trend_following:1d" (setupsOn gapSetup [0, 1, 2]) 4 (by decide +kernel) (.inl rfl)

-- With all-in sizing the engine trades a setup that fills at its own stop; with bars
-- taken for intraday ones it refuses the midnight opens of daily bars.
def stopAtFill : Setup where
  price := 102
  stop := 2001 / 20
  target := 110
  plan := by norm_num

def Disagrees (config : EngineConfig) (setup : Setup) : Prop :=
  ∃ run scored, (setupRun easternStandard config none gapBars (setupsOn setup [0])).run = .ok run ∧
    scoreSymbol (ledgerEntries gapBars "trend_following:1d" (setupsOn setup [0]) 4)
      (Workflow.rows gapBars.data) 4 = .ok scored ∧
    run.trades.map recordView ≠ (ledgerTrades scored).map some

lemma disagrees_of_any {config : EngineConfig} {setup : Setup}
    (h : (setupRun easternStandard config none gapBars (setupsOn setup [0])).run.toOption.any (fun run =>
      (scoreSymbol (ledgerEntries gapBars "trend_following:1d" (setupsOn setup [0]) 4)
        (Workflow.rows gapBars.data) 4).toOption.any fun scored =>
          run.trades.map recordView ≠ (ledgerTrades scored).map some) = true) : Disagrees config setup := by
  obtain ⟨run, hrun, hinner⟩ := exists_ok_of_any h
  obtain ⟨scored, hscored, hne⟩ := exists_ok_of_any hinner
  exact ⟨run, scored, hrun, hscored, of_decide_eq_true hne⟩

theorem ledger_disagrees_beyond_risk_sized_daily_runs :
    Disagrees { riskPerTradePct := none } stopAtFill ∧ Disagrees { barsPerYear := 19656 } gapSetup :=
  ⟨disagrees_of_any (by decide +kernel), disagrees_of_any (by decide +kernel)⟩

end AlgoTrader.Workflow
