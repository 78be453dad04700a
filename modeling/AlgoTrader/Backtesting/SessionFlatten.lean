import AlgoTrader.Backtesting.NoOverlap
import AlgoTrader.Backtesting.SessionCausality

/-! Intraday positions and the session boundary. With the flatten on, a held position has seen
no session end, so an exit on its own bar stays in the session; only a strategy exit, decided
before the flatten and filled at the next open, can leave it. -/

namespace AlgoTrader.Backtesting

open Utils.Time Models BoundedLoop

variable {r : RunInput} {index : ℕ} {s t : LoopState}

structure RunInput.Flattens (r : RunInput) : Prop where
  intraday : r.intraday = true
  flatten : r.runConfig.flattenAtSessionEnd = true

lemma atSessionEnd_eq (hon : r.Flattens) {bar : Bar} (hbar : r.normalized[index]? = some bar) :
    r.atSessionEnd index = match r.normalized[index + 1]? with
      | none => true
      | some next => decide (sessionOf r.clock bar ≠ sessionOf r.clock next) := by
  have hends : r.sessionEnds = lastBarOfSession r.clock r.normalized := by
    simp [RunInput.sessionEnds, hon.intraday, hon.flatten]
  rw [RunInput.atSessionEnd, hends, lastBarOfSession_getElem?, hbar]
  rfl

lemma session_next (hon : r.Flattens) {bar next : Bar} (hbar : r.normalized[index]? = some bar)
    (hnext : r.normalized[index + 1]? = some next) (hend : r.atSessionEnd index = false) :
    sessionOf r.clock bar = sessionOf r.clock next := by
  rw [atSessionEnd_eq hon hbar, hnext] at hend
  simpa using hend

lemma session_between (hon : r.Flattens) {i j : ℕ} {a b : Bar} (ha : r.normalized[i]? = some a)
    (hb : r.normalized[j]? = some b) (hij : i ≤ j)
    (hopen : ∀ k, i ≤ k → k < j → r.atSessionEnd k = false) :
    sessionOf r.clock a = sessionOf r.clock b := by
  induction j, hij using Nat.le_induction generalizing b with
  | base =>
    rw [ha] at hb
    rw [Option.some.inj hb]
  | succ j hle ih =>
    obtain ⟨hlt, -⟩ := List.getElem?_eq_some_iff.mp hb
    obtain ⟨prev, hprev⟩ : ∃ prev, r.normalized[j]? = some prev :=
      ⟨_, List.getElem?_eq_getElem (Nat.lt_of_succ_lt hlt)⟩
    have hsame := ih hprev fun k hk hkj => hopen k hk (by omega)
    exact hsame.trans (session_next hon hprev hb (hopen j hle (by omega)))

def HeldInSession (r : RunInput) (index : ℕ) (s : LoopState) : Prop :=
  ∀ trade, s.openTrade = some trade → ∀ k, trade.entryBarIndex ≤ k → k < index →
    r.atSessionEnd k = false

lemma heldInSession_settled {bar : Bar} (h : r.settleBar bar index s = .ok t)
    (hs : HeldInSession r index s) : HeldInSession r (index + 1) t := by
  obtain ⟨u, rfl, hu⟩ := settleBar_cases h
  rcases hu with ⟨rfl, hstays⟩ | ⟨trade, action, _, _, rfl⟩
  · intro trade hopen k hk hlt
    rcases Nat.lt_succ_iff_lt_or_eq.mp hlt with hlt | rfl
    · exact hs trade hopen k hk hlt
    · exact (hstays trade hopen).1
  · intro trade' hopen
    simp at hopen

lemma heldInSession_processBar (hlt : index < r.totalBars) (hstate : r.stateAt index = .ok s)
    (h : r.processBar index s = .ok t) (hs : HeldInSession r index s) :
    HeldInSession r (index + 1) t := by
  rcases processBar_cases h with ⟨hwarm, rfl⟩ | ⟨bar, settled, outcome, _, _, hsettle, hdecide, rfl⟩
  · -- a bar that is skipped as warm-up comes before every position
    intro trade hopen
    obtain ⟨j, hj, hev⟩ := evaluated_of_open hstate (by simp [hopen])
    exact absurd (evaluated_of_le hev hj.le hlt) hwarm
  · have hsettled := heldInSession_settled hsettle hs
    cases outcome with
    | dropped => exact hsettled
    | notTaken => exact hsettled
    | filled attempt =>
      obtain ⟨_, _, _, _, _, _, _, hattempt⟩ := decideEntry_filled hdecide
      have hindex := (attemptEntry_some hattempt).barIndex
      rintro trade ⟨⟩ k hk hk'
      omega

theorem heldInSession_stateAt (hle : index ≤ r.totalBars) (h : r.stateAt index = .ok s) :
    HeldInSession r index s := by
  refine invariant (P := HeldInSession r) ?_ ?_ h
  · intro trade hopen
    simp [RunInput.initialState] at hopen
  · intro i a b hi ha hP hb
    exact heldInSession_processBar (hi.trans_le hle) ha hb hP

lemma session_of_held (hon : r.Flattens) (hle : index ≤ r.totalBars) (h : r.stateAt index = .ok s)
    {trade : OpenTrade} (hopen : s.openTrade = some trade) {j : ℕ} {bar : Bar}
    (hbar : r.normalized[j]? = some bar) (hj : trade.entryBarIndex ≤ j) (hji : j ≤ index) :
    r.clock.date trade.entryTime = sessionOf r.clock bar := by
  obtain ⟨_, hentry, _⟩ := (inOrder_stateAt h).held trade hopen
  obtain ⟨entryBar, hentryBar, htime⟩ := Option.map_eq_some_iff.mp hentry
  have hsame := session_between hon hentryBar hbar hj fun k hk hkj =>
    heldInSession_stateAt hle h trade hopen k hk (by omega)
  rw [← htime]
  exact hsame

/-- The bar `k` ends its session, another one follows, and the position held at it is not due
for its time stop and at none of its levels when the strategy signals its close. -/
structure CarriedOver (r : RunInput) (k : ℕ) (before : LoopState) (trade : OpenTrade) (bar next : Bar)
    (signal : Signal) : Prop where
  state : r.stateAt k = .ok before
  held : before.openTrade = some trade
  barAt : r.normalized[k]? = some bar
  nextAt : r.normalized[k + 1]? = some next
  boundary : sessionOf r.clock bar ≠ sessionOf r.clock next
  running : timeStopDue trade k = false
  between : stopOrTarget trade bar = none
  signalled : r.signalAt k = some signal
  closes : signal.action = closingAction trade.side

def NeverCarriedOver (r : RunInput) : Prop :=
  ∀ k before trade bar next signal, ¬ CarriedOver r k before trade bar next signal

lemma evaluateExit_strategyExit {clock : NewYorkClock} {config : EngineConfig} {trade : OpenTrade} {bar : Bar}
    {signal : Option Signal} {next : Option Bar} {action : ExitAction}
    (h : evaluateExit clock config trade bar signal index next = .ok (some action))
    (hreason : action.reason = .strategyExit) :
    timeStopDue trade index = false ∧ stopOrTarget trade bar = none := by
  unfold evaluateExit at h
  dsimp only at h
  split_ifs at h with hstop
  · obtain ⟨fill, _, ha⟩ := (bind_eq_ok _ _ _).mp h
    obtain rfl := Option.some.inj ((pure_eq_ok _ _).mp ha)
    simp at hreason
  · refine ⟨by simpa using hstop, ?_⟩
    cases hlevel : stopOrTarget trade bar with
    | none => rfl
    | some level =>
      obtain ⟨rawFill, reason⟩ := level
      simp only [hlevel] at h
      obtain ⟨fill, _, ha⟩ := (bind_eq_ok _ _ _).mp h
      obtain rfl := Option.some.inj ((pure_eq_ok _ _).mp ha)
      rcases stopOrTarget_reason hlevel with rfl | rfl <;> simp at hreason

lemma CarriedOver.action {k : ℕ} {before : LoopState} {trade : OpenTrade} {bar next : Bar} {signal : Signal}
    (h : CarriedOver r k before trade bar next signal) {exitAction : Option ExitAction}
    (heval : evaluateExit r.clock r.runConfig trade bar (r.signalAt k) k
      (maybeNextBar r.normalized k) = .ok exitAction) :
    ∃ action, exitAction = some action ∧ action.fillTime = next.timestamp := by
  rw [maybeNextBar_eq, h.nextAt, h.signalled] at heval
  rw [evaluateExit] at heval
  simp only [h.running, h.between, h.closes, Bool.false_eq_true, if_false, if_true] at heval
  obtain ⟨fill, _, ha⟩ := (bind_eq_ok _ _ _).mp heval
  exact ⟨_, ((pure_eq_ok _ _).mp ha).symm, rfl⟩

def TradeRecord.InOneSession (clock : NewYorkClock) (c : TradeRecord) : Prop :=
  clock.date c.entryTime = clock.date c.exitTime

instance (clock : NewYorkClock) (c : TradeRecord) : Decidable (c.InOneSession clock) :=
  inferInstanceAs (Decidable (_ = _))

lemma trades_prefix_processBar (h : r.processBar index s = .ok t) : s.trades <+: t.trades := by
  rcases processBar_cases h with ⟨_, rfl⟩ | ⟨bar, settled, outcome, _, _, hsettle, _, rfl⟩
  · exact List.prefix_refl _
  · have hsettled : s.trades <+: settled.trades := by
      obtain ⟨u, rfl, hu⟩ := settleBar_cases hsettle
      rcases hu with ⟨rfl, _⟩ | ⟨trade, action, _, _, rfl⟩
      · exact List.prefix_refl _
      · exact List.prefix_append _ _
    cases outcome <;> exact hsettled

lemma trades_prefix_final {run : BacktestRun} (h : r.run = .ok run) (hle : index ≤ r.totalBars)
    (hs : r.stateAt index = .ok s) : s.trades <+: run.closed := by
  obtain ⟨looped, hlooped, hfinal, _⟩ := run_cases h
  have hloop : s.trades <+: looped.trades := by
    refine invariant_from (P := fun _ u => s.trades <+: u.trades) hle hs (List.prefix_refl _) ?_ hlooped
    intro i a b _ _ _ ha hb
    exact ha.trans (trades_prefix_processBar hb)
  refine hloop.trans ?_
  rcases closeAtEnd_cases hfinal with ⟨hsame, _⟩ | ⟨_, _, _, _, _, _, _, _, _, hclosed⟩
  · rw [BacktestRun.closed, hsame]
  · rw [BacktestRun.closed, hclosed]
    exact List.prefix_append _ _

lemma inOneSession_exit (hon : r.Flattens) (hkept : NeverCarriedOver r) (hlt : index < r.totalBars)
    (hs : r.stateAt index = .ok s) {trade : OpenTrade} (hopen : s.openTrade = some trade) {bar : Bar}
    (hbar : r.normalized[index]? = some bar) {action : ExitAction} (hexit : BarExit r bar index trade action) :
    r.clock.date trade.entryTime = r.clock.date action.fillTime := by
  have hentry := ((inOrder_stateAt hs).held trade hopen).1
  have hsession := session_of_held hon hlt.le hs hopen hbar hentry le_rfl
  cases hexit with
  | flattened => exact hsession
  | evaluated heval =>
    obtain ⟨hfill, hsignal⟩ := evaluateExit_some hbar heval
    cases hfill with
    | onBar bar' _ _ hbar' _ htime _ _ =>
      obtain rfl := Option.some.inj (hbar.symm.trans hbar')
      rw [htime]
      exact hsession
    | nextOpen next _ hnext _ htime _ hreason =>
      obtain ⟨hrunning, hbetween⟩ := evaluateExit_strategyExit heval hreason
      obtain ⟨signal, hsig, hcloses⟩ := hsignal hreason
      rw [htime, hsession]
      by_contra hne
      exact hkept index s trade bar next signal
        ⟨hs, hopen, hbar, hnext, hne, hrunning, hbetween, hsig, hcloses⟩

lemma inOneSession_stateAt (hon : r.Flattens) (hkept : NeverCarriedOver r) (hle : index ≤ r.totalBars)
    (h : r.stateAt index = .ok s) : ∀ c ∈ s.trades, c.record.InOneSession r.clock := by
  refine invariant (P := fun _ u => ∀ c ∈ u.trades, c.record.InOneSession r.clock) ?_ ?_ h
  · simp [RunInput.initialState]
  · intro i a b hi ha hP hb
    have hlt := hi.trans_le hle
    rcases processBar_cases hb with ⟨_, rfl⟩ | ⟨bar, settled, outcome, hbar, _, hsettle, _, rfl⟩
    · exact hP
    · have hsettled : ∀ c ∈ settled.trades, c.record.InOneSession r.clock := by
        obtain ⟨u, rfl, hu⟩ := settleBar_cases hsettle
        rcases hu with ⟨rfl, _⟩ | ⟨trade, action, hopen, hexit, rfl⟩
        · exact hP
        · intro c hc
          rw [recordSignal_trades, bookExit_trades, List.mem_append, List.mem_singleton] at hc
          rcases hc with hc | rfl
          · exact hP c hc
          · exact inOneSession_exit hon hkept hlt ha hopen hbar hexit
      cases outcome <;> exact hsettled

lemma inOneSession_final {run : BacktestRun} (h : r.run = .ok run) (hon : r.Flattens)
    (hkept : NeverCarriedOver r) : ∀ c ∈ run.closed, c.record.InOneSession r.clock := by
  obtain ⟨looped, hlooped, hfinal, _⟩ := run_cases h
  have hloop := inOneSession_stateAt hon hkept le_rfl hlooped
  rcases closeAtEnd_cases hfinal with ⟨hsame, _⟩ |
    ⟨trade, finalBar, action, hopen, hlast, _, htime, _, _, hclosed⟩
  · rw [BacktestRun.closed, hsame]
    exact hloop
  · intro c hc
    rw [BacktestRun.closed, hclosed, markLastCash_trades, bookExit_trades, List.mem_append,
      List.mem_singleton] at hc
    rcases hc with hc | rfl
    · exact hloop c hc
    · rw [List.getLast?_eq_getElem?] at hlast
      obtain ⟨hentry, hentrytime, _⟩ := (inOrder_stateAt hlooped).held trade hopen
      obtain ⟨entryBar, hentryBar, _⟩ := Option.map_eq_some_iff.mp hentrytime
      obtain ⟨hentrylt, _⟩ := List.getElem?_eq_some_iff.mp hentryBar
      have hsession := session_of_held hon le_rfl hlooped hopen hlast (by omega) (Nat.sub_le _ _)
      change r.clock.date trade.entryTime = r.clock.date action.fillTime
      rw [htime]
      exact hsession

theorem flatten_keeps_sessions_iff {run : BacktestRun} (h : r.run = .ok run) (hon : r.Flattens) :
    (∀ c ∈ run.trades, c.InOneSession r.clock) ↔ NeverCarriedOver r := by
  constructor
  · intro hsessions k before trade bar next signal hcarried
    obtain ⟨hlt, -⟩ := List.getElem?_eq_some_iff.mp hcarried.barAt
    obtain ⟨looped, hlooped, _⟩ := run_cases h
    obtain ⟨a, u, ha, hu, hsucc⟩ := iterate_lt_ok hlooped hlt
    obtain rfl : a = before := Except.ok.inj (ha.symm.trans hcarried.state)
    have hentry := ((inOrder_stateAt ha).held trade hcarried.held).1
    have hsession := session_of_held hon hlt.le ha hcarried.held hcarried.barAt hentry le_rfl
    obtain ⟨j, hj, hev⟩ := evaluated_of_open ha (by simp [hcarried.held])
    -- the exit of the bar is booked at the next session's open, and stays in the record
    have hbooked : ∃ c ∈ u.trades, ¬ c.record.InOneSession r.clock := by
      rcases processBar_cases hu with ⟨hwarm, _⟩ | ⟨bar', settled, outcome, hbar', _, hsettle, _, rfl⟩
      · exact absurd (evaluated_of_le hev hj.le hlt) hwarm
      · obtain rfl := Option.some.inj (hcarried.barAt.symm.trans hbar')
        obtain ⟨v, rfl, hv⟩ := settleBar_cases hsettle
        rcases hv with ⟨rfl, hstays⟩ | ⟨trade', action, hopen, hexit, rfl⟩
        · obtain ⟨action, hnone, _⟩ := hcarried.action (hstays trade hcarried.held).2
          cases hnone
        · obtain rfl := Option.some.inj (hcarried.held.symm.trans hopen)
          have htime : action.fillTime = next.timestamp := by
            cases hexit with
            | evaluated heval =>
              obtain ⟨action', hsome, htime⟩ := hcarried.action heval
              cases hsome
              exact htime
            | flattened _ hnone _ =>
              obtain ⟨action', hsome, _⟩ := hcarried.action hnone
              cases hsome
          refine ⟨⟨trade, action.fillBarIndex, (closeTrade r.runConfig.costModel trade action).tradeRecord⟩,
            ?_, ?_⟩
          · cases outcome <;> simp [RunInput.applyEntry]
          · intro hone
            have hdates : r.clock.date trade.entryTime = r.clock.date action.fillTime := hone
            rw [htime] at hdates
            exact hcarried.boundary (hsession.symm.trans hdates)
    obtain ⟨c, hc, hbad⟩ := hbooked
    have hfinal := (trades_prefix_final h (Nat.succ_le_of_lt hlt) hsucc).subset hc
    exact hbad (hsessions c.record (List.mem_map_of_mem hfinal))
  · intro hkept c hc
    obtain ⟨closed, hclosed, rfl⟩ := List.mem_map.mp hc
    exact inOneSession_final h hon hkept closed hclosed

-- A long bought at 20:50 UTC (15:50 in New York) and signalled out on the bar at 20:55,
-- the last one of its session: it is sold at the next morning's open.
def fiveMinuteBar (day minute : ℤ) (price : ℚ) : Bar :=
  ⟨day * microsPerDay + minute * microsPerMinute, price, price + 1, price - 1, price, 0⟩

def closingSignal : RunInput where
  clock := easternStandard
  config := { barsPerYear := 19656, costModel := zeroCostModel, flattenAtSessionEnd := true }
  strategy window :=
    match window.length with
    | 1 => some { action := .buy, price := some 100, stopLoss := some 90, takeProfit := some 120 }
    | 3 => some { action := .sell }
    | _ => none
  data := [fiveMinuteBar 0 1245 100, fiveMinuteBar 0 1250 100, fiveMinuteBar 0 1255 101,
    fiveMinuteBar 1 870 97]

lemma closingSignal_run : ∃ run, closingSignal.run = .ok run ∧
    ∃ c ∈ run.trades, ¬ c.InOneSession closingSignal.clock := by
  have h : closingSignal.run.toOption.any (fun run =>
      run.trades.any fun c => !decide (c.InOneSession closingSignal.clock)) = true := by
    decide +kernel
  obtain ⟨run, hrun, hcarried⟩ := exists_ok_of_any h
  obtain ⟨c, hc, hsessions⟩ := List.any_eq_true.mp hcarried
  exact ⟨run, hrun, c, hc, by simpa using hsessions⟩

theorem closing_signal_sells_next_morning : closingSignal.Flattens ∧
    ∃ run, closingSignal.run = .ok run ∧ ¬ ∀ c ∈ run.trades, c.InOneSession closingSignal.clock := by
  obtain ⟨run, hrun, c, hc, hcarried⟩ := closingSignal_run
  exact ⟨⟨rfl, rfl⟩, run, hrun, fun hall => hcarried (hall c hc)⟩

theorem flatten_keeps_sessions_iff_closingSignal : ∃ run, closingSignal.run = .ok run ∧
    ((∀ c ∈ run.trades, c.InOneSession closingSignal.clock) ↔ NeverCarriedOver closingSignal) := by
  obtain ⟨run, hrun, _⟩ := closingSignal_run
  exact ⟨run, hrun, flatten_keeps_sessions_iff hrun ⟨rfl, rfl⟩⟩

end AlgoTrader.Backtesting
