import AlgoTrader.Backtesting.EquityCurve
import Mathlib.Algebra.BigOperators.Group.List.Basic
import Mathlib.Tactic.Linarith

/-! Where the cash of a run goes. Cash plus the collateral of the open trade is the initial
cash plus the realized profit after every bar; the reported ending cash is read from the
equity curve, which agrees with cash unless the run ends in bars that dropped a signal. -/

namespace AlgoTrader.Backtesting

open Utils.Time Models BoundedLoop

variable {r : RunInput} {index : ℕ} {s t : LoopState}

def heldNotional (s : LoopState) : ℚ := (s.openTrade.map (·.entryNotional)).getD 0

def realizedPnl (s : LoopState) : ℚ := (s.trades.map (·.record.pnlUsd)).sum

def CashBalanced (initialCash : ℚ) (s : LoopState) : Prop :=
  s.cash + heldNotional s = initialCash + realizedPnl s

lemma cashBalanced_bookExit {c : ℚ} {trade : OpenTrade} (m : CostModel) (action : ExitAction)
    (hopen : s.openTrade = some trade) (h : CashBalanced c s) :
    CashBalanced c (s.bookExit m trade action) := by
  simp only [CashBalanced, heldNotional, realizedPnl, hopen, Option.map_some, Option.getD_some] at h
  simp only [CashBalanced, heldNotional, realizedPnl, bookExit_openTrade, bookExit_cash,
    bookExit_trades, Option.map_none, Option.getD_none, List.map_append, List.map_cons,
    List.map_nil, List.sum_append, List.sum_singleton, closeTrade_pnlUsd]
  linarith

lemma cashBalanced_settleBar {c : ℚ} {bar : Bar} (h : r.settleBar bar index s = .ok t)
    (hs : CashBalanced c s) : CashBalanced c t := by
  obtain ⟨u, rfl, hu⟩ := settleBar_cases h
  rcases hu with ⟨rfl, _⟩ | ⟨trade, action, hopen, _, rfl⟩
  · exact hs
  · exact cashBalanced_bookExit r.runConfig.costModel action hopen hs

lemma cashBalanced_enter {c : ℚ} {attempt : EntryAttempt} (hflat : s.openTrade = none)
    (hcash : attempt.cashAfterEntry = s.cash - attempt.openTrade.entryNotional)
    (h : CashBalanced c s) : CashBalanced c (s.enter attempt) := by
  simp only [CashBalanced, heldNotional, hflat, Option.map_none, Option.getD_none] at h
  simp only [CashBalanced, heldNotional, enter_openTrade, enter_cash, Option.map_some,
    Option.getD_some, hcash, sub_add_cancel]
  simpa [realizedPnl] using h

lemma cashBalanced_processBar {c : ℚ} (h : r.processBar index s = .ok t) (hs : CashBalanced c s) :
    CashBalanced c t := by
  rcases processBar_cases h with ⟨_, rfl⟩ | ⟨bar, settled, outcome, _, _, hsettle, hdecide, rfl⟩
  · exact hs
  · have hb := cashBalanced_settleBar hsettle hs
    cases outcome with
    | notTaken => exact hb
    | dropped => exact hb
    | filled attempt =>
      obtain ⟨_, _, _, hflat, _, _, _, hattempt⟩ := decideEntry_filled hdecide
      exact cashBalanced_enter (s := settled) hflat (attemptEntry_some hattempt).cashAfter hb

theorem cashBalanced_stateAt (h : r.stateAt index = .ok s) : CashBalanced r.runConfig.initialCash s := by
  refine invariant (P := fun _ u => CashBalanced r.runConfig.initialCash u) ?_ ?_ h
  · simp [CashBalanced, heldNotional, realizedPnl, RunInput.initialState]
  · intro i a b _ _ ha hb
    exact cashBalanced_processBar hb ha

def lastEquity (r : RunInput) (s : LoopState) : ℚ := s.equityCurve.getLast?.getD r.runConfig.initialCash

/-- The trade open before the bar `k` was closed there for `action`, by a bar that dropped a
signal, and every bar from `k` to `index` dropped one too. -/
structure DroppedSince (r : RunInput) (k index : ℕ) (s : LoopState) (before : LoopState)
    (trade : OpenTrade) (prev bar : Bar) (action : ExitAction) : Prop where
  lt : k < index
  dropped : ∀ j, k ≤ j → j < index → r.droppedAt j = true
  state : r.stateAt k = .ok before
  held : before.openTrade = some trade
  prevBar : r.normalized[k - 1]? = some prev
  exitBar : r.normalized[k]? = some bar
  exits : BarExit r bar k trade action
  cash : s.cash = before.cash + realizedProceeds r.runConfig.costModel trade action
  equity : lastEquity r s = before.cash + marketValue trade prev

structure EquityTracks (r : RunInput) (index : ℕ) (s : LoopState) : Prop where
  held : ∀ trade, s.openTrade = some trade → ∃ prev, r.normalized[index - 1]? = some prev ∧ 0 < index ∧
    s.equityCurve ≠ [] ∧ lastEquity r s = s.cash + marketValue trade prev
  flat : s.openTrade = none → lastEquity r s = s.cash ∨
    ∃ k before trade prev bar action, DroppedSince r k index s before trade prev bar action

lemma lastEquity_append {curve : List ℚ} {point : ℚ} (h : s.equityCurve = curve ++ [point]) :
    lastEquity r s = point := by
  simp [lastEquity, h]

lemma equityTracks_dropped (hs : r.stateAt index = .ok s) (hd : r.dropsSignal index s = true)
    (htrack : EquityTracks r index s) (h : r.processBar index s = .ok t) :
    EquityTracks r (index + 1) t := by
  obtain ⟨hflat, hcurve, hkeep, hclose⟩ := processBar_dropped h hd
  have hlast : lastEquity r t = lastEquity r s := by simp [lastEquity, hcurve]
  have hdrop : r.droppedAt index = true := by rw [droppedAt_eq hs, hd]
  refine ⟨by simp [hflat], fun _ => ?_⟩
  cases hopen : s.openTrade with
  | some trade =>
    obtain ⟨prev, hprev, _, _, hequity⟩ := htrack.held trade hopen
    obtain ⟨bar, action, hbar, hexit, hcash⟩ := hclose trade hopen
    refine .inr ⟨index, s, trade, prev, bar, action, ?_⟩
    refine ⟨Nat.lt_succ_self _, ?_, hs, hopen, hprev, hbar, hexit, hcash, hlast.trans hequity⟩
    intro j hle hlt
    obtain rfl : j = index := by omega
    exact hdrop
  | none =>
    rw [hlast, hkeep hopen]
    rcases htrack.flat hopen with heq | ⟨k, before, trade, prev, bar, action, hsince⟩
    · exact .inl heq
    · refine .inr ⟨k, before, trade, prev, bar, action, ?_⟩
      refine ⟨Nat.lt_succ_of_lt hsince.lt, ?_, hsince.state, hsince.held, hsince.prevBar,
        hsince.exitBar, hsince.exits, (hkeep hopen).trans hsince.cash, hlast.trans hsince.equity⟩
      intro j hle hlt
      rcases Nat.lt_succ_iff_lt_or_eq.mp hlt with hj | rfl
      · exact hsince.dropped j hle hj
      · exact hdrop

lemma equityTracks_processBar (hlt : index < r.totalBars) (hs : r.stateAt index = .ok s)
    (htrack : EquityTracks r index s) (h : r.processBar index s = .ok t) :
    EquityTracks r (index + 1) t := by
  by_cases he : r.evaluated index
  · cases hd : r.dropsSignal index s with
    | true => exact equityTracks_dropped hs hd htrack h
    | false =>
      obtain ⟨bar, hbar, hcurve⟩ := processBar_marked h he hd
      have hlast := lastEquity_append (r := r) hcurve
      refine ⟨?_, ?_⟩
      · intro trade hopen
        exact ⟨bar, hbar, Nat.succ_pos _, by simp [hcurve], by rw [hlast, hopen]; rfl⟩
      · intro hflat
        exact .inl (by rw [hlast, hflat]; rfl)
  · obtain ⟨_, rfl⟩ | ⟨bar, _, _, hbar, hwarm, _⟩ := processBar_cases h
    · have hnone : t.openTrade = none := by
        by_contra hopen
        obtain ⟨j, hj, hej⟩ := evaluated_of_open hs hopen
        exact he (evaluated_of_le hej hj.le hlt)
      refine ⟨by simp [hnone], fun _ => ?_⟩
      rcases htrack.flat hnone with heq | ⟨k, before, trade, prev, bar, action, hsince⟩
      · exact .inl heq
      · have hek := evaluated_of_droppedAt (hsince.dropped k le_rfl hsince.lt)
        exact absurd (evaluated_of_le hek hsince.lt.le hlt) he
    · exact absurd ⟨bar, hbar, hwarm⟩ he

theorem equityTracks_stateAt (hle : index ≤ r.totalBars) (h : r.stateAt index = .ok s) :
    EquityTracks r index s := by
  refine invariant (P := EquityTracks r) ?_ ?_ h
  · refine ⟨by simp [RunInput.initialState], fun _ => .inl ?_⟩
    simp [lastEquity, RunInput.initialState]
  · intro i a b hi ha hP hb
    exact equityTracks_processBar (hi.trans_le hle) ha hP hb

def CashConserved (r : RunInput) (run : BacktestRun) : Prop :=
  run.endingCash = r.runConfig.initialCash + (run.trades.map (·.pnlUsd)).sum

instance (r : RunInput) (run : BacktestRun) : Decidable (CashConserved r run) :=
  inferInstanceAs (Decidable (_ = _))

/-- The trade held before the bar `k`, if that bar closes it, is closed for exactly what it
was marked at on the bar before. -/
def ExitPaysMark (r : RunInput) (k : ℕ) : Prop :=
  ∀ before trade prev bar action, r.stateAt k = .ok before → before.openTrade = some trade →
    r.normalized[k - 1]? = some prev → r.normalized[k]? = some bar → BarExit r bar k trade action →
    realizedProceeds r.runConfig.costModel trade action = marketValue trade prev

lemma final_cash {looped final : LoopState} (hlooped : r.stateAt r.totalBars = .ok looped)
    (hfinal : r.closeAtEnd looped = .ok final) :
    final.cash = r.runConfig.initialCash + realizedPnl final := by
  have hbalanced := cashBalanced_stateAt hlooped
  rcases closeAtEnd_cases hfinal with ⟨rfl, hflat | hempty⟩ | ⟨trade, _, action, hopen, _, _, _, _, _, rfl⟩
  · simpa [CashBalanced, heldNotional, hflat] using hbalanced
  · have hflat := flat_of_empty hlooped hempty
    simpa [CashBalanced, heldNotional, hflat] using hbalanced
  · have hb := cashBalanced_bookExit r.runConfig.costModel action hopen hbalanced
    simpa [CashBalanced, heldNotional, realizedPnl] using hb

lemma dropped_from {k : ℕ} {before : LoopState} {trade : OpenTrade} {n : ℕ} (hkn : k < n)
    (hdrop : ∀ j, k ≤ j → j < n → r.droppedAt j = true) (hk : r.stateAt k = .ok before)
    (hopen : before.openTrade = some trade) (hn : r.stateAt n = .ok s) :
    s.openTrade = none ∧ lastEquity r s = lastEquity r before ∧ ∃ bar action,
      r.normalized[k]? = some bar ∧ BarExit r bar k trade action ∧
      s.cash = before.cash + realizedProceeds r.runConfig.costModel trade action := by
  obtain ⟨a, u, ha, hu, hsucc⟩ := iterate_lt_ok hn hkn
  obtain rfl : a = before := Except.ok.inj (ha.symm.trans hk)
  have hd : r.dropsSignal k a = true := by rw [← droppedAt_eq hk]; exact hdrop k le_rfl hkn
  obtain ⟨hflat, hcurve, _, hclose⟩ := processBar_dropped hu hd
  obtain ⟨bar, action, hbar, hexit, hcash⟩ := hclose trade hopen
  have hrest : s.openTrade = none ∧ s.equityCurve = u.equityCurve ∧ s.cash = u.cash := by
    refine invariant_from (P := fun _ v => v.openTrade = none ∧ v.equityCurve = u.equityCurve ∧ v.cash = u.cash)
      (Nat.succ_le_of_lt hkn) hsucc ⟨hflat, rfl, rfl⟩ ?_ hn
    rintro i v w hle hlt hv ⟨hvflat, hvcurve, hvcash⟩ hw
    have hdi : r.dropsSignal i v = true := by
      rw [← droppedAt_eq hv]
      exact hdrop i (Nat.le_of_succ_le hle) hlt
    obtain ⟨hwflat, hwcurve, hwkeep, _⟩ := processBar_dropped hw hdi
    exact ⟨hwflat, hwcurve.trans hvcurve, (hwkeep hvflat).trans hvcash⟩
  obtain ⟨hsflat, hscurve, hscash⟩ := hrest
  exact ⟨hsflat, by simp [lastEquity, hscurve, hcurve], bar, action, hbar, hexit, hscash.trans hcash⟩

/-- The reported ending cash is the initial cash plus the profit of every recorded trade
exactly when no trade is closed by the first of the bars, all dropping a signal, that end
the frame, for anything but its last mark. -/
theorem cash_conserved_iff {run : BacktestRun} (h : r.run = .ok run) :
    CashConserved r run ↔ ∀ k < r.totalBars,
      (∀ j, k ≤ j → j < r.totalBars → r.droppedAt j = true) → ExitPaysMark r k := by
  obtain ⟨looped, hlooped, hfinal, hending, _⟩ := run_cases h
  have hcash := final_cash hlooped hfinal
  have hpnl : (run.trades.map (·.pnlUsd)).sum = realizedPnl run.final := by
    simp [BacktestRun.trades, BacktestRun.closed, realizedPnl, Function.comp_def]
  have hiff : CashConserved r run ↔ lastEquity r run.final = run.final.cash := by
    rw [CashConserved, hpnl, hending, hcash]
    rfl
  rw [hiff]
  have htrack := equityTracks_stateAt le_rfl hlooped
  rcases closeAtEnd_cases hfinal with ⟨hsame, hflat⟩ | ⟨trade, _, action, hopen, _, _, _, _, _, hclosed⟩
  · rw [hsame]
    constructor
    · intro heq k hk hdrop before trade prev bar action hbefore hheld hprev hbar hexit
      obtain ⟨_, hequity, bar', action', hbar', hexit', hpaid⟩ := dropped_from hk hdrop hbefore hheld hlooped
      obtain ⟨prev', hprev', _, _, hmark⟩ := (equityTracks_stateAt hk.le hbefore).held trade hheld
      obtain rfl : bar = bar' := Option.some.inj (hbar.symm.trans hbar')
      obtain rfl : prev = prev' := Option.some.inj (hprev.symm.trans hprev')
      obtain rfl : action = action' := hexit.unique hexit'
      linarith
    · intro hpays
      have hnone : looped.openTrade = none := by
        rcases hflat with hflat | hempty
        · exact hflat
        · exact flat_of_empty hlooped hempty
      rcases htrack.flat hnone with heq | ⟨k, before, trade, prev, bar, action, hsince⟩
      · exact heq
      · have := hpays k hsince.lt hsince.dropped before trade prev bar action hsince.state hsince.held
          hsince.prevBar hsince.exitBar hsince.exits
        linarith [hsince.cash, hsince.equity]
  · obtain ⟨_, _, _, hne, _⟩ := htrack.held trade hopen
    rw [hclosed]
    refine iff_of_true ?_ ?_
    · exact lastEquity_append (markLastCash_equityCurve _ hne)
    · intro k hk hdrop before trade' prev bar action hbefore hheld
      have := (dropped_from hk hdrop hbefore hheld hlooped).1
      simp [this] at hopen

theorem reentry_loses_exit_proceeds :
    ∃ run, reentryOnLastBar.run = .ok run ∧ ¬ CashConserved reentryOnLastBar run := by
  obtain ⟨run, hrun, hending, hpnl, _⟩ := reentry_run
  refine ⟨run, hrun, ?_⟩
  rw [CashConserved, hending, hpnl]
  have hcash : reentryOnLastBar.runConfig.initialCash = 1000 := rfl
  rw [hcash]
  norm_num

theorem cash_conserved_iff_reentry : ∃ run, reentryOnLastBar.run = .ok run ∧
    (CashConserved reentryOnLastBar run ↔ ∀ k < reentryOnLastBar.totalBars,
      (∀ j, k ≤ j → j < reentryOnLastBar.totalBars → reentryOnLastBar.droppedAt j = true) →
        ExitPaysMark reentryOnLastBar k) := by
  obtain ⟨run, hrun, _⟩ := reentry_run
  exact ⟨run, hrun, cash_conserved_iff hrun⟩

end AlgoTrader.Backtesting
