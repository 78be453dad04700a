import AlgoTrader.Backtesting.EquityCurve
import AlgoTrader.Lib.OneAtATime

/-! One position at a time: the trades of a run follow one another bar by bar, and every
position the loop opens is closed once. -/

namespace AlgoTrader.Backtesting

open Utils.Time Models BoundedLoop

variable {r : RunInput} {index : ℕ} {s t : LoopState}

namespace ClosedTrade

variable (c : ClosedTrade)

/-- The position is over once the open of `bar` has traded: it was closed on an earlier bar,
or by a strategy exit, which fills at the open. -/
def endedByOpen (bar : ℕ) : Prop :=
  c.exitBarIndex < bar ∨ (c.exitBarIndex = bar ∧ c.record.reason = .strategyExit)

def heldDuring (bar : ℕ) : Prop := c.trade.entryBarIndex ≤ bar ∧ ¬ c.endedByOpen bar

instance (bar : ℕ) : Decidable (c.endedByOpen bar) :=
  inferInstanceAs (Decidable (_ ∨ _))

instance (bar : ℕ) : Decidable (c.heldDuring bar) :=
  inferInstanceAs (Decidable (_ ∧ _))

def timed (bars : Frame) : Prop :=
  (bars[c.trade.entryBarIndex]?).map (·.timestamp) = some c.record.entryTime ∧
    (bars[c.exitBarIndex]?).map (·.timestamp) = some c.record.exitTime

end ClosedTrade

lemma ClosedTrade.endedByOpen.mono {c : ClosedTrade} {i j : ℕ} (h : c.endedByOpen i) (hij : i ≤ j) :
    c.endedByOpen j := by
  rcases hij.eq_or_lt with rfl | hlt
  · exact h
  · obtain hexit | ⟨hexit, _⟩ := h
    · exact .inl (hexit.trans hlt)
    · exact .inl (by omega)

lemma ClosedTrade.endedByOpen.le {c : ClosedTrade} {bar : ℕ} (h : c.endedByOpen bar) :
    c.exitBarIndex ≤ bar := by
  obtain hexit | ⟨hexit, _⟩ := h <;> omega

structure InOrder (r : RunInput) (index : ℕ) (s : LoopState) : Prop where
  closed : ∀ c ∈ s.trades, c.trade.entryBarIndex ≤ c.exitBarIndex ∧ c.endedByOpen index ∧
    c.timed r.normalized
  ordered : s.trades.Pairwise fun a b => a.endedByOpen b.trade.entryBarIndex
  held : ∀ trade, s.openTrade = some trade → trade.entryBarIndex ≤ index ∧
    (r.normalized[trade.entryBarIndex]?).map (·.timestamp) = some trade.entryTime ∧
    ∀ c ∈ s.trades, c.endedByOpen trade.entryBarIndex
  opened : s.opened = s.trades.map (·.trade) ++ s.openTrade.toList

lemma InOrder.mono {i j : ℕ} (h : InOrder r i s) (hij : i ≤ j) : InOrder r j s := by
  refine ⟨?_, h.ordered, ?_, h.opened⟩
  · intro c hc
    obtain ⟨hspan, hended, htimed⟩ := h.closed c hc
    exact ⟨hspan, hended.mono hij, htimed⟩
  · intro trade hopen
    obtain ⟨hentry, hrest⟩ := h.held trade hopen
    exact ⟨hentry.trans hij, hrest⟩

lemma inOrder_bookExit {m : CostModel} {trade : OpenTrade} {action : ExitAction} {j : ℕ}
    (hopen : s.openTrade = some trade) (hfill : trade.entryBarIndex ≤ action.fillBarIndex)
    (htime : (r.normalized[action.fillBarIndex]?).map (·.timestamp) = some action.fillTime)
    (hended : action.fillBarIndex < j ∨ (action.fillBarIndex = j ∧ action.reason = .strategyExit))
    (h : InOrder r j s) : InOrder r j (s.bookExit m trade action) := by
  obtain ⟨_, hentrytime, hbefore⟩ := h.held trade hopen
  refine ⟨?_, ?_, by simp, ?_⟩
  · intro c hc
    rw [bookExit_trades, List.mem_append, List.mem_singleton] at hc
    rcases hc with hc | rfl
    · exact h.closed c hc
    · exact ⟨hfill, hended, hentrytime, htime⟩
  · rw [bookExit_trades]
    refine List.pairwise_append.mpr ⟨h.ordered, List.pairwise_singleton _ _, ?_⟩
    intro c hc d hd
    rw [List.mem_singleton] at hd
    rw [hd]
    exact hbefore c hc
  · simp [h.opened, hopen]

lemma inOrder_settleBar {bar : Bar} (hbar : r.normalized[index]? = some bar)
    (h : r.settleBar bar index s = .ok t) (hs : InOrder r index s) : InOrder r (index + 1) t := by
  obtain ⟨u, rfl, hu⟩ := settleBar_cases h
  have hnext := hs.mono (Nat.le_succ index)
  have hu' : InOrder r (index + 1) u := by
    rcases hu with ⟨rfl, _⟩ | ⟨trade, action, hopen, hexit, rfl⟩
    · exact hnext
    · have hfill := hexit.fill hbar
      have hentry := (hs.held trade hopen).1
      exact inOrder_bookExit hopen (hentry.trans hfill.index_le) hfill.timestamp hfill.ended hnext
  exact ⟨hu'.closed, hu'.ordered, hu'.held, hu'.opened⟩

lemma inOrder_enter {attempt : EntryAttempt} {signal : Signal} {next : Bar} {cash : ℚ}
    (hflat : s.openTrade = none) (hnext : r.normalized[index + 1]? = some next)
    (hfill : EntryFill r.clock r.runConfig signal next cash (index + 1) attempt)
    (h : InOrder r (index + 1) s) : InOrder r (index + 1) (s.enter attempt) := by
  refine ⟨h.closed, h.ordered, ?_, by simp [h.opened, hflat]⟩
  rintro trade ⟨⟩
  have hindex := hfill.barIndex
  refine ⟨by omega, by simp [hindex, hnext, hfill.time], ?_⟩
  intro c hc
  rw [hindex]
  exact (h.closed c hc).2.1

lemma inOrder_processBar (h : r.processBar index s = .ok t) (hs : InOrder r index s) :
    InOrder r (index + 1) t := by
  rcases processBar_cases h with ⟨_, rfl⟩ | ⟨bar, settled, outcome, hbar, _, hsettle, hdecide, rfl⟩
  · exact hs.mono (Nat.le_succ index)
  · have hsettled := inOrder_settleBar hbar hsettle hs
    cases outcome with
    | dropped => exact hsettled
    | notTaken => exact ⟨hsettled.closed, hsettled.ordered, hsettled.held, hsettled.opened⟩
    | filled attempt =>
      obtain ⟨signal, next, _, hflat, _, _, hnext, hattempt⟩ := decideEntry_filled hdecide
      have henter := inOrder_enter hflat hnext (attemptEntry_some hattempt) hsettled
      exact ⟨henter.closed, henter.ordered, henter.held, henter.opened⟩

theorem inOrder_stateAt (h : r.stateAt index = .ok s) : InOrder r index s := by
  refine invariant (P := InOrder r) ?_ ?_ h
  · exact ⟨by simp [RunInput.initialState], by simp [RunInput.initialState],
      by simp [RunInput.initialState], by simp [RunInput.initialState]⟩
  · intro i a b _ _ ha hb
    exact inOrder_processBar hb ha

structure NeverOverlap (r : RunInput) (run : BacktestRun) : Prop where
  span : ∀ c ∈ run.closed, c.trade.entryBarIndex ≤ c.exitBarIndex ∧ c.timed r.normalized
  ordered : run.closed.Pairwise fun a b => a.exitBarIndex ≤ b.trade.entryBarIndex
  closedOnce : run.closed.map (·.trade) = run.final.opened ∧ run.final.openTrade = none
  oneAtATime : ∀ bar, (run.closed.filter (·.heldDuring bar)).length ≤ 1

lemma held_once {trades : List ClosedTrade} (bar : ℕ)
    (h : trades.Pairwise fun a b => a.endedByOpen b.trade.entryBarIndex) :
    (trades.filter (·.heldDuring bar)).length ≤ 1 := by
  apply OneAtATime.length_le_one_of_pairwise (h.filter _)
  intro a ha b hb hab
  have hheld : a.heldDuring bar := by simpa using (List.mem_filter.mp ha).2
  have hheld' : b.heldDuring bar := by simpa using (List.mem_filter.mp hb).2
  exact hheld.2 (hab.mono hheld'.1)

lemma inOrder_final {run : BacktestRun} (h : r.run = .ok run) :
    run.final.openTrade = none ∧ ∃ j, InOrder r j run.final := by
  obtain ⟨looped, hlooped, hfinal, _⟩ := run_cases h
  have hlast := inOrder_stateAt hlooped
  rcases closeAtEnd_cases hfinal with ⟨hsame, hflat | hempty⟩ |
    ⟨trade, finalBar, action, hopen, hbar, _, htime, hindex, _, hclosed⟩
  · exact ⟨hsame ▸ hflat, _, hsame ▸ hlast⟩
  · refine ⟨?_, _, hsame ▸ hlast⟩
    cases hopen : looped.openTrade with
    | none => rw [hsame, hopen]
    | some trade => simpa [hempty] using (hlast.held trade hopen).2.1
  · obtain ⟨_, hentry, _⟩ := hlast.held trade hopen
    obtain ⟨entryBar, hentryBar, _⟩ := Option.map_eq_some_iff.mp hentry
    obtain ⟨hentrylt, _⟩ := List.getElem?_eq_some_iff.mp hentryBar
    have hlt : trade.entryBarIndex < r.totalBars := hentrylt
    have hfill : trade.entryBarIndex ≤ action.fillBarIndex := by omega
    have htimestamp : (r.normalized[action.fillBarIndex]?).map (·.timestamp) = some action.fillTime := by
      rw [hindex, RunInput.totalBars, ← List.getLast?_eq_getElem?, hbar, htime]
      rfl
    have hbooked := inOrder_bookExit (m := r.runConfig.costModel) hopen hfill htimestamp
      (.inl (by omega)) hlast
    rw [hclosed]
    exact ⟨rfl, _, hbooked.closed, hbooked.ordered, hbooked.held, hbooked.opened⟩

lemma closed_opened {run : BacktestRun} (h : r.run = .ok run) : run.closed.map (·.trade) = run.final.opened := by
  obtain ⟨hflat, j, horder⟩ := inOrder_final h
  have hopened := horder.opened
  rw [hflat] at hopened
  simpa [BacktestRun.closed] using hopened.symm

theorem trades_never_overlap {run : BacktestRun} (h : r.run = .ok run) : NeverOverlap r run := by
  obtain ⟨hflat, j, horder⟩ := inOrder_final h
  refine ⟨?_, ?_, ⟨closed_opened h, hflat⟩, fun bar => held_once bar horder.ordered⟩
  · intro c hc
    obtain ⟨hspan, _, htimed⟩ := horder.closed c hc
    exact ⟨hspan, htimed⟩
  · exact horder.ordered.imp fun hended => hended.le

def reentryFilled : RunInput :=
  { reentryOnLastBar with data := reentryBars ++ [⟨3 * microsPerDay, 121, 126, 120, 125, 0⟩] }

theorem trades_never_overlap_reentry :
    ∃ run, reentryFilled.run = .ok run ∧ run.closed.length = 2 ∧ NeverOverlap reentryFilled run := by
  have h : reentryFilled.run.toOption.any (fun run => run.closed.length = 2) = true := by decide +kernel
  obtain ⟨run, hrun, htwo⟩ := exists_ok_of_any h
  exact ⟨run, hrun, by simpa using htwo, trades_never_overlap hrun⟩

end AlgoTrader.Backtesting
