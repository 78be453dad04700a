import AlgoTrader.Backtesting.EquityCurve
import AlgoTrader.Backtesting.SessionCausality

/-! Two runs over frames that agree up to some bar. Processing a bar reads the bars up to
it, the date of the next one (through the session-end flag) and the open a fill lands on. -/

namespace AlgoTrader.Backtesting

open Utils.Time Models BoundedLoop

def RunInput.on (r : RunInput) (data : Frame) : RunInput := { r with data := data }

variable {r : RunInput} {x y : Frame} {n i : ℕ} {s t : LoopState}

lemma on_normalized (hx : TimeSorted x) : (r.on x).normalized = x := normalizeData_of_sorted hx

lemma on_totalBars (hx : TimeSorted x) : (r.on x).totalBars = x.length := by
  rw [RunInput.totalBars, on_normalized hx]

@[simp] lemma on_clock : (r.on x).clock = r.clock := rfl

@[simp] lemma on_runConfig : (r.on x).runConfig = r.runConfig := rfl

@[simp] lemma on_intraday : (r.on x).intraday = r.intraday := rfl

@[simp] lemma on_delay : (r.on x).delay = r.delay := rfl

lemma getElem?_of_take (h : x.take (n + 1) = y.take (n + 1)) (hi : i ≤ n) : x[i]? = y[i]? := by
  have hget := congrArg (·[i]?) h
  simpa [List.getElem?_take, Nat.lt_succ_of_le hi] using hget

lemma take_of_take (h : x.take (n + 1) = y.take (n + 1)) (hi : i ≤ n) :
    x.take (i + 1) = y.take (i + 1) := by
  have htake := congrArg (List.take (i + 1)) h
  simpa [List.take_take, Nat.succ_le_succ hi] using htake

lemma signalAt_congr (hx : TimeSorted x) (hy : TimeSorted y) (h : x.take (n + 1) = y.take (n + 1)) :
    (r.on x).signalAt n = (r.on y).signalAt n := by
  rw [RunInput.signalAt, RunInput.signalAt, on_normalized hx, on_normalized hy, h]
  rfl

lemma minStopDistance_congr (hx : TimeSorted x) (hy : TimeSorted y)
    (h : x.take (n + 1) = y.take (n + 1)) :
    (r.on x).minStopDistance n = (r.on y).minStopDistance n := by
  have hatr : ((sessionAtrByBar r.clock x)[n]?).join = ((sessionAtrByBar r.clock y)[n]?).join := by
    rw [sessionAtrByBar_getElem?, sessionAtrByBar_getElem?, getElem?_of_take h le_rfl]
    cases hbar : y[n]? with
    | none => rfl
    | some bar =>
      have hbarx : x[n]? = some bar := (getElem?_of_take h le_rfl).trans hbar
      simp only [Option.map_some]
      rw [atrBefore_take hx hbarx, atrBefore_take hy hbar, h]
  have hsession : ((r.on x).sessionAtr[n]?).join = ((r.on y).sessionAtr[n]?).join := by
    simp only [RunInput.sessionAtr, on_normalized hx, on_normalized hy, on_clock, on_runConfig, on_intraday]
    split_ifs
    · exact hatr
    · rfl
  rw [RunInput.minStopDistance, hsession]
  rfl

lemma sessionEnds_getElem? (hx : TimeSorted x) (i : ℕ) : (r.on x).sessionEnds[i]? =
    if r.intraday ∧ r.runConfig.flattenAtSessionEnd then (lastBarOfSession r.clock x)[i]? else none := by
  simp only [RunInput.sessionEnds, on_normalized hx, on_clock, on_runConfig, on_intraday]
  split_ifs <;> rfl

lemma sessionEnds_congr_lt (hx : TimeSorted x) (hy : TimeSorted y)
    (h : x.take (n + 1) = y.take (n + 1)) (hi : i < n) :
    (r.on x).sessionEnds[i]? = (r.on y).sessionEnds[i]? := by
  rw [sessionEnds_getElem? hx, sessionEnds_getElem? hy, lastBarOfSession_getElem?,
    lastBarOfSession_getElem?, getElem?_of_take h hi.le, getElem?_of_take h hi]

lemma sessionEnds_take (hx : TimeSorted x) (hy : TimeSorted y) (h : x.take (n + 1) = y.take (n + 1)) :
    (r.on x).sessionEnds.take n = (r.on y).sessionEnds.take n := by
  apply List.ext_getElem?
  intro i
  by_cases hi : i < n
  · rw [List.getElem?_take_of_lt hi, List.getElem?_take_of_lt hi, sessionEnds_congr_lt hx hy h hi]
  · rw [List.getElem?_take_eq_none (by omega), List.getElem?_take_eq_none (by omega)]

lemma atSessionEnd_congr (hx : TimeSorted x) (hy : TimeSorted y) (h : x.take (n + 1) = y.take (n + 1))
    (hnext : (x[n + 1]?).map (·.timestamp) = (y[n + 1]?).map (·.timestamp)) :
    (r.on x).atSessionEnd n = (r.on y).atSessionEnd n := by
  unfold RunInput.atSessionEnd
  rw [sessionEnds_getElem? hx, sessionEnds_getElem? hy, lastBarOfSession_getElem?,
    lastBarOfSession_getElem?, getElem?_of_take h le_rfl]
  cases hxn : x[n + 1]? with
  | none =>
    have hyn : y[n + 1]? = none := by simpa [hxn] using hnext.symm
    rw [hyn]
  | some next =>
    obtain ⟨next', hyn, htime⟩ : ∃ next', y[n + 1]? = some next' ∧ next'.timestamp = next.timestamp := by
      rw [hxn] at hnext
      exact Option.map_eq_some_iff.mp hnext.symm
    simp only [hyn, sessionOf, htime]
    rfl

def fillOpen (bar : Bar) : Timestamp × ℚ := (bar.timestamp, bar.openPrice)

lemma evaluateExit_congr {clock : NewYorkClock} {config : EngineConfig} {trade : OpenTrade} {bar : Bar}
    {signal : Option Signal} {index : ℕ} {next next' : Option Bar}
    (h : next.map fillOpen = next'.map fillOpen) :
    evaluateExit clock config trade bar signal index next =
      evaluateExit clock config trade bar signal index next' := by
  cases next with
  | none =>
    obtain rfl : next' = none := by simpa using h.symm
    rfl
  | some a =>
    cases next' with
    | none => simp at h
    | some b =>
      simp only [Option.map_some, Option.some.injEq, fillOpen, Prod.mk.injEq] at h
      unfold evaluateExit
      cases signal with
      | none => rfl
      | some sig => simp only [h.1, h.2]

lemma attemptEntry_congr {clock : NewYorkClock} {config : EngineConfig} {signal : Signal} {a b : Bar}
    {cash distance : ℚ} {index : ℕ} (h : fillOpen a = fillOpen b) :
    attemptEntry clock config signal a cash index distance =
      attemptEntry clock config signal b cash index distance := by
  simp only [fillOpen, Prod.mk.injEq] at h
  unfold attemptEntry filledEntry
  simp only [h.1, h.2]

section Congr

variable (hx : TimeSorted x) (hy : TimeSorted y) (h : x.take (n + 1) = y.take (n + 1))
include hx hy h

lemma handleExit_congr (hnext : (x[n + 1]?).map fillOpen = (y[n + 1]?).map fillOpen) (bar : Bar)
    (s : LoopState) : (r.on x).handleExit bar n s = (r.on y).handleExit bar n s := by
  unfold RunInput.handleExit
  cases s.openTrade with
  | none => rfl
  | some trade =>
    simp only [on_clock, on_runConfig, maybeNextBar_eq, on_normalized hx, on_normalized hy,
      signalAt_congr hx hy h, evaluateExit_congr hnext]

lemma settleBar_congr (hnext : (x[n + 1]?).map fillOpen = (y[n + 1]?).map fillOpen)
    (hflag : (r.on x).atSessionEnd n = (r.on y).atSessionEnd n) (bar : Bar) (s : LoopState) :
    (r.on x).settleBar bar n s = (r.on y).settleBar bar n s := by
  have hflatten : ∀ u, (r.on x).flattenSession bar n u = (r.on y).flattenSession bar n u := by
    intro u
    unfold RunInput.flattenSession
    rw [hflag]
    rfl
  unfold RunInput.settleBar
  simp only [handleExit_congr hx hy h hnext, hflatten, on_delay, signalAt_congr hx hy h]

lemma entrySignal_congr (recent : List (ℕ × Option Signal)) :
    entrySignal recent n r.delay (r.on x).sessionEnds = entrySignal recent n r.delay (r.on y).sessionEnds := by
  unfold entrySignal
  rw [sessionEnds_take hx hy h]

lemma decideEntry_congr (hnext : (x[n + 1]?).map fillOpen = (y[n + 1]?).map fillOpen)
    (hflag : (r.on x).atSessionEnd n = (r.on y).atSessionEnd n) (s : LoopState) :
    (r.on x).decideEntry n s = (r.on y).decideEntry n s := by
  unfold RunInput.decideEntry
  rw [maybeNextBar_eq, maybeNextBar_eq, on_normalized hx, on_normalized hy, on_delay, on_delay,
    entrySignal_congr hx hy h, minStopDistance_congr hx hy h, hflag]
  cases hxn : x[n + 1]? with
  | none =>
    have hyn : y[n + 1]? = none := by simpa [hxn] using hnext.symm
    rw [hyn]
    rfl
  | some a =>
    rw [hxn] at hnext
    obtain ⟨b, hyn, hopen⟩ := Option.map_eq_some_iff.mp hnext.symm
    simp only [hyn, on_clock, on_runConfig, attemptEntry_congr hopen]
    rfl

theorem processBar_congr (hnext : (x[n + 1]?).map fillOpen = (y[n + 1]?).map fillOpen) (s : LoopState) :
    (r.on x).processBar n s = (r.on y).processBar n s := by
  have htime : (x[n + 1]?).map (·.timestamp) = (y[n + 1]?).map (·.timestamp) := by
    have hfst := congrArg (Option.map Prod.fst) hnext
    simpa [Option.map_map, Function.comp_def, fillOpen] using hfst
  have hflag : (r.on x).atSessionEnd n = (r.on y).atSessionEnd n := atSessionEnd_congr hx hy h htime
  unfold RunInput.processBar
  rw [on_normalized hx, on_normalized hy, getElem?_of_take h le_rfl]
  cases y[n]? with
  | none => rfl
  | some bar =>
    dsimp only
    rw [settleBar_congr hx hy h hnext hflag, funext (decideEntry_congr hx hy h hnext hflag)]
    rfl

end Congr

theorem stateAt_congr (hx : TimeSorted x) (hy : TimeSorted y) (h : x.take n = y.take n)
    (hnext : (x[n]?).map fillOpen = (y[n]?).map fillOpen) : (r.on x).stateAt n = (r.on y).stateAt n := by
  apply iterate_congr
  intro i hi t
  obtain ⟨m, rfl⟩ : ∃ m, n = m + 1 := ⟨n - 1, by omega⟩
  apply processBar_congr hx hy (take_of_take h (by omega))
  rcases Nat.lt_succ_iff_lt_or_eq.mp hi with hlt | rfl
  · rw [getElem?_of_take h hlt]
  · exact hnext

def entriesThrough (n : ℕ) (s : LoopState) : List OpenTrade := s.opened.filter (·.entryBarIndex ≤ n)

def exitsThrough (n : ℕ) (s : LoopState) : List ClosedTrade := s.trades.filter (·.exitBarIndex ≤ n)

structure SameFills (n : ℕ) (s t : LoopState) : Prop where
  entries : entriesThrough n s = entriesThrough n t
  exits : exitsThrough n s = exitsThrough n t

lemma SameFills.refl (n : ℕ) (s : LoopState) : SameFills n s s := ⟨rfl, rfl⟩

lemma SameFills.symm (h : SameFills n s t) : SameFills n t s := ⟨h.entries.symm, h.exits.symm⟩

lemma SameFills.trans {u : LoopState} (hst : SameFills n s t) (htu : SameFills n t u) : SameFills n s u :=
  ⟨hst.entries.trans htu.entries, hst.exits.trans htu.exits⟩

def exitOf (m : CostModel) (trade : OpenTrade) (action : ExitAction) : ClosedTrade :=
  ⟨trade, action.fillBarIndex, (closeTrade m trade action).tradeRecord⟩

lemma exitsThrough_bookExit (m : CostModel) (trade : OpenTrade) (action : ExitAction) :
    exitsThrough n (s.bookExit m trade action) =
      exitsThrough n s ++ if action.fillBarIndex ≤ n then [exitOf m trade action] else [] := by
  unfold exitsThrough
  rw [bookExit_trades, List.filter_append]
  by_cases hle : action.fillBarIndex ≤ n <;> simp [hle, exitOf]

lemma processBar_fills (hn : n ≤ i) (h : r.processBar i s = .ok t) :
    (¬ r.evaluated i ∧ t = s) ∨ ∃ bar settled, r.normalized[i]? = some bar ∧ r.inWarmup bar = false ∧
      r.settleBar bar i s = .ok settled ∧ SameFills n t settled := by
  rcases processBar_cases h with ⟨hne, rfl⟩ | ⟨bar, settled, outcome, hbar, hwarm, hsettle, hdecide, rfl⟩
  · exact .inl ⟨hne, rfl⟩
  · refine .inr ⟨bar, settled, hbar, hwarm, hsettle, ?_⟩
    cases outcome with
    | dropped => exact .refl n settled
    | notTaken => exact ⟨rfl, rfl⟩
    | filled attempt =>
      obtain ⟨_, _, _, _, _, _, _, hattempt⟩ := decideEntry_filled hdecide
      have hindex := (attemptEntry_some hattempt).barIndex
      refine ⟨?_, rfl⟩
      unfold entriesThrough RunInput.applyEntry
      rw [mark_opened, enter_opened, List.filter_append]
      simp [hindex, Nat.lt_succ_of_le hn]

lemma sameFills_later (hn : n < i) (h : r.processBar i s = .ok t) : SameFills n s t := by
  rcases processBar_fills hn.le h with ⟨_, rfl⟩ | ⟨bar, settled, hbar, _, hsettle, hsame⟩
  · exact .refl n t
  · refine SameFills.trans ?_ hsame.symm
    obtain ⟨u, rfl, hu⟩ := settleBar_cases hsettle
    rcases hu with ⟨rfl, _⟩ | ⟨trade, action, _, hexit, rfl⟩
    · exact ⟨rfl, rfl⟩
    · have hle := (hexit.fill hbar).index_le
      have hexits := exitsThrough_bookExit (n := n) (s := s) r.runConfig.costModel trade action
      rw [if_neg (by omega), List.append_nil] at hexits
      exact ⟨rfl, hexits.symm⟩

lemma sameFills_run {run : BacktestRun} (hlt : n + 1 < r.totalBars) (hs : r.stateAt (n + 1) = .ok s)
    (h : r.run = .ok run) : SameFills n s run.final := by
  obtain ⟨looped, hlooped, hfinal, _⟩ := run_cases h
  have hloop : SameFills n s looped := by
    refine invariant_from (P := fun _ u => SameFills n s u) hlt.le hs (.refl n s) ?_ hlooped
    intro i a b hle _ _ ha hb
    exact ha.trans (sameFills_later hle hb)
  refine hloop.trans ?_
  rcases closeAtEnd_cases hfinal with ⟨hsame, _⟩ | ⟨trade, _, action, _, _, _, _, hindex, _, hclosed⟩
  · rw [hsame]
    exact .refl n looped
  · have hexits := exitsThrough_bookExit (n := n) (s := looped) r.runConfig.costModel trade action
    rw [if_neg (by omega), List.append_nil] at hexits
    rw [hclosed]
    exact ⟨rfl, hexits.symm⟩

lemma settleBar_exits {bar : Bar} (hbar : r.normalized[n]? = some bar) (h : r.settleBar bar n s = .ok t) :
    entriesThrough n t = entriesThrough n s ∧
    ((exitsThrough n t = exitsThrough n s ∧ ∀ trade action, s.openTrade = some trade →
        BarExit r bar n trade action → action.fillBarIndex ≠ n) ∨
      ∃ trade action, s.openTrade = some trade ∧ BarExit r bar n trade action ∧ action.fillBarIndex = n ∧
        exitsThrough n t = exitsThrough n s ++ [exitOf r.runConfig.costModel trade action]) := by
  obtain ⟨u, rfl, hu⟩ := settleBar_cases h
  rcases hu with ⟨rfl, hnone⟩ | ⟨trade, action, hopen, hexit, rfl⟩
  · refine ⟨rfl, .inl ⟨rfl, ?_⟩⟩
    intro trade action hopen hexit
    obtain ⟨hflag, hstays⟩ := hnone trade hopen
    cases hexit with
    | evaluated hsome => simp [hstays] at hsome
    | flattened hend => simp [hflag] at hend
  · refine ⟨rfl, ?_⟩
    have hle := (hexit.fill hbar).index_le
    have hexits := exitsThrough_bookExit (n := n) (s := s) r.runConfig.costModel trade action
    by_cases hfill : action.fillBarIndex = n
    · rw [if_pos hfill.le] at hexits
      exact .inr ⟨trade, action, hopen, hexit, hfill, hexits⟩
    · rw [if_neg (by omega), List.append_nil] at hexits
      refine .inl ⟨hexits, ?_⟩
      intro trade' action' hopen' hexit'
      obtain rfl : trade = trade' := by
        rw [hopen] at hopen'
        exact Option.some.inj hopen'
      rwa [hexit'.unique hexit]

lemma evaluateExit_onBar {clock : NewYorkClock} {config : EngineConfig} {trade : OpenTrade} {bar : Bar}
    {signal : Option Signal} {next next' : Option Bar} {action : ExitAction}
    (h : evaluateExit clock config trade bar signal n next = .ok (some action))
    (hfill : action.fillBarIndex = n) :
    evaluateExit clock config trade bar signal n next' = .ok (some action) := by
  unfold evaluateExit at h ⊢
  dsimp only at h ⊢
  split_ifs at h ⊢ with hstop
  · exact h
  · cases hlevel : stopOrTarget trade bar with
    | some level => simpa only [hlevel] using h
    | none =>
      simp only [hlevel] at h
      cases signal with
      | none => simp at h
      | some sig =>
        cases next with
        | none => simp at h
        | some a =>
          dsimp only at h
          split_ifs at h with hact
          · obtain ⟨fill, _, ha⟩ := (bind_eq_ok _ _ _).mp h
            obtain rfl := Option.some.inj ((pure_eq_ok _ _).mp ha)
            simp at hfill
          · simp at h

lemma evaluateExit_stays {clock : NewYorkClock} {config : EngineConfig} {trade : OpenTrade} {bar : Bar}
    {signal : Option Signal} {a : Bar} {next' : Option Bar}
    (h : evaluateExit clock config trade bar signal n (some a) = .ok none) :
    evaluateExit clock config trade bar signal n next' = .ok none := by
  unfold evaluateExit at h ⊢
  dsimp only at h ⊢
  split_ifs at h ⊢ with hstop
  · obtain ⟨fill, _, ha⟩ := (bind_eq_ok _ _ _).mp h
    simp at ha
  · cases hlevel : stopOrTarget trade bar with
    | some level =>
      simp only [hlevel] at h
      obtain ⟨fill, _, ha⟩ := (bind_eq_ok _ _ _).mp h
      simp at ha
    | none =>
      simp only [hlevel] at h ⊢
      cases signal with
      | none => rfl
      | some sig =>
        dsimp only at h
        split_ifs at h with hact
        · obtain ⟨fill, _, ha⟩ := (bind_eq_ok _ _ _).mp h
          simp at ha
        · cases next' with
          | none => rfl
          | some b => exact if_neg hact

section Fills

variable (hx : TimeSorted x) (hy : TimeSorted y) (h : x.take (n + 1) = y.take (n + 1))
  (hflag : (r.on x).atSessionEnd n = (r.on y).atSessionEnd n)
include hx hy h hflag

lemma BarExit.transfer {bar next : Bar} {trade : OpenTrade} {action : ExitAction}
    (hnext : x[n + 1]? = some next) (hexit : BarExit (r.on x) bar n trade action)
    (hfill : action.fillBarIndex = n) : BarExit (r.on y) bar n trade action := by
  have hsignal := signalAt_congr (r := r) hx hy h
  cases hexit with
  | evaluated hsome =>
    rw [hsignal] at hsome
    exact .evaluated (evaluateExit_onBar hsome hfill)
  | flattened hend hstays hclose =>
    rw [maybeNextBar_eq, on_normalized hx, hnext, hsignal] at hstays
    exact .flattened (hflag ▸ hend) (evaluateExit_stays hstays) hclose

lemma settleBar_sameFills {bar : Bar} (hbar : x[n]? = some bar) (hxn : (x[n + 1]?).isSome)
    (hyn : (y[n + 1]?).isSome) {t u : LoopState} (ht : (r.on x).settleBar bar n s = .ok t)
    (hu : (r.on y).settleBar bar n s = .ok u) : SameFills n t u := by
  have hbary : y[n]? = some bar := (getElem?_of_take h le_rfl).symm.trans hbar
  obtain ⟨a, ha⟩ := Option.isSome_iff_exists.mp hxn
  obtain ⟨b, hb⟩ := Option.isSome_iff_exists.mp hyn
  obtain ⟨htentry, htexit⟩ := settleBar_exits (by rwa [on_normalized hx]) ht
  obtain ⟨huentry, huexit⟩ := settleBar_exits (by rwa [on_normalized hy]) hu
  refine ⟨htentry.trans huentry.symm, ?_⟩
  rcases htexit with ⟨htsame, htnone⟩ | ⟨trade, action, hopen, hexit, hfill, htexits⟩
  · rcases huexit with ⟨husame, _⟩ | ⟨trade, action, hopen, hexit, hfill, _⟩
    · rw [htsame, husame]
    · have hback := hexit.transfer hy hx h.symm hflag.symm hb hfill
      exact absurd hfill (htnone trade action hopen hback)
  · have hforth := hexit.transfer hx hy h hflag ha hfill
    rcases huexit with ⟨_, hunone⟩ | ⟨trade', action', hopen', hexit', _, huexits⟩
    · exact absurd hfill (hunone trade action hopen hforth)
    · obtain rfl : trade = trade' := by
        rw [hopen] at hopen'
        exact Option.some.inj hopen'
      rw [htexits, huexits, hexit'.unique hforth]
      rfl

lemma processBar_sameFills (hxn : (x[n + 1]?).isSome) (hyn : (y[n + 1]?).isSome) {t u : LoopState}
    (ht : (r.on x).processBar n s = .ok t) (hu : (r.on y).processBar n s = .ok u) : SameFills n t u := by
  have hsame := getElem?_of_take h (le_refl n)
  rcases processBar_fills le_rfl ht with ⟨hxe, rfl⟩ | ⟨bar, settled, hbar, hwarm, hsettle, hfills⟩
  · rcases processBar_fills le_rfl hu with ⟨_, rfl⟩ | ⟨bar, _, hbar, hwarm, _⟩
    · exact .refl n u
    · rw [on_normalized hy, ← hsame, ← on_normalized (r := r) hx] at hbar
      exact absurd ⟨bar, hbar, hwarm⟩ hxe
  · rw [on_normalized hx] at hbar
    rcases processBar_fills le_rfl hu with ⟨hye, _⟩ | ⟨bar', settled', hbar', _, hsettle', hfills'⟩
    · rw [hsame, ← on_normalized (r := r) hy] at hbar
      exact absurd ⟨bar, hbar, hwarm⟩ hye
    · rw [on_normalized hy, ← hsame, hbar] at hbar'
      obtain rfl := Option.some.inj hbar'
      have hsettled := settleBar_sameFills hx hy h hflag hbar hxn hyn hsettle hsettle'
      exact (hfills.trans hsettled).trans hfills'.symm

end Fills

def EntersOnSignal (r : RunInput) (trade : OpenTrade) : Prop :=
  ∃ N signal next, r.signalAt N = some signal ∧ opensPosition signal r.runConfig.shortEntries = true ∧
    r.normalized[N + 1 + r.delay]? = some next ∧ trade.entryBarIndex = N + 1 + r.delay ∧
    trade.entryTime = next.timestamp ∧
    r.runConfig.costModel.entryFillPrice next.openPrice trade.side
      (isExtended r.clock next.timestamp r.runConfig.barsPerYear) = .ok trade.entryPrice

def ExitsOnSignal (r : RunInput) (c : ClosedTrade) : Prop :=
  ∃ N signal next extended, r.signalAt N = some signal ∧ signal.action = closingAction c.trade.side ∧
    r.normalized[N + 1]? = some next ∧ c.exitBarIndex = N + 1 ∧ c.record.exitTime = next.timestamp ∧
    r.runConfig.costModel.exitFillPrice next.openPrice c.trade.side extended = .ok c.record.exitPrice

structure FollowsSignals (r : RunInput) (s : LoopState) : Prop where
  recent : ∀ p ∈ s.recentSignals, p.2 = none ∨ p.2 = r.signalAt p.1
  entries : ∀ trade ∈ s.opened, EntersOnSignal r trade
  exits : ∀ c ∈ s.trades, c.record.reason = .strategyExit → ExitsOnSignal r c

lemma exitsOnSignal_bookExit {bar : Bar} {trade : OpenTrade} {action : ExitAction}
    (hbar : r.normalized[n]? = some bar) (hexit : BarExit r bar n trade action)
    (hreason : action.reason = .strategyExit) :
    ExitsOnSignal r (exitOf r.runConfig.costModel trade action) := by
  cases hexit with
  | flattened => simp at hreason
  | evaluated hsome =>
    obtain ⟨hfill, hsignal⟩ := evaluateExit_some hbar hsome
    obtain ⟨signal, hat, hact⟩ := hsignal hreason
    cases hfill with
    | onBar _ _ _ _ _ _ _ hother => exact absurd hreason hother
    | nextOpen next extended hnext hprice htime hindex _ =>
      exact ⟨n, signal, next, extended, hat, hact, hnext, hindex, htime, hprice⟩

lemma followsSignals_settleBar {bar : Bar} (hbar : r.normalized[n]? = some bar)
    (h : r.settleBar bar n s = .ok t) (hs : FollowsSignals r s) : FollowsSignals r t := by
  obtain ⟨u, rfl, hu⟩ := settleBar_cases h
  have hu' : FollowsSignals r u := by
    rcases hu with ⟨rfl, _⟩ | ⟨trade, action, _, hexit, rfl⟩
    · exact hs
    · refine ⟨hs.recent, hs.entries, ?_⟩
      intro c hc hreason
      rw [bookExit_trades, List.mem_append, List.mem_singleton] at hc
      rcases hc with hc | rfl
      · exact hs.exits c hc hreason
      · exact exitsOnSignal_bookExit hbar hexit hreason
  refine ⟨?_, hu'.entries, hu'.exits⟩
  intro p hp
  cases hfound : p.2 with
  | none => exact .inl rfl
  | some signal =>
    rw [← hfound]
    rcases mem_recordSignal hp hfound with hold | ⟨hindex, _, hsignal⟩
    · exact hu'.recent p hold
    · exact .inr (by rw [hindex, hfound, hsignal])

lemma followsSignals_processBar (h : r.processBar n s = .ok t) (hs : FollowsSignals r s) :
    FollowsSignals r t := by
  rcases processBar_cases h with ⟨_, rfl⟩ | ⟨bar, settled, outcome, hbar, _, hsettle, hdecide, rfl⟩
  · exact hs
  · have hsettled := followsSignals_settleBar hbar hsettle hs
    cases outcome with
    | dropped => exact hsettled
    | notTaken => exact ⟨hsettled.recent, hsettled.entries, hsettled.exits⟩
    | filled attempt =>
      obtain ⟨signal, next, hsignal, _, _, hopens, hnext, hattempt⟩ := decideEntry_filled hdecide
      have hfill := attemptEntry_some hattempt
      refine ⟨by simp [RunInput.applyEntry], ?_, hsettled.exits⟩
      intro trade htrade
      rw [RunInput.applyEntry, mark_opened, enter_opened, List.mem_append, List.mem_singleton] at htrade
      rcases htrade with hold | rfl
      · exact hsettled.entries trade hold
      · obtain ⟨N, hmem, rfl, _⟩ := entrySignal_some hsignal
        obtain hnone | hat := hsettled.recent _ hmem
        · simp at hnone
        · have hindex : N + r.delay + 1 = N + 1 + r.delay := by omega
          rw [hindex] at hnext hfill
          exact ⟨N, signal, next, hat.symm, hopens, hnext, hfill.barIndex, hfill.time,
            by rw [hfill.side]; exact hfill.price⟩

theorem followsSignals_run {run : BacktestRun} (h : r.run = .ok run) : FollowsSignals r run.final := by
  obtain ⟨looped, hlooped, hfinal, _⟩ := run_cases h
  have hloop : FollowsSignals r looped := by
    refine invariant (P := fun _ u => FollowsSignals r u) ?_ ?_ hlooped
    · exact ⟨by simp [RunInput.initialState], by simp [RunInput.initialState],
        by simp [RunInput.initialState]⟩
    · intro i a b _ _ ha hb
      exact followsSignals_processBar hb ha
  rcases closeAtEnd_cases hfinal with ⟨hsame, _⟩ | ⟨trade, _, action, _, _, _, _, _, hreason, hclosed⟩
  · rw [hsame]
    exact hloop
  · rw [hclosed]
    refine ⟨hloop.recent, hloop.entries, ?_⟩
    intro c hc hexit
    rw [markLastCash_trades, bookExit_trades, List.mem_append, List.mem_singleton] at hc
    rcases hc with hc | rfl
    · exact hloop.exits c hc hexit
    · rw [closeTrade_reason, hreason] at hexit
      simp at hexit

section TwoRuns

variable (hx : TimeSorted x) (hy : TimeSorted y) {runX runY : BacktestRun}
  (hrunX : (r.on x).run = .ok runX) (hrunY : (r.on y).run = .ok runY)
include hx hy hrunX hrunY

lemma sameFills_of_flag (h : x.take (n + 1) = y.take (n + 1))
    (hflag : (r.on x).atSessionEnd n = (r.on y).atSessionEnd n) (hxn : (x[n + 1]?).isSome)
    (hyn : (y[n + 1]?).isSome) : SameFills n runX.final runY.final := by
  have hlenX : n + 1 < (r.on x).totalBars := by
    rw [on_totalBars hx]
    simpa using hxn
  have hlenY : n + 1 < (r.on y).totalBars := by
    rw [on_totalBars hy]
    simpa using hyn
  obtain ⟨_, hloopX, _⟩ := run_cases hrunX
  obtain ⟨_, hloopY, _⟩ := run_cases hrunY
  obtain ⟨s, t, hs, ht, hsuccX⟩ := iterate_lt_ok hloopX (Nat.lt_of_succ_lt hlenX)
  obtain ⟨s', u, hs', hu, hsuccY⟩ := iterate_lt_ok hloopY (Nat.lt_of_succ_lt hlenY)
  have hprefix : x.take n = y.take n := by
    have htake := congrArg (List.take n) h
    simpa [List.take_take] using htake
  have hstate := stateAt_congr (r := r) hx hy hprefix (by rw [getElem?_of_take h le_rfl])
  obtain rfl : s = s' := Except.ok.inj (hs.symm.trans (hstate.trans hs'))
  have hbar := processBar_sameFills hx hy h hflag hxn hyn ht hu
  exact ((sameFills_run hlenX hsuccX hrunX).symm.trans hbar).trans (sameFills_run hlenY hsuccY hrunY)

lemma sameFills_of_take (h : x.take (n + 2) = y.take (n + 2)) : SameFills n runX.final runY.final := by
  by_cases hxn : n + 1 < x.length
  · have hnext := getElem?_of_take h (le_refl (n + 1))
    have hxsome : (x[n + 1]?).isSome := by simpa using hxn
    apply sameFills_of_flag hx hy hrunX hrunY (take_of_take h (Nat.le_succ n)) ?_ hxsome (hnext ▸ hxsome)
    exact atSessionEnd_congr hx hy (take_of_take h (Nat.le_succ n)) (by rw [hnext])
  · have hxy : x = y := by
      have hlen := congrArg List.length h
      rw [List.length_take, List.length_take] at hlen
      rwa [List.take_of_length_le (by omega), List.take_of_length_le (by omega)] at h
    subst hxy
    obtain rfl := Except.ok.inj (hrunX.symm.trans hrunY)
    exact .refl n _

/-- Runs over frames that agree through the bar after `n` have the same fills up to `n`. Of
that bar the loop reads nothing but the session-end flag, for the fills up to `n`, and the
time and open of a fill, for its state after `n`. -/
theorem no_look_ahead :
    (∀ n, x.take (n + 2) = y.take (n + 2) → SameFills n runX.final runY.final) ∧
    (∀ n, x.take (n + 1) = y.take (n + 1) → (x[n + 1]?).isSome → (y[n + 1]?).isSome →
      (r.on x).atSessionEnd n = (r.on y).atSessionEnd n → SameFills n runX.final runY.final) ∧
    (∀ n, x.take (n + 1) = y.take (n + 1) → (x[n + 1]?).map fillOpen = (y[n + 1]?).map fillOpen →
      (r.on x).stateAt (n + 1) = (r.on y).stateAt (n + 1)) ∧
    (∀ trade ∈ runX.final.opened, EntersOnSignal (r.on x) trade) ∧
    ∀ c ∈ runX.closed, c.record.reason = .strategyExit → ExitsOnSignal (r.on x) c := by
  have hsignals := followsSignals_run hrunX
  refine ⟨?_, ?_, ?_, hsignals.entries, hsignals.exits⟩
  · intro n h
    exact sameFills_of_take hx hy hrunX hrunY h
  · intro n h hxn hyn hflag
    exact sameFills_of_flag hx hy hrunX hrunY h hflag hxn hyn
  · intro n h hnext
    exact stateAt_congr hx hy h hnext

end TwoRuns

def risingBars : Frame := reentryBars ++ [⟨3 * microsPerDay, 121, 126, 120, 125, 0⟩]

def fallingBars : Frame := reentryBars ++ [⟨3 * microsPerDay, 80, 82, 70, 75, 0⟩]

theorem no_look_ahead_reentry : ∃ runX runY, (reentryOnLastBar.on risingBars).run = .ok runX ∧
    (reentryOnLastBar.on fallingBars).run = .ok runY ∧ (entriesThrough 1 runX.final).length = 1 ∧
    SameFills 1 runX.final runY.final := by
  have hrise : (reentryOnLastBar.on risingBars).run.toOption.any
      (fun run => (entriesThrough 1 run.final).length = 1) = true := by decide +kernel
  have hfall : (reentryOnLastBar.on fallingBars).run.toOption.any (fun _ => true) = true := by
    decide +kernel
  obtain ⟨runX, hrunX, hone⟩ := exists_ok_of_any hrise
  obtain ⟨runY, hrunY, _⟩ := exists_ok_of_any hfall
  have hlaw := no_look_ahead (x := risingBars) (y := fallingBars) (by decide +kernel) (by decide +kernel)
    hrunX hrunY
  exact ⟨runX, runY, hrunX, hrunY, by simpa using hone, hlaw.1 1 rfl⟩

end AlgoTrader.Backtesting
