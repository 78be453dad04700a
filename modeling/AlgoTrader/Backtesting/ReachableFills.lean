import AlgoTrader.Backtesting.EngineStep

/-! The raw price an exit fills at, against the bar it fills on (``_evaluate_exit`` in
``app/backtesting/engine.py``). A target the bar opened beyond is filled at the target all the same. -/

namespace AlgoTrader.Backtesting

open Utils.Time Models

structure RawExit where
  bar : Bar
  barIndex : ℕ
  price : ℚ
  reason : ExitReason

section Exit

variable (trade : OpenTrade) (bar : Bar) (signal : Option Signal) (index : ℕ) (nextBar : Option Bar)

def rawExit : Option RawExit :=
  if timeStopDue trade index then some ⟨bar, index, bar.openPrice, .timeStop⟩
  else match stopOrTarget trade bar with
    | some (price, reason) => some ⟨bar, index, price, reason⟩
    | none =>
      match signal, nextBar with
      | some sig, some next =>
        if sig.action = closingAction trade.side then some ⟨next, index + 1, next.openPrice, .strategyExit⟩ else none
      | _, _ => none

def RawExit.priced (raw : RawExit) (clock : NewYorkClock) (config : EngineConfig) (side : Side) :
    Except EngineError ExitAction :=
  (config.costModel.exitFillPrice raw.price side (isExtended clock raw.bar.timestamp config.barsPerYear)).map
    fun fill => ⟨fill, raw.bar.timestamp, raw.barIndex, raw.reason⟩

theorem evaluateExit_eq (clock : NewYorkClock) (config : EngineConfig) :
    evaluateExit clock config trade bar signal index nextBar =
      match rawExit trade bar signal index nextBar with
      | none => .ok none
      | some raw => (raw.priced clock config trade.side).map some := by
  have hpriced (raw : RawExit) : (raw.priced clock config trade.side).map some =
      (config.costModel.exitFillPrice raw.price trade.side
        (isExtended clock raw.bar.timestamp config.barsPerYear)).bind
          fun fill => .ok (some ⟨fill, raw.bar.timestamp, raw.barIndex, raw.reason⟩) := by
    rw [RawExit.priced]
    cases config.costModel.exitFillPrice raw.price trade.side
      (isExtended clock raw.bar.timestamp config.barsPerYear) <;> rfl
  unfold evaluateExit rawExit
  dsimp only
  split_ifs with hdue
  · exact (hpriced ⟨bar, index, bar.openPrice, .timeStop⟩).symm
  · cases stopOrTarget trade bar with
    | some level => exact (hpriced ⟨bar, index, level.1, level.2⟩).symm
    | none =>
      cases signal with
      | none => rfl
      | some sig =>
        cases nextBar with
        | none => rfl
        | some next =>
          dsimp only
          split_ifs
          · exact (hpriced ⟨next, index + 1, next.openPrice, .strategyExit⟩).symm
          · rfl

def worseOf (side : Side) (level openPrice : ℚ) : ℚ :=
  match side with
  | .buy => min level openPrice
  | .sell => max level openPrice

def betterOf (side : Side) (level openPrice : ℚ) : ℚ :=
  match side with
  | .buy => max level openPrice
  | .sell => min level openPrice

def TouchesStop : Prop :=
  ∃ stop ∈ trade.stopLoss,
    match trade.side with
    | .buy => bar.low ≤ stop
    | .sell => stop ≤ bar.high

def TouchesTarget : Prop :=
  ∃ target ∈ trade.takeProfit,
    match trade.side with
    | .buy => target ≤ bar.high
    | .sell => bar.low ≤ target

def OpensBeyondTarget : Prop :=
  ∃ target ∈ trade.takeProfit,
    match trade.side with
    | .buy => target < bar.openPrice
    | .sell => bar.openPrice < target

def Bar.InRange (bar : Bar) : Prop :=
  (bar.low ≤ bar.openPrice ∧ bar.openPrice ≤ bar.high) ∧ bar.low ≤ bar.close ∧ bar.close ≤ bar.high

structure FillsReachable : Prop where
  in_bar : ∀ raw, rawExit trade bar signal index nextBar = some raw → raw.bar.low ≤ raw.price ∧ raw.price ≤ raw.bar.high
  stop : ∀ raw, rawExit trade bar signal index nextBar = some raw → raw.reason = .stopLoss →
    ∃ stop ∈ trade.stopLoss, raw.price = worseOf trade.side stop raw.bar.openPrice
  target : ∀ raw, rawExit trade bar signal index nextBar = some raw → raw.reason = .takeProfit →
    ∃ target ∈ trade.takeProfit, raw.price = betterOf trade.side target raw.bar.openPrice
  stop_wins : TouchesStop trade bar → TouchesTarget trade bar →
    ∃ raw, rawExit trade bar signal index nextBar = some raw ∧
      (raw.reason = .stopLoss ∨ (timeStopDue trade index = true ∧ raw.reason = .timeStop))

variable {trade bar signal index nextBar} {price : ℚ} {reason : ExitReason}

def touched (trade : OpenTrade) (bar : Bar) : Option ℚ × Option ℚ :=
  match trade.side with
  | .buy => (trade.stopLoss.filter (bar.low ≤ ·), trade.takeProfit.filter (· ≤ bar.high))
  | .sell => (trade.stopLoss.filter (· ≤ bar.high), trade.takeProfit.filter (bar.low ≤ ·))

lemma touched_stop_iff {stop : ℚ} : (touched trade bar).1 = some stop ↔ stop ∈ trade.stopLoss ∧
    match trade.side with
    | .buy => bar.low ≤ stop
    | .sell => stop ≤ bar.high := by
  rw [touched]
  cases trade.side <;> simp [Option.filter_eq_some_iff]

lemma touched_target_iff {target : ℚ} : (touched trade bar).2 = some target ↔ target ∈ trade.takeProfit ∧
    match trade.side with
    | .buy => target ≤ bar.high
    | .sell => bar.low ≤ target := by
  rw [touched]
  cases trade.side <;> simp [Option.filter_eq_some_iff]

/-- The high (the low for a short) never bounds the fill at the target, which it reaches. -/
lemma stopOrTarget_eq : stopOrTarget trade bar =
    match touched trade bar with
    | (some stop, _) => some (worseOf trade.side stop bar.openPrice, .stopLoss)
    | (none, some target) => some (target, .takeProfit)
    | (none, none) => none := by
  rw [stopOrTarget, touched]
  cases trade.side with
  | buy =>
    dsimp only
    cases trade.stopLoss.filter (bar.low ≤ ·) with
    | some stop => rfl
    | none =>
      cases hlevel : trade.takeProfit.filter (· ≤ bar.high) with
      | none => rfl
      | some target =>
        have hreached : target ≤ bar.high := of_decide_eq_true (Option.filter_eq_some_iff.mp hlevel).2
        exact congrArg (fun price => some (price, _)) (min_eq_left hreached)
  | sell =>
    dsimp only
    cases trade.stopLoss.filter (· ≤ bar.high) with
    | some stop => rfl
    | none =>
      cases hlevel : trade.takeProfit.filter (bar.low ≤ ·) with
      | none => rfl
      | some target =>
        have hreached : bar.low ≤ target := of_decide_eq_true (Option.filter_eq_some_iff.mp hlevel).2
        exact congrArg (fun price => some (price, _)) (max_eq_left hreached)

lemma touchesStop_iff : TouchesStop trade bar ↔ ∃ stop, (touched trade bar).1 = some stop :=
  exists_congr fun _ => touched_stop_iff.symm

lemma touchesTarget_iff : TouchesTarget trade bar ↔ ∃ target, (touched trade bar).2 = some target :=
  exists_congr fun _ => touched_target_iff.symm

lemma TouchesTarget.of_opensBeyond (hbar : bar.InRange) (h : OpensBeyondTarget trade bar) : TouchesTarget trade bar := by
  obtain ⟨target, htarget, hbeyond⟩ := h
  refine ⟨target, htarget, ?_⟩
  cases hside : trade.side with
  | buy =>
    rw [hside] at hbeyond
    exact hbeyond.le.trans hbar.1.2
  | sell =>
    rw [hside] at hbeyond
    exact hbar.1.1.trans hbeyond.le

inductive Leaves (trade : OpenTrade) (bar : Bar) (signal : Option Signal) (index : ℕ) (nextBar : Option Bar) :
    RawExit → Prop
  | timeStop (hdue : timeStopDue trade index = true) : Leaves trade bar signal index nextBar
      ⟨bar, index, bar.openPrice, .timeStop⟩
  | stop {stop : ℚ} (hdue : ¬ timeStopDue trade index = true) (hstop : (touched trade bar).1 = some stop) :
      Leaves trade bar signal index nextBar ⟨bar, index, worseOf trade.side stop bar.openPrice, .stopLoss⟩
  | target {target : ℚ} (hdue : ¬ timeStopDue trade index = true) (hstop : (touched trade bar).1 = none)
      (htarget : (touched trade bar).2 = some target) :
      Leaves trade bar signal index nextBar ⟨bar, index, target, .takeProfit⟩
  | signal {next : Bar} (hnext : nextBar = some next) : Leaves trade bar signal index nextBar
      ⟨next, index + 1, next.openPrice, .strategyExit⟩

lemma leaves_of_rawExit {raw : RawExit} (h : rawExit trade bar signal index nextBar = some raw) :
    Leaves trade bar signal index nextBar raw := by
  unfold rawExit at h
  rw [stopOrTarget_eq] at h
  split_ifs at h with hdue
  · cases h
    exact .timeStop hdue
  rcases htouched : touched trade bar with ⟨stop, target⟩
  rw [htouched] at h
  cases stop with
  | some stop =>
    cases h
    exact .stop hdue (congrArg Prod.fst htouched)
  | none =>
    cases target with
    | some target =>
      cases h
      exact .target hdue (congrArg Prod.fst htouched) (congrArg Prod.snd htouched)
    | none =>
      cases signal with
      | none => cases h
      | some sig =>
        cases hnext : nextBar with
        | none =>
          rw [hnext] at h
          cases h
        | some next =>
          rw [hnext] at h
          dsimp only at h
          split_ifs at h
          cases h
          exact .signal rfl

lemma rawExit_of_stop {stop : ℚ} (hdue : ¬ timeStopDue trade index = true) (h : (touched trade bar).1 = some stop) :
    rawExit trade bar signal index nextBar =
      some ⟨bar, index, worseOf trade.side stop bar.openPrice, .stopLoss⟩ := by
  unfold rawExit
  rw [if_neg hdue, stopOrTarget_eq, ← Prod.mk.eta (p := touched trade bar), h]

lemma rawExit_of_target {target : ℚ} (hdue : ¬ timeStopDue trade index = true) (hstop : (touched trade bar).1 = none)
    (h : (touched trade bar).2 = some target) :
    rawExit trade bar signal index nextBar = some ⟨bar, index, target, .takeProfit⟩ := by
  unfold rawExit
  rw [if_neg hdue, stopOrTarget_eq, ← Prod.mk.eta (p := touched trade bar), hstop, h]

lemma stop_in_bar {stop : ℚ} (hbar : bar.InRange) (h : (touched trade bar).1 = some stop) :
    bar.low ≤ worseOf trade.side stop bar.openPrice ∧ worseOf trade.side stop bar.openPrice ≤ bar.high := by
  have hreached := (touched_stop_iff.mp h).2
  cases hside : trade.side with
  | buy =>
    rw [hside] at hreached
    exact ⟨le_min hreached hbar.1.1, (min_le_right _ _).trans hbar.1.2⟩
  | sell =>
    rw [hside] at hreached
    exact ⟨hbar.1.1.trans (le_max_right _ _), max_le hreached hbar.1.2⟩

lemma target_fill {target : ℚ} (hbar : bar.InRange) (h : (touched trade bar).2 = some target)
    (hwithin : ¬ OpensBeyondTarget trade bar) :
    target = betterOf trade.side target bar.openPrice ∧ bar.low ≤ target ∧ target ≤ bar.high := by
  obtain ⟨htarget, hreached⟩ := touched_target_iff.mp h
  have hopen := fun hbeyond => hwithin ⟨target, htarget, hbeyond⟩
  cases hside : trade.side with
  | buy =>
    rw [hside] at hreached hopen
    have hle : bar.openPrice ≤ target := not_lt.mp hopen
    exact ⟨(max_eq_left hle).symm, hbar.1.1.trans hle, hreached⟩
  | sell =>
    rw [hside] at hreached hopen
    have hle : target ≤ bar.openPrice := not_lt.mp hopen
    exact ⟨(min_eq_left hle).symm, hreached, hle.trans hbar.1.2⟩

lemma betterOf_ne {target : ℚ} (htarget : target ∈ trade.takeProfit) (h : OpensBeyondTarget trade bar) :
    target ≠ betterOf trade.side target bar.openPrice := by
  obtain ⟨beyond, hbeyond, hopen⟩ := h
  obtain rfl := Option.mem_unique hbeyond htarget
  cases hside : trade.side with
  | buy =>
    rw [hside] at hopen
    exact fun heq => absurd (le_max_right _ _) (not_le.mpr (heq ▸ hopen))
  | sell =>
    rw [hside] at hopen
    exact fun heq => absurd (min_le_right _ _) (not_le.mpr (heq ▸ hopen))

lemma stop_wins (hstop : TouchesStop trade bar) : ∃ raw, rawExit trade bar signal index nextBar = some raw ∧
    (raw.reason = .stopLoss ∨ (timeStopDue trade index = true ∧ raw.reason = .timeStop)) := by
  by_cases hdue : timeStopDue trade index = true
  · exact ⟨⟨bar, index, bar.openPrice, .timeStop⟩, if_pos hdue, .inr ⟨hdue, rfl⟩⟩
  · obtain ⟨stop, htouched⟩ := touchesStop_iff.mp hstop
    exact ⟨_, rawExit_of_stop hdue htouched, .inl rfl⟩

theorem fills_reachable_iff (trade : OpenTrade) (bar : Bar) (signal : Option Signal) (index : ℕ) (nextBar : Option Bar)
    (hbar : bar.InRange) (hnext : ∀ next ∈ nextBar, next.InRange) :
    FillsReachable trade bar signal index nextBar ↔
      (OpensBeyondTarget trade bar → timeStopDue trade index = true ∨ TouchesStop trade bar) := by
  constructor
  · intro h hbeyond
    by_contra hlate
    obtain ⟨hdue, hstop⟩ := not_or.mp hlate
    obtain ⟨target, htarget⟩ := touchesTarget_iff.mp (TouchesTarget.of_opensBeyond hbar hbeyond)
    have hnone : (touched trade bar).1 = none :=
      Option.eq_none_iff_forall_ne_some.mpr fun stop hsome => hstop (touchesStop_iff.mpr ⟨stop, hsome⟩)
    obtain ⟨target', htarget', hprice⟩ := h.target _ (rawExit_of_target hdue hnone htarget) rfl
    obtain rfl := Option.mem_unique htarget' (touched_target_iff.mp htarget).1
    exact betterOf_ne htarget' hbeyond hprice
  · intro h
    have hwithin : ¬ timeStopDue trade index = true → (touched trade bar).1 = none → ¬ OpensBeyondTarget trade bar := by
      intro hdue hnone hbeyond
      rcases h hbeyond with hdue' | hstop
      · exact hdue hdue'
      · obtain ⟨stop, hsome⟩ := touchesStop_iff.mp hstop
        cases hnone.symm.trans hsome
    refine ⟨fun raw hraw => ?_, fun raw hraw hreason => ?_, fun raw hraw hreason => ?_, fun hstop _ => stop_wins hstop⟩
    · cases leaves_of_rawExit hraw with
      | timeStop => exact hbar.1
      | stop hdue hstop => exact stop_in_bar hbar hstop
      | target hdue hstop htarget => exact (target_fill hbar htarget (hwithin hdue hstop)).2
      | signal hsome => exact (hnext _ hsome).1
    · cases leaves_of_rawExit hraw with
      | stop hdue hstop => exact ⟨_, (touched_stop_iff.mp hstop).1, rfl⟩
      | timeStop => cases hreason
      | target => cases hreason
      | signal => cases hreason
    · cases leaves_of_rawExit hraw with
      | target hdue hstop htarget =>
        exact ⟨_, (touched_target_iff.mp htarget).1, (target_fill hbar htarget (hwithin hdue hstop)).1⟩
      | timeStop => cases hreason
      | stop => cases hreason
      | signal => cases hreason

end Exit

def longTrade : OpenTrade where
  entryTime := 0
  entryPrice := 100
  quantity := 10
  side := .buy
  stopLoss := some 95
  takeProfit := some 120
  entryNotional := 1000
  entryBarIndex := 1

def barAt (openPrice high low close : ℚ) : Bar := { timestamp := 0, openPrice, high, low, close }

/-- The target of 120 is filled at 120 on a bar that never trades below 124. -/
theorem gap_filled_below_low : (barAt 125 127 124 126).InRange ∧
    ¬ FillsReachable longTrade (barAt 125 127 124 126) none 3 none ∧
      ∀ clock, ∃ action, evaluateExit clock { costModel := zeroCostModel } longTrade (barAt 125 127 124 126) none 3 none =
        .ok (some action) ∧ action.fillPrice = 120 ∧ action.reason = .takeProfit := by
  have hraw : rawExit longTrade (barAt 125 127 124 126) none 3 none =
      some ⟨barAt 125 127 124 126, 3, 120, .takeProfit⟩ :=
    rawExit_of_target (by decide) (by decide +kernel) (by decide +kernel)
  refine ⟨?_, fun h => ?_, fun clock => ⟨⟨120, 0, 3, .takeProfit⟩, ?_, rfl, rfl⟩⟩
  · rw [Bar.InRange]
    decide +kernel
  · have hlow := (h.in_bar _ hraw).1
    revert hlow
    decide +kernel
  · have hregular : isExtended clock 0 dailyBarsPerYear = false := if_pos le_rfl
    have hfill : zeroCostModel.exitFillPrice 120 .buy false = .ok 120 := by decide +kernel
    rw [evaluateExit_eq, hraw]
    change ((zeroCostModel.exitFillPrice 120 .buy (isExtended clock 0 dailyBarsPerYear)).map _).map some = _
    rw [hregular, hfill]
    rfl

theorem fills_reachable_within_bar : FillsReachable longTrade (barAt 118 121 117 120) none 3 none := by
  refine (fills_reachable_iff longTrade (barAt 118 121 117 120) none 3 none ?_ nofun).mpr ?_
  · rw [Bar.InRange]
    decide +kernel
  · rintro ⟨target, htarget, hbeyond⟩
    cases htarget
    have hopen : (120 : ℚ) < 118 := hbeyond
    exact absurd hopen (by decide +kernel)

end AlgoTrader.Backtesting
