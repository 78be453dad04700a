import AlgoTrader.Execution.Coordinator

/-! Whether what is sent for an order stays within its governed amount. The trader service loads
the stored proposal, which the governor has not touched. -/

namespace AlgoTrader.Execution

open Models Broker Risk

/-- The dollars a call asks for. Shares count at the price they were sized with, and closing a
position names no amount. -/
def dollars (quotePrice : ℚ) : BrokerCall → ℚ
  | .submitCryptoProtectedOrder _ qty => qty * sizingPrice quotePrice
  | .submitBracketOrder _ _ qty => qty * sizingPrice quotePrice
  | .submitOrder _ _ qty => qty * sizingPrice quotePrice
  | .openMarketOrderByAmount order => order.amountUsd
  | .closePosition _ => 0
  | .openPaperPosition order => order.amountUsd

def GovernedAmountSent (input : QueueInput) : Prop :=
  ∀ call ∈ (processQueueItem input).calls,
    dollars (quotePrice input) call ≤ (governedOrder input).amountUsd

/-- The governor is on, the day's loss is past its soft threshold, and the scaled amount is
smaller after rounding as well. -/
def Reduces (settings : Settings) (context : RiskContext) (order : TradeOrder) : Prop :=
  settings.drawdownGovernorEnabled = true ∧ governorMultiplier settings context < 1 ∧
    Rounding.toDigits 2 (order.amountUsd * governorMultiplier settings context) < order.amountUsd

structure BuysThroughTrader (input : QueueInput) : Prop where
  approved : input.proposal.status = .approved
  stillApproved : input.statusAtReload = .approved
  validated : input.validationReasons = []
  riskPassed : input.riskReasons = []
  traderRiskPassed : input.trader.riskReasons input.proposal.order = []
  routed : ∃ broker, input.broker = .ok (broker, "etoro") ∧ broker.key = input.trader.broker.key
  purchase : input.proposal.order.side ≠ .sell
  notSimulated :
    ¬(input.settings.executionMode = "paper" ∧ input.settings.paperBroker = "self_simulated")
  mode : input.settings.executionMode = "paper" ∨ input.settings.executionMode = "live"
  notExecuted : input.alreadyExecuted = false

/-- The broker takes the order, whose id is new, and the order does not fail. -/
structure Accepted (input : QueueInput) (order : TradeOrder) (broker : BrokerClient) (brokerName : String) :
    Prop where
  answered :
    broker.submitsOrders = true ∧ input.orderKnown = false ∧
        (∃ call, shareCall input.settings order broker brokerName (quotePrice input) = .ok call ∧
          broker.answer call = .ok ()) ∨
      broker.submitsOrders = false ∧ broker.opensByAmount = true ∧
        broker.answer (.openMarketOrderByAmount order) = .ok ()
  placed : input.primaryFailed = false

def LiveMirror.state (mirror : LiveMirror) : Etoro.MirrorState :=
  Etoro.currentState mirror.store.mirror (Utils.Time.utcDate mirror.times.readAt)

/-- The live mirror copies what it is asked with this stake: a share of its own equity, cut by the stop's distance,
which its gates, its room and its cash allow. -/
structure Stakes (mirror : LiveMirror) (asked : Etoro.CopyInput) (stake : ℚ) : Prop where
  passed : Etoro.blockers mirror.settings mirror.store mirror.times.gatesAt asked.request = []
  sized : Etoro.tradeAmount mirror.settings mirror.state (Etoro.orderStopPct asked.request.order) = some stake
  fits : (Etoro.copyAmount mirror.settings mirror.store mirror.state mirror.times.readAt (some stake)).1 = some stake
  paid : (Etoro.releaseForCopy mirror.settings mirror.state stake asked.release).isSome

/-- An Alpaca paper order that the live mirror copies with a larger stake. -/
structure CopiedAbove (input : QueueInput) (broker : BrokerClient) (mirror : LiveMirror) : Prop where
  approved : input.proposal.status = .approved
  validated : input.validationReasons = []
  riskPassed : input.riskReasons = []
  routed : input.broker = .ok (broker, "alpaca")
  bracketed : bracketReasons input.settings (governedOrder input) "alpaca" (quotePrice input) = []
  mode : input.settings.executionMode = "paper"
  notSimulated : input.settings.paperBroker ≠ "self_simulated"
  notExecuted : input.alreadyExecuted = false
  accepted : Accepted input (governedOrder input) broker "alpaca"
  mirrored : input.liveMirror = some mirror
  above : ∃ stake, Stakes mirror (mirror.asked "paper" (governedOrder input) "alpaca") stake ∧
    (governedOrder input).amountUsd < stake

section Governor

variable {settings : Settings} {context : RiskContext} {order : TradeOrder}

lemma governed_amount_of_reduces (h : Reduces settings context order) :
    (applyDrawdownGovernor settings context order).amountUsd < order.amountUsd := by
  obtain ⟨hon, hlt, hround⟩ := h
  rw [applyDrawdownGovernor, if_neg (by simp [hon]), if_neg (not_le.mpr hlt)]
  exact hround

lemma le_governed_amount (h : ¬Reduces settings context order) :
    order.amountUsd ≤ (applyDrawdownGovernor settings context order).amountUsd := by
  rw [applyDrawdownGovernor]
  split_ifs with hoff hone
  · exact le_rfl
  · exact le_rfl
  · by_contra hlt
    exact h ⟨by simpa using hoff, not_le.mp hone, not_le.mp hlt⟩

lemma governed_amount_nonneg (hpos : 0 ≤ order.amountUsd) :
    0 ≤ (applyDrawdownGovernor settings context order).amountUsd := by
  rw [applyDrawdownGovernor]
  split_ifs
  · exact hpos
  · exact hpos
  · exact Rounding.toDigits_nonneg 2 (mul_nonneg hpos (drawdownGovernorMultiplier_nonneg _ _ _ _))

end Governor

section Shares

variable {settings : Settings} {order : TradeOrder} {broker : BrokerClient} {brokerName : String}
variable {quotePrice : ℚ}

lemma sizingPrice_pos (quotePrice : ℚ) : 0 < sizingPrice quotePrice :=
  lt_of_lt_of_le (by norm_num) (le_max_right _ _)

lemma orderQuantity_dollars :
    orderQuantity settings order brokerName quotePrice * sizingPrice quotePrice ≤
      order.amountUsd := by
  have hprice := sizingPrice_pos quotePrice
  have hfraction : min order.amountUsd settings.maxTradeAmountUsd / sizingPrice quotePrice *
      sizingPrice quotePrice ≤ order.amountUsd := by
    rw [div_mul_cancel₀ _ hprice.ne']
    exact min_le_left _ _
  simp only [orderQuantity]
  split_ifs
  · exact (mul_le_mul_of_nonneg_right (Int.floor_le _) hprice.le).trans hfraction
  · exact hfraction

lemma truncate_dollars {x : ℚ} (hamount : 0 ≤ order.amountUsd)
    (hx : x * sizingPrice quotePrice ≤ order.amountUsd) :
    (truncate x : ℚ) * sizingPrice quotePrice ≤ order.amountUsd := by
  have hprice := (sizingPrice_pos quotePrice).le
  rw [truncate]
  split_ifs with hsign
  · exact (mul_le_mul_of_nonneg_right (Int.floor_le x) hprice).trans hx
  · have hceil : ⌈x⌉ ≤ 0 := Int.ceil_le.mpr (by simpa using (not_le.mp hsign).le)
    have hcast : (⌈x⌉ : ℚ) ≤ 0 := by exact_mod_cast hceil
    exact (mul_nonpos_of_nonpos_of_nonneg hcast hprice).trans hamount

lemma shareCall_dollars (hamount : 0 ≤ order.amountUsd) {call : BrokerCall}
    (hcall : shareCall settings order broker brokerName quotePrice = .ok call) :
    dollars quotePrice call ≤ order.amountUsd := by
  have hqty : orderQuantity settings order brokerName quotePrice * sizingPrice quotePrice ≤
      order.amountUsd := orderQuantity_dollars
  rw [shareCall] at hcall
  split_ifs at hcall
  · cases hcall
    exact hqty
  · cases hcall
    exact truncate_dollars hamount hqty
  · cases hcall
    exact hqty

lemma submitShares_dollars (hamount : 0 ≤ order.amountUsd) :
    ∀ call ∈ (submitShares settings order broker brokerName quotePrice).calls,
      dollars quotePrice call ≤ order.amountUsd := by
  intro call hcall
  rw [submitShares] at hcall
  split at hcall
  · cases hcall
  · rename_i sent hsent
    rw [List.mem_singleton.mp hcall]
    exact shareCall_dollars hamount hsent

lemma submitShares_ok (h : (submitShares settings order broker brokerName quotePrice).result = .ok ()) :
    ∃ call, shareCall settings order broker brokerName quotePrice = .ok call ∧ broker.answer call = .ok () := by
  rw [submitShares] at h
  split at h
  · cases h
  · rename_i call hcall
    exact ⟨call, hcall, h⟩

end Shares

section Routes

variable {input : QueueInput} {order : TradeOrder} {broker : BrokerClient} {brokerName : String}

lemma Stakes.sends {mirror : LiveMirror} {stake : ℚ} (executionMode : String)
    (h : Stakes mirror (mirror.asked executionMode order brokerName) stake) :
    .openMarketOrderByAmount { order with amountUsd := stake, leverage := 1 } ∈
      mirror.calls executionMode order brokerName := by
  obtain ⟨released, hreleased⟩ := Option.isSome_iff_exists.mp h.paid
  have hprepared := Etoro.prepareCopy_of_steps h.passed (h.sized.symm ▸ h.fits)
    (Etoro.tradeAmount_pos h.sized).ne' hreleased
  rw [LiveMirror.calls, hprepared]
  exact List.mem_singleton_self _

lemma stakes_of_call {mirror : LiveMirror} {executionMode : String} {call : BrokerCall}
    (hcall : call ∈ mirror.calls executionMode order brokerName) :
    ∃ stake, Stakes mirror (mirror.asked executionMode order brokerName) stake ∧
      ∀ price, dollars price call = stake := by
  rw [LiveMirror.calls] at hcall
  split at hcall
  · cases hcall
  · rename_i prepared hprepared
    obtain ⟨hpassed, hfits, hreleased⟩ := Etoro.prepareCopy_steps hprepared
    have hsized := (Etoro.prepareCopy_some hprepared).amount
    refine ⟨prepared.amount, ⟨hpassed, hsized, ?_, Option.isSome_iff_exists.mpr ⟨_, hreleased⟩⟩, ?_⟩
    · rwa [hsized] at hfits
    · rw [List.mem_singleton.mp hcall]
      exact fun _ => rfl

lemma stakes_primary {mirror : LiveMirror} {executionMode : String} {stake : ℚ}
    (h : Stakes mirror (mirror.asked executionMode order brokerName) stake) :
    brokerName = "alpaca" ∧ executionMode = "paper" := by
  have hgates := Etoro.gateReasons_of_blockers h.passed
  rw [LiveMirror.asked] at hgates
  dsimp only at hgates
  simpa using (List.append_eq_nil_iff.mp hgates).2

lemma liveCalls_stakes {call : BrokerCall} (hcall : call ∈ liveCalls input order brokerName) :
    input.primaryFailed = false ∧ brokerName = "alpaca" ∧ input.settings.executionMode = "paper" ∧
      ∃ mirror stake, input.liveMirror = some mirror ∧ Stakes mirror (mirror.asked "paper" order "alpaca") stake ∧
        ∀ price, dollars price call = stake := by
  rw [liveCalls] at hcall
  split at hcall
  · cases hcall
  · rename_i mirror hmirror
    split_ifs at hcall with hplaced
    · cases hcall
    · obtain ⟨stake, hstakes, hdollars⟩ := stakes_of_call hcall
      obtain ⟨rfl, hpaper⟩ := stakes_primary hstakes
      exact ⟨by simpa using hplaced, rfl, hpaper, mirror, stake, hmirror, hpaper ▸ hstakes, hdollars⟩

lemma mirrorParallel_calls {attempt : Attempt} {call : BrokerCall}
    (hcall : call ∈ (mirrorParallel input order brokerName attempt).calls) :
    call ∈ attempt.calls ∨ call = .openMarketOrderByAmount order ∨
      attempt.result = .ok () ∧ call ∈ liveCalls input order brokerName := by
  rw [mirrorParallel] at hcall
  split at hcall
  · exact .inl hcall
  · rename_i hresult
    rcases List.mem_append.mp hcall with h | h
    · exact (List.mem_append.mp h).imp_right fun hlive => .inr ⟨hresult, hlive⟩
    · split_ifs at h
      · exact .inr (.inl (List.mem_singleton.mp h))
      · cases h

lemma liveCalls_sub {attempt : Attempt} (hresult : attempt.result = .ok ()) {call : BrokerCall}
    (hcall : call ∈ liveCalls input order brokerName) :
    call ∈ (mirrorParallel input order brokerName attempt).calls := by
  rw [mirrorParallel, hresult]
  exact List.mem_append_left _ (List.mem_append_right _ hcall)

lemma executeWithBroker_calls (hamount : 0 ≤ order.amountUsd)
    (hroute : ¬(brokerName = "etoro" ∧ broker.key = input.trader.broker.key)) {call : BrokerCall}
    (hcall : call ∈ (executeWithBroker input order broker brokerName (quotePrice input)).calls) :
    dollars (quotePrice input) call ≤ order.amountUsd ∨
      (input.primaryFailed = false → Accepted input order broker brokerName) ∧
        call ∈ liveCalls input order brokerName := by
  rw [executeWithBroker, if_neg hroute] at hcall
  dsimp only at hcall
  split_ifs at hcall with hsubmits hknown hopens
  · exact .inl (submitShares_dollars hamount call hcall)
  · rcases mirrorParallel_calls hcall with h | rfl | ⟨hresult, hlive⟩
    · exact .inl (submitShares_dollars hamount call h)
    · exact .inl le_rfl
    · exact .inr ⟨fun hplaced => ⟨.inl ⟨hsubmits, by simpa using hknown, submitShares_ok hresult⟩, hplaced⟩, hlive⟩
  · rcases mirrorParallel_calls hcall with h | rfl | ⟨hresult, hlive⟩
    · rw [List.mem_singleton.mp h]
      exact .inl le_rfl
    · exact .inl le_rfl
    · exact .inr ⟨fun hplaced => ⟨.inr ⟨by simpa using hsubmits, hopens, hresult⟩, hplaced⟩, hlive⟩
  · cases hcall

lemma Accepted.mirrors (h : Accepted input order broker brokerName)
    (hroute : ¬(brokerName = "etoro" ∧ broker.key = input.trader.broker.key)) {call : BrokerCall}
    (hcall : call ∈ liveCalls input order brokerName) :
    call ∈ (executeWithBroker input order broker brokerName (quotePrice input)).calls := by
  rw [executeWithBroker, if_neg hroute]
  rcases h.answered with ⟨hsubmits, hknown, sent, hsent, hanswer⟩ | ⟨hsubmits, hopens, hanswer⟩
  · rw [if_pos hsubmits, if_neg (by simp [hknown])]
    refine liveCalls_sub ?_ hcall
    rw [submitShares, hsent]
    exact hanswer
  · rw [if_neg (by simp [hsubmits]), if_pos hopens]
    exact liveCalls_sub hanswer hcall

lemma settleAttempt_calls {attempt : Attempt} {call : BrokerCall}
    (hcall : call ∈ (settleAttempt input order attempt).calls) :
    call ∈ attempt.calls ∨ call = .openPaperPosition order := by
  rw [settleAttempt] at hcall
  split at hcall
  · exact .inl hcall
  · split_ifs at hcall
    · exact (List.mem_append.mp hcall).imp_right List.mem_singleton.mp
    · exact .inl hcall

lemma calls_of_attempt {attempt : Attempt} {call : BrokerCall} (hcall : call ∈ attempt.calls) :
    call ∈ (settleAttempt input order attempt).calls := by
  rw [settleAttempt]
  split
  · exact hcall
  · split_ifs
    · exact List.mem_append_left _ hcall
    · exact hcall

end Routes

section Main

variable {input : QueueInput}

lemma processQueueItem_sends {call : BrokerCall} (hcall : call ∈ (processQueueItem input).calls) :
    ∃ broker brokerName, input.broker = .ok (broker, brokerName) ∧
      input.proposal.status = .approved ∧ input.validationReasons = [] ∧ input.riskReasons = [] ∧
      bracketReasons input.settings (governedOrder input) brokerName (quotePrice input) = [] ∧
      call ∈ (sendOrder input (governedOrder input) broker brokerName (quotePrice input)).calls := by
  cases hbroker : input.broker with
  | error message =>
    simp only [processQueueItem, hbroker] at hcall
    split_ifs at hcall <;> cases hcall
  | ok chosen =>
    obtain ⟨broker, brokerName⟩ := chosen
    simp only [processQueueItem, hbroker] at hcall
    split_ifs at hcall with hstatus hvalid hrisk hbracket
    · cases hcall
    · cases hcall
    · cases hcall
    · cases hcall
    · exact ⟨broker, brokerName, rfl, not_not.mp hstatus, not_not.mp hvalid, not_not.mp hrisk, not_not.mp hbracket,
        hcall⟩

lemma executeProposal_calls {call : BrokerCall}
    (hcall : call ∈
      (input.trader.executeProposal input.proposal input.statusAtReload).calls) :
    call = .closePosition input.proposal.order.symbol ∨
      call = .openMarketOrderByAmount input.proposal.order ∧ input.statusAtReload = .approved ∧
        input.trader.riskReasons input.proposal.order = [] ∧
        input.proposal.order.side ≠ .sell := by
  rw [TraderService.executeProposal] at hcall
  split_ifs at hcall with hstatus hrisk hside
  · cases hcall
  · cases hcall
  · exact .inl (List.mem_singleton.mp hcall)
  · exact .inr ⟨List.mem_singleton.mp hcall, not_not.mp hstatus, not_not.mp hrisk, hside⟩

lemma stored_order_sent (h : BuysThroughTrader input) :
    .openMarketOrderByAmount input.proposal.order ∈ (processQueueItem input).calls := by
  obtain ⟨broker, hbroker, hkey⟩ := h.routed
  have hexecute : (input.trader.executeProposal input.proposal input.statusAtReload).calls =
      [.openMarketOrderByAmount input.proposal.order] := by
    rw [TraderService.executeProposal]
    rw [if_neg (not_not.mpr h.stillApproved), if_neg (not_not.mpr h.traderRiskPassed),
      if_neg h.purchase]
    rfl
  have hbracket : bracketReasons input.settings (governedOrder input) "etoro" (quotePrice input) = [] :=
    if_neg fun hname => absurd hname.1 (by decide)
  have hsend : processQueueItem input =
      settleAttempt input (governedOrder input)
        (input.trader.executeProposal input.proposal input.statusAtReload) := by
    simp only [processQueueItem, hbroker, h.approved, h.validated, h.riskPassed, hbracket,
      ne_eq, not_true_eq_false, if_false]
    rw [sendOrder, if_neg h.notSimulated, if_pos h.mode, if_neg (by simp [h.notExecuted])]
    rw [executeWithBroker, if_pos ⟨rfl, hkey⟩]
  rw [hsend]
  apply calls_of_attempt
  rw [hexecute]
  exact List.mem_singleton_self _

lemma copy_sent {broker : BrokerClient} {mirror : LiveMirror} {stake : ℚ} (h : CopiedAbove input broker mirror)
    (hstakes : Stakes mirror (mirror.asked "paper" (governedOrder input) "alpaca") stake) :
    .openMarketOrderByAmount { governedOrder input with amountUsd := stake, leverage := 1 } ∈
      (processQueueItem input).calls := by
  have hlive : .openMarketOrderByAmount { governedOrder input with amountUsd := stake, leverage := 1 } ∈
      liveCalls input (governedOrder input) "alpaca" := by
    rw [liveCalls, h.mirrored, h.mode]
    dsimp only
    rw [if_neg (by simp [h.accepted.placed])]
    exact hstakes.sends "paper"
  have hsend : processQueueItem input =
      settleAttempt input (governedOrder input)
        (executeWithBroker input (governedOrder input) broker "alpaca" (quotePrice input)) := by
    simp only [processQueueItem, h.routed, h.approved, h.validated, h.riskPassed, h.bracketed,
      ne_eq, not_true_eq_false, if_false]
    rw [sendOrder, if_neg (fun hsimulated => h.notSimulated hsimulated.2), if_pos (.inl h.mode),
      if_neg (by simp [h.notExecuted])]
  rw [hsend]
  exact calls_of_attempt (h.accepted.mirrors (fun hname => absurd hname.1 (by decide)) hlive)

/-- What is sent stays within the governed amount, unless the order is a purchase on the trader's
route and the governor reduces it, which sends the stored amount, or the live mirror copies it with
a larger stake of its own. -/
theorem governed_amount_sent_iff (input : QueueInput) :
    GovernedAmountSent input ↔
      ¬(BuysThroughTrader input ∧
          Reduces input.settings input.riskContext input.proposal.order) ∧
        ¬∃ broker mirror, CopiedAbove input broker mirror := by
  have hnonneg : 0 ≤ (governedOrder input).amountUsd :=
    governed_amount_nonneg input.proposal.amountPos.le
  constructor
  · refine fun hsent => ⟨?_, ?_⟩
    · rintro ⟨hbuys, hreduces⟩
      have hstored := hsent _ (stored_order_sent hbuys)
      exact absurd hstored (not_le.mpr (governed_amount_of_reduces hreduces))
    · rintro ⟨broker, mirror, hcopied⟩
      obtain ⟨stake, hstakes, habove⟩ := hcopied.above
      exact absurd (hsent _ (copy_sent hcopied hstakes)) (not_le.mpr habove)
  · rintro ⟨htrader, hlive⟩ call hcall
    obtain ⟨broker, brokerName, hbroker, happroved, hvalid, hrisk, hbracket, hsend⟩ :=
      processQueueItem_sends hcall
    rw [sendOrder] at hsend
    split_ifs at hsend with hsimulated hmode hexecuted
    · rw [List.mem_singleton.mp hsend]
      exact le_rfl
    · cases hsend
    · rcases settleAttempt_calls hsend with hattempt | rfl
      · by_cases hroute : brokerName = "etoro" ∧ broker.key = input.trader.broker.key
        · rw [executeWithBroker] at hattempt
          rw [if_pos hroute] at hattempt
          rcases executeProposal_calls hattempt with rfl | ⟨rfl, hreload, htraderRisk, hside⟩
          · exact hnonneg
          · apply le_governed_amount
            intro hreduces
            apply htrader
            refine ⟨?_, hreduces⟩
            exact
              { approved := happroved
                stillApproved := hreload
                validated := hvalid
                riskPassed := hrisk
                traderRiskPassed := htraderRisk
                routed := ⟨broker, hroute.1 ▸ hbroker, hroute.2⟩
                purchase := hside
                notSimulated := hsimulated
                mode := hmode
                notExecuted := by simpa using hexecuted }
        · rcases executeWithBroker_calls hnonneg hroute hattempt with hwithin | ⟨haccepted, hcopy⟩
          · exact hwithin
          · obtain ⟨hplaced, rfl, hpaper, mirror, stake, hmirror, hstakes, hdollars⟩ := liveCalls_stakes hcopy
            rw [hdollars]
            by_contra habove
            apply hlive
            refine ⟨broker, mirror, ?_⟩
            exact
              { approved := happroved
                validated := hvalid
                riskPassed := hrisk
                routed := hbroker
                bracketed := hbracket
                mode := hpaper
                notSimulated := fun hself => hsimulated ⟨hpaper, hself⟩
                notExecuted := by simpa using hexecuted
                accepted := haccepted hplaced
                mirrored := hmirror
                above := ⟨stake, hstakes, not_le.mp habove⟩ }
      · exact le_rfl
    · cases hsend

def drawdownPurchase : QueueInput where
  settings := { drawdownGovernorEnabled := true }
  trader :=
    { broker := { key := "etoro", opensByAmount := true, answer := fun _ => .ok () }
      riskReasons := fun _ => [] }
  proposal :=
    { id := "p1"
      order := { symbol := "GOLD", amountUsd := 1000, proposedPrice := 100 }
      status := .approved
      amountPos := by norm_num }
  statusAtReload := .approved
  broker := .ok ({ key := "etoro", opensByAmount := true, answer := fun _ => .ok () }, "etoro")
  quote := { lastExecution := some 100 }
  validationReasons := []
  riskContext := { dailyRealizedPnlUsd := -3500, accountBalance := 100000 }
  riskReasons := []

/-- The same day on Alpaca, with a live mirror whose account is worth $10,000: its stake for a stop 5 % away is
$1,000. -/
def drawdownCopy : QueueInput where
  settings := { drawdownGovernorEnabled := true }
  trader :=
    { broker := { key := "etoro", opensByAmount := true, answer := fun _ => .ok () }
      riskReasons := fun _ => [] }
  proposal :=
    { id := "p2"
      order :=
        { symbol := "AAPL", amountUsd := 1000, proposedPrice := 100, stopLoss := some 95, takeProfit := some 110,
          assetClass := .equity }
      status := .approved
      amountPos := by norm_num }
  statusAtReload := .approved
  broker :=
    .ok ({ key := "alpaca", submitsOrders := true, submitsBracketOrders := true, answer := fun _ => .ok () }, "alpaca")
  quote := { lastExecution := some 100 }
  validationReasons := []
  riskContext := { dailyRealizedPnlUsd := -3500, accountBalance := 100000 }
  riskReasons := []
  liveMirror := some
    { settings := {}
      store := { mirror := { lastEquity := some 10000 } }
      copy :=
        { request := { order := { symbol := "", amountUsd := 0, proposedPrice := 0 } }
          attempt := .posted (.accepted (some 1)) }
      times := ⟨0, 0, 0, 0, 0⟩ }

theorem drawdown_purchase_sends_stored_amount :
    ¬GovernedAmountSent drawdownPurchase ∧ ¬GovernedAmountSent drawdownCopy := by
  have hstored : .openMarketOrderByAmount drawdownPurchase.proposal.order ∈
      (processQueueItem drawdownPurchase).calls := by decide +kernel
  have hgoverned : (governedOrder drawdownPurchase).amountUsd = 625 ∧
      (governedOrder drawdownCopy).amountUsd = 625 := by decide +kernel
  have hcopied : .openMarketOrderByAmount { governedOrder drawdownCopy with amountUsd := 1000 } ∈
      (processQueueItem drawdownCopy).calls := by decide +kernel
  refine ⟨fun hsent => ?_, fun hsent => ?_⟩
  · have hwithin := hsent _ hstored
    rw [hgoverned.1] at hwithin
    exact absurd hwithin (by decide +kernel)
  · have hwithin := hsent _ hcopied
    rw [hgoverned.2, dollars] at hwithin
    exact absurd hwithin (by decide +kernel)

end Main

end AlgoTrader.Execution
