import AlgoTrader.Broker.EtoroLive
import Mathlib.Tactic.NormNum

/-! The hard caps of the live mirror over whole runs. A copy's amount and the open positions it meets
are capped in every run. The daily cap rests on the day of the state that counted a copy: it holds in
every run that sends each copy on that same UTC day and never takes back a copy that may be filled. -/

namespace AlgoTrader.Broker.Etoro

open AlgoTrader.Utils.Time
open AlgoTrader.Models

def lossAtStop (amount price stop : ℚ) : ℚ := amount * ((price - stop) / price)

structure WithinCaps (equity price stop amount : ℚ) : Prop where
  share : amount ≤ equity * hardMaxTradePctOfEquity / 100
  dollars : amount ≤ hardMaxTradeUsd
  loss : lossAtStop amount price stop ≤ equity * hardMaxRiskPctOfEquity / 100

/-- The copy's amount is such an amount up to cent rounding, for the equity last read, and fewer
than the cap's number of open symbols were counted when it was decided on. -/
def Copy.Capped (copy : Copy) : Prop :=
  (∃ equity stop exact, copy.equity = some equity ∧ copy.order.stopLoss = some stop ∧
    WithinCaps equity copy.order.proposedPrice stop exact ∧ |copy.amount - exact| ≤ 1 / 200) ∧
  copy.counted < hardMaxOpenPositions

lemma effectiveTradePct_le (settings : Settings) :
    effectiveTradePct settings ≤ hardMaxTradePctOfEquity := by
  rw [effectiveTradePct]
  cases settings.tradePctOfEquity with
  | none => norm_num [hardMaxTradePctOfEquity]
  | some pct => exact min_le_right _ _

lemma orderStopPct_some {order : TradeOrder} {stopPct : ℚ} (h : orderStopPct order = some stopPct) :
    ∃ stop, order.stopLoss = some stop ∧
      stopPct = (order.proposedPrice - stop) / order.proposedPrice * 100 := by
  unfold orderStopPct stopDistancePct at h
  cases hstop : order.stopLoss with
  | none =>
    rw [hstop] at h
    cases h
  | some stop =>
    rw [hstop] at h
    dsimp only at h
    split_ifs at h
    cases h
    exact ⟨stop, rfl, rfl⟩

lemma tradeAmount_some {settings : Settings} {state : MirrorState} {stopPct amount : ℚ}
    (h : tradeAmount settings state (some stopPct) = some amount) :
    ∃ equity, state.lastEquity = some equity ∧ 0 < equity ∧ 0 < stopPct ∧
      amount = Rounding.toDigits 2 (min
        (min (equity * effectiveTradePct settings / 100) hardMaxTradeUsd)
        (equity * hardMaxRiskPctOfEquity / stopPct)) := by
  unfold tradeAmount at h
  cases hequity : state.lastEquity with
  | none =>
    rw [hequity] at h
    cases h
  | some equity =>
    rw [hequity] at h
    dsimp only at h
    split_ifs at h with hpositive
    rw [not_or, not_le, not_le] at hpositive
    exact ⟨equity, rfl, hpositive.1, hpositive.2, (Option.some.inj h).symm⟩

lemma withinCaps_min {equity price stop pct : ℚ} (hequity : 0 < equity)
    (hstop : 0 < (price - stop) / price * 100) (hpct : pct ≤ hardMaxTradePctOfEquity) :
    WithinCaps equity price stop (min (min (equity * pct / 100) hardMaxTradeUsd)
      (equity * hardMaxRiskPctOfEquity / ((price - stop) / price * 100))) where
  share := by
    have hshare : equity * pct / 100 ≤ equity * hardMaxTradePctOfEquity / 100 := by
      have := mul_le_mul_of_nonneg_left hpct hequity.le
      linarith
    exact (min_le_left _ _).trans ((min_le_left _ _).trans hshare)
  dollars := (min_le_left _ _).trans (min_le_right _ _)
  loss := by
    have hdistance : 0 < (price - stop) / price := by linarith
    rw [lossAtStop]
    generalize (price - stop) / price = distance at hdistance ⊢
    calc
      _ ≤ equity * hardMaxRiskPctOfEquity / (distance * 100) * distance :=
        mul_le_mul_of_nonneg_right (min_le_right _ _) hdistance.le
      _ = equity * hardMaxRiskPctOfEquity / 100 := by
        field_simp

lemma capped_of_prepared {settings : Settings} {world : World} {times : CopyTimes}
    {input : CopyInput} {prepared : Prepared}
    (hequity : world.store.mirror.lastEquity = world.equityRead)
    (h : prepareCopy settings world.store input times = some prepared) :
    (submitted settings world times input prepared).Capped := by
  have hfrom := prepareCopy_some h
  obtain ⟨hproposal, hcaps⟩ := blockers_eq_nil hfrom.passed
  constructor
  · obtain ⟨stopPct, hstopPct⟩ := stop_of_proposalBlockers hproposal
    obtain ⟨stop, hstop, hpct⟩ := orderStopPct_some hstopPct
    have hamount := hfrom.amount
    rw [hstopPct] at hamount
    obtain ⟨equity, hlast, hpositive, hdistance, hrounded⟩ := tradeAmount_some hamount
    rw [currentState_lastEquity] at hlast
    rw [hpct] at hdistance hrounded
    refine ⟨equity, stop, _, hequity.symm.trans hlast, hstop,
      withinCaps_min hpositive hdistance (effectiveTradePct_le settings), ?_⟩
    have hround := Rounding.abs_toDigits_sub_le 2
      (min (min (equity * effectiveTradePct settings / 100) hardMaxTradeUsd)
        (equity * hardMaxRiskPctOfEquity /
          ((input.request.order.proposedPrice - stop) / input.request.order.proposedPrice * 100)))
    rw [← hrounded] at hround
    norm_num at hround
    exact hround
  · have hcounted := (caps_of_capBlockers hcaps).2.2
    rw [effectiveOpenSymbols] at hcounted
    rw [currentState_openSymbols] at hcounted
    exact hcounted

def Rephases (f : Copy → Copy) : Prop := ∀ copy, ∃ phase, f copy = { copy with phase }

section Rephasing

variable (instrumentOf : String → ℕ)

lemma rephases_observe (lots : List Position) : Rephases (Copy.observe instrumentOf lots) := by
  intro copy
  rw [Copy.observe]
  split
  · exact ⟨.held, rfl⟩
  · exact ⟨.finished, rfl⟩
  · exact ⟨copy.phase, rfl⟩

lemma rephases_observeReads (reads : List (List Position)) :
    Rephases (Copy.observeReads instrumentOf reads) := by
  induction reads with
  | nil => exact fun copy => ⟨copy.phase, rfl⟩
  | cons lots rest ih =>
    intro copy
    obtain ⟨first, hfirst⟩ := rephases_observe instrumentOf lots copy
    obtain ⟨phase, hrest⟩ := ih (copy.observe instrumentOf lots)
    refine ⟨phase, hrest.trans ?_⟩
    rw [hfirst]

lemma rephases_afterCheck (check : StopCheck) (result : CheckResult) (lots : List Position) :
    Rephases (Copy.afterCheck instrumentOf check result lots) := by
  intro copy
  obtain ⟨phase, hobserve⟩ := rephases_observe instrumentOf lots copy
  simp only [Copy.afterCheck, hobserve]
  split_ifs
  · exact ⟨.finished, rfl⟩
  · exact ⟨phase, rfl⟩

lemma check_rephases (world : World) (toRead toDone : ℕ) (check : StopCheck) :
    ∃ f, Rephases f ∧ (world.check instrumentOf toRead toDone check).copies = world.copies.map f := by
  rw [World.check]
  cases check.read.usable check.clientUsable with
  | none => exact ⟨id, fun copy => ⟨copy.phase, rfl⟩, (List.map_id _).symm⟩
  | some lots => exact ⟨_, rephases_afterCheck instrumentOf check _ _, rfl⟩

end Rephasing

structure CopiesCapped (world : World) : Prop where
  equity : world.store.mirror.lastEquity = world.equityRead
  capped : ∀ copy ∈ world.copies, copy.Capped

lemma capped_map {f : Copy → Copy} (hf : Rephases f) {copies : List Copy}
    (h : ∀ copy ∈ copies, copy.Capped) : ∀ copy ∈ copies.map f, copy.Capped := by
  intro copy hcopy
  obtain ⟨old, hold, rfl⟩ := List.mem_map.mp hcopy
  obtain ⟨phase, hphase⟩ := hf old
  rw [hphase]
  exact h old hold

variable {settings : Settings} {instrumentOf : String → ℕ} {world : World}

lemma CopiesCapped.copy (h : CopiesCapped world) (waits : CopyWaits) (input : CopyInput) :
    CopiesCapped (world.copy settings waits input) := by
  cases hprepared : prepareCopy settings world.store input (waits.times world.clock) with
  | none =>
    simp only [World.copy, mirror, hprepared, Option.toList_none, List.map_nil, List.append_nil]
    exact ⟨h.equity, h.capped⟩
  | some prepared =>
    simp only [World.copy, mirror, hprepared, Option.toList_some, List.map_singleton]
    constructor
    · rw [submitCopy_lastEquity, (prepareCopy_some hprepared).lastEquity]
      exact h.equity
    · intro copy hcopy
      rw [List.mem_append, List.mem_singleton] at hcopy
      rcases hcopy with hcopy | rfl
      · exact h.capped copy hcopy
      · exact capped_of_prepared h.equity hprepared

lemma CopiesCapped.reconcile (h : CopiesCapped world) (toRead toDone : ℕ)
    (input : ReconcileInput) :
    CopiesCapped (world.reconcile settings instrumentOf toRead toDone input) where
  equity := by
    simp only [World.reconcile, Etoro.reconcile, reconcileReads]
    split_ifs
    · exact h.equity
    · cases input.reads with
      | error failure =>
        dsimp only
        split_ifs <;> exact h.equity
      | ok reads => rfl
  capped := capped_map (rephases_observeReads instrumentOf _) h.capped

lemma CopiesCapped.step (h : CopiesCapped world) (action : Action) :
    CopiesCapped (step settings instrumentOf world action) := by
  cases action with
  | copy waits input => exact h.copy waits input
  | reconcile toRead toDone input => exact h.reconcile toRead toDone input
  | check toRead toDone check =>
    obtain ⟨f, hf, hcopies⟩ := check_rephases instrumentOf world toRead toDone check
    refine ⟨h.equity, ?_⟩
    rw [Etoro.step, hcopies]
    exact capped_map hf h.capped
  | updateScorecard wait update =>
    exact ⟨h.equity, capped_map (rephases_observeReads instrumentOf _) h.capped⟩
  | clearHalt => exact ⟨h.equity, h.capped⟩

def filledOn (copies : List Copy) (day : ℤ) : ℕ :=
  copies.countP fun copy => copy.possiblyFilled ∧ utcDate copy.postedAt = day

/-- Whether a step leaves the daily count right: a copy that may be filled goes out on the UTC day
of the state that counts it, and is not taken back. -/
def countsCopy (world : World) : Action → Prop
  | .copy waits input =>
      input.attempt.possiblyFilled = true →
        utcDate (waits.times world.clock).postAt = utcDate (waits.times world.clock).readAt ∧
          input.attempt.undone = false
  | _ => True

instance (world : World) : ∀ action, Decidable (countsCopy world action)
  | .copy waits input => inferInstanceAs (Decidable (input.attempt.possiblyFilled = true →
      utcDate (waits.times world.clock).postAt = utcDate (waits.times world.clock).readAt ∧
        input.attempt.undone = false))
  | .reconcile _ _ _ => inferInstanceAs (Decidable True)
  | .check _ _ _ => inferInstanceAs (Decidable True)
  | .updateScorecard _ _ => inferInstanceAs (Decidable True)
  | .clearHalt => inferInstanceAs (Decidable True)

lemma filledOn_map {f : Copy → Copy} (hf : Rephases f) (copies : List Copy) (day : ℤ) :
    filledOn (copies.map f) day = filledOn copies day := by
  rw [filledOn, List.countP_map]
  congr 1
  funext copy
  obtain ⟨phase, hphase⟩ := hf copy
  rw [Function.comp_apply, hphase]

lemma filledOn_append (copies : List Copy) (copy : Copy) (day : ℤ) :
    filledOn (copies ++ [copy]) day =
      filledOn copies day +
        if copy.possiblyFilled ∧ utcDate copy.postedAt = day then 1 else 0 := by
  rw [filledOn, List.countP_append, List.countP_singleton]
  congr 1
  simp only [decide_eq_true_eq]

lemma filledOn_eq_zero {copies : List Copy} {clock : Timestamp} {day : ℤ}
    (hpast : ∀ copy ∈ copies, copy.postedAt ≤ clock) (hday : utcDate clock < day) :
    filledOn copies day = 0 := by
  rw [filledOn, List.countP_eq_zero]
  intro copy hcopy hfilled
  have hdate := utcDate_mono (hpast copy hcopy)
  have hsame : utcDate copy.postedAt = day := (of_decide_eq_true hfilled).2
  omega

def Counted (copies : List Copy) (state : MirrorState) (now : Timestamp) : Prop :=
  filledOn copies (utcDate now) ≤ (currentState state (utcDate now)).tradesToday

lemma Counted.later {copies : List Copy} {state : MirrorState} {clock now : Timestamp}
    (h : Counted copies state clock) (hpast : ∀ copy ∈ copies, copy.postedAt ≤ clock)
    (hle : clock ≤ now) : Counted copies state now := by
  rw [Counted]
  rcases (utcDate_mono hle).lt_or_eq with hlater | hsame
  · rw [filledOn_eq_zero hpast hlater]
    exact Nat.zero_le _
  · rw [← hsame]
    exact h

structure DailyCapped (world : World) : Prop where
  past : ∀ copy ∈ world.copies, copy.postedAt ≤ world.clock
  counted : Counted world.copies world.store.mirror world.clock
  capped : ∀ day, filledOn world.copies day ≤ hardMaxTradesPerDay

lemma DailyCapped.rephased {next : World} {f : Copy → Copy} (h : DailyCapped world)
    (hf : Rephases f) (hcopies : next.copies = world.copies.map f)
    (hclock : world.clock ≤ next.clock)
    (hcounted : Counted world.copies next.store.mirror next.clock) : DailyCapped next where
  past := by
    intro copy hcopy
    rw [hcopies] at hcopy
    obtain ⟨old, hold, rfl⟩ := List.mem_map.mp hcopy
    obtain ⟨phase, hphase⟩ := hf old
    rw [hphase]
    exact (h.past old hold).trans hclock
  counted := by
    rw [Counted, hcopies, filledOn_map hf]
    exact hcounted
  capped := by
    intro day
    rw [hcopies, filledOn_map hf]
    exact h.capped day

-- On a later day than the clock's nothing has been sent yet.
lemma DailyCapped.room (h : DailyCapped world) {gatesAt readAt : Timestamp}
    (hgates : world.clock ≤ gatesAt) (hread : gatesAt ≤ readAt)
    (hpassed : (currentState world.store.mirror (utcDate gatesAt)).tradesToday <
      hardMaxTradesPerDay) : filledOn world.copies (utcDate readAt) < hardMaxTradesPerDay := by
  rcases (utcDate_mono hread).lt_or_eq with hlater | hsame
  · have hclock := utcDate_mono hgates
    rw [filledOn_eq_zero h.past (hclock.trans_lt hlater)]
    exact Nat.succ_pos 2
  · have hcounted := h.counted.later h.past hgates
    rw [Counted] at hcounted
    rw [← hsame]
    exact hcounted.trans_lt hpassed

lemma CopyWaits.times_le (waits : CopyWaits) (clock : Timestamp) :
    clock ≤ (waits.times clock).gatesAt ∧
      (waits.times clock).gatesAt ≤ (waits.times clock).readAt ∧
      (waits.times clock).readAt ≤ (waits.times clock).postAt ∧
      (waits.times clock).postAt ≤ (waits.times clock).doneAt := by
  unfold CopyWaits.times Timestamp at *
  dsimp only
  omega

lemma DailyCapped.submit (h : DailyCapped world) {waits : CopyWaits} {input : CopyInput}
    {prepared : Prepared} (hallowed : countsCopy world (.copy waits input))
    (hprepared : prepareCopy settings world.store input (waits.times world.clock) = some prepared) :
    let copy := submitted settings world (waits.times world.clock) input prepared
    let after := submitCopy world.store input (waits.times world.clock) prepared
    Counted (world.copies ++ [copy]) after.mirror (waits.times world.clock).doneAt ∧
      ∀ day, filledOn (world.copies ++ [copy]) day ≤ hardMaxTradesPerDay := by
  intro copy after
  obtain ⟨hgates, hread, hpost, hdone⟩ := waits.times_le world.clock
  have hfrom := prepareCopy_some hprepared
  have hroom := h.room hgates hread (caps_of_capBlockers (blockers_eq_nil hfrom.passed).2).1
  have hcounted := h.counted.later h.past (hgates.trans hread)
  rw [Counted] at hcounted
  rw [← hfrom.tradesToday] at hcounted
  cases hfilled : input.attempt.possiblyFilled with
  | false =>
    -- Nothing was opened: the day's copies are as before, and the count is no lower.
    have hsame : ∀ day, filledOn (world.copies ++ [copy]) day = filledOn world.copies day := by
      intro day
      rw [filledOn_append, if_neg, Nat.add_zero]
      simp [copy, submitted, hfilled]
    have hread : Counted world.copies after.mirror (waits.times world.clock).readAt := by
      rw [Counted]
      cases hundone : input.attempt.undone with
      | true =>
        rw [(submitCopy_undone world.store input _ prepared hundone).1,
          currentState_of_day hfrom.day]
        exact hcounted
      | false =>
        obtain ⟨htrades, hday, -, -⟩ := submitCopy_kept world.store input _ prepared hundone
        rw [currentState_of_day (hday.trans hfrom.day), htrades]
        omega
    have hpast : ∀ copy ∈ world.copies, copy.postedAt ≤ (waits.times world.clock).readAt :=
      fun copy hcopy => (h.past copy hcopy).trans (hgates.trans ‹_›)
    refine ⟨?_, fun day => by rw [hsame]; exact h.capped day⟩
    rw [Counted, hsame]
    exact hread.later hpast (hpost.trans hdone)
  | true =>
    obtain ⟨hday, hundone⟩ := hallowed hfilled
    obtain ⟨htrades, hstateDay, -, -⟩ := submitCopy_kept world.store input _ prepared hundone
    have hadd : ∀ day, filledOn (world.copies ++ [copy]) day = filledOn world.copies day +
        if utcDate (waits.times world.clock).readAt = day then 1 else 0 := by
      intro day
      rw [filledOn_append]
      simp [copy, submitted, hfilled, hday]
    constructor
    · have hat : Counted (world.copies ++ [copy]) after.mirror (waits.times world.clock).postAt := by
        rw [Counted, hday, hadd, if_pos rfl, currentState_of_day (hstateDay.trans hfrom.day), htrades]
        omega
      refine hat.later ?_ hdone
      intro old hold
      rw [List.mem_append, List.mem_singleton] at hold
      rcases hold with hold | rfl
      · exact (h.past old hold).trans (hgates.trans (hread.trans hpost))
      · exact le_refl _
    · intro day
      rw [hadd]
      split_ifs with hsame
      · rw [← hsame]
        omega
      · exact h.capped day

lemma DailyCapped.copy (h : DailyCapped world) {waits : CopyWaits} {input : CopyInput}
    (hallowed : countsCopy world (.copy waits input)) :
    DailyCapped (world.copy settings waits input) := by
  obtain ⟨hgates, hread, hpost, hdone⟩ := waits.times_le world.clock
  have hwait : world.clock ≤ (waits.times world.clock).doneAt :=
    hgates.trans (hread.trans (hpost.trans hdone))
  cases hprepared : prepareCopy settings world.store input (waits.times world.clock) with
  | none =>
    simp only [World.copy, mirror, hprepared, Option.toList_none, List.map_nil, List.append_nil]
    exact
      { past := fun copy hcopy => (h.past copy hcopy).trans hwait
        counted := h.counted.later h.past hwait
        capped := h.capped }
  | some prepared =>
    obtain ⟨hcounted, hcapped⟩ := h.submit hallowed hprepared
    simp only [World.copy, mirror, hprepared, Option.toList_some, List.map_singleton]
    refine { past := ?_, counted := hcounted, capped := hcapped }
    intro copy hcopy
    rw [List.mem_append, List.mem_singleton] at hcopy
    rcases hcopy with hcopy | rfl
    · exact (h.past copy hcopy).trans hwait
    · exact hdone

lemma DailyCapped.reconcile (h : DailyCapped world) (toRead toDone : ℕ)
    (input : ReconcileInput) :
    DailyCapped (world.reconcile settings instrumentOf toRead toDone input) := by
  have hread : world.clock ≤ world.clock + toRead := le_add_wait _ _
  have hdone : world.clock + toRead ≤ world.clock + toRead + toDone := le_add_wait _ _
  have hpast : ∀ copy ∈ world.copies, copy.postedAt ≤ world.clock + toRead :=
    fun copy hcopy => (h.past copy hcopy).trans hread
  refine h.rephased (rephases_observeReads instrumentOf _) rfl (hread.trans hdone) ?_
  have hcounted := h.counted.later h.past hread
  have hat : Counted world.copies
      (Etoro.reconcile settings world.store input (world.clock + toRead)).mirror
      (world.clock + toRead) := by
    simp only [Etoro.reconcile]
    split_ifs
    · exact hcounted
    · cases input.reads with
      | error failure =>
        dsimp only
        split_ifs <;> exact hcounted
      | ok reads =>
        rw [Counted] at hcounted ⊢
        rw [currentState_of_day]
        · exact hcounted
        · exact currentState_day _ _
  exact hat.later hpast hdone

lemma DailyCapped.step (h : DailyCapped world) (action : Action)
    (hallowed : countsCopy world action) : DailyCapped (step settings instrumentOf world action) := by
  cases action with
  | copy waits input => exact h.copy hallowed
  | reconcile toRead toDone input => exact h.reconcile toRead toDone input
  | check toRead toDone check =>
    have hwait : world.clock ≤ world.clock + toRead + toDone :=
      (le_add_wait _ toRead).trans (le_add_wait _ _)
    obtain ⟨f, hf, hcopies⟩ := check_rephases instrumentOf world toRead toDone check
    exact h.rephased hf hcopies hwait (h.counted.later h.past hwait)
  | updateScorecard wait update =>
    have hwait : world.clock ≤ world.clock + wait := le_add_wait _ _
    exact h.rephased (rephases_observeReads instrumentOf _) rfl hwait
      (h.counted.later h.past hwait)
  | clearHalt => exact ⟨h.past, h.counted, h.capped⟩

lemma CopiesCapped.start (store : Store) (clock : Timestamp) :
    CopiesCapped (World.start store clock) :=
  ⟨rfl, fun _ hcopy => absurd hcopy List.not_mem_nil⟩

lemma DailyCapped.start (store : Store) (clock : Timestamp) :
    DailyCapped (World.start store clock) where
  past := fun _ hcopy => absurd hcopy List.not_mem_nil
  counted := Nat.zero_le _
  capped := fun _ => Nat.zero_le _

theorem live_caps_hold (settings : Settings) (instrumentOf : String → ℕ) (store : Store)
    (clock : Timestamp) (actions : List Action) :
    let after := Runs.run (step settings instrumentOf) (World.start store clock) actions
    (∀ copy ∈ after.copies, copy.Capped) ∧
      (Runs.Allowed (step settings instrumentOf) countsCopy (World.start store clock) actions →
        ∀ day, filledOn after.copies day ≤ hardMaxTradesPerDay) := by
  intro after
  constructor
  · have hcapped : CopiesCapped after :=
      Runs.invariant_of_step (fun _ action h => h.step action) (CopiesCapped.start store clock) actions
    exact hcapped.capped
  · intro hallowed
    have hdaily : DailyCapped after :=
      Runs.invariant (fun _ action h hcounts => h.step action hcounts)
        (DailyCapped.start store clock) hallowed
    exact hdaily.capped

-- One copy is counted a second before midnight and goes out after it; three more
-- follow.
def fundedStore : Store where
  mirror := { lastEquity := some 10000 }

def entryOf (symbol : String) : CopyInput where
  request :=
    { order :=
        { symbol
          amountUsd := 5000
          proposedPrice := 100
          stopLoss := some 95
          takeProfit := some 110
          assetClass := .equity } }
  attempt := .posted (.accepted (some 1))
  cardKey := symbol

def acrossMidnight : List Action :=
  [.copy { toPost := 2000000 } (entryOf "AAPL"), .copy {} (entryOf "MSFT"),
    .copy {} (entryOf "META"), .copy {} (entryOf "COST")]

def beforeMidnight : Timestamp := midnight 20000 - 1000000

theorem daily_cap_exceeded_across_midnight :
    ¬ ∀ (settings : Settings) (instrumentOf : String → ℕ) (store : Store) (clock : Timestamp)
      (actions : List Action) (day : ℤ),
      filledOn (Runs.run (step settings instrumentOf) (World.start store clock) actions).copies day ≤
        hardMaxTradesPerDay := by
  intro h
  have hday := h {} (fun _ => 1) fundedStore beforeMidnight acrossMidnight 20000
  revert hday
  decide +kernel

theorem live_caps_hold_same_day :
    (∀ copy ∈ (Runs.run (step {} fun _ => 1) (World.start fundedStore (midnight 20000))
        acrossMidnight).copies, copy.Capped) ∧
      ∀ day, filledOn (Runs.run (step {} fun _ => 1) (World.start fundedStore (midnight 20000))
        acrossMidnight).copies day ≤ hardMaxTradesPerDay :=
  ⟨(live_caps_hold {} (fun _ => 1) fundedStore (midnight 20000) acrossMidnight).1,
    (live_caps_hold {} (fun _ => 1) fundedStore (midnight 20000) acrossMidnight).2
      (by decide +kernel)⟩

end AlgoTrader.Broker.Etoro
