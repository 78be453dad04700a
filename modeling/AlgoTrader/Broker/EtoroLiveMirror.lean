import AlgoTrader.Broker.EtoroLiveGates

/-! The live mirror (``app/broker/etoro_live_mirror.py``): a qualifying paper entry is copied as a
capped eToro order, and reconcile refreshes what the caps read. Both run under the mirror's lock. -/

namespace AlgoTrader.Broker.Etoro

open AlgoTrader.Utils.Time
open AlgoTrader.Models

def leverageTestAfter1xTrades : ℕ := 2
def leverageTestEnabled : Bool := false
def reconcileFailuresToHalt : ℕ := 3

-- The sale and the wait for its cash can fail in many ways, all of which refuse the copy.
inductive Release
  | refused
  | sold (valueUsd : ℚ) (confirmedCash : Option ℚ)

def sellReserve (notional : Records.Dict String NotionalRow) (valueUsd : ℚ) :
    Records.Dict String NotionalRow :=
  match notional.lookup reserveSymbol with
  | none => notional
  | some row =>
      notional.insert reserveSymbol
        { row with costUsd := some (Rounding.toDigits 2 (max (row.costUsd.getD 0 - valueUsd) 0)) }

def releaseForCopy (settings : Settings) (state : MirrorState) (amount : ℚ) (release : Release) :
    Option MirrorState :=
  if !settings.spyReserveEnabled then some state
  else
    match state.lastCash with
    | none => some state
    | some cash =>
        if Rounding.toDigits 2 (amount - (cash - cashReserveUsd)) ≤ 0 then some state
        else if sellableUsd settings state ≤ 0 then none
        else
          match release with
          | .refused => none
          | .sold valueUsd confirmedCash =>
              some { state with
                lastCash := (confirmedCash.map (Rounding.toDigits 2)).or (some cash)
                openNotional := sellReserve state.openNotional valueUsd }

-- One copy. The lock is held, but time passes: the clock is read for the gates, for the
-- state that is written ahead, for the recorded stop, and again when the order has been
-- answered.
structure CopyTimes where
  gatesAt : Timestamp
  readAt : Timestamp
  stopAt : Timestamp
  postAt : Timestamp
  doneAt : Timestamp

/-- What a copy is decided on besides the records: the order, the reserve's sale, and the answer
to the order request with the key its card gets. -/
structure CopyInput where
  request : CopyRequest
  release : Release := .refused
  attempt : Attempt
  cardKey : String := ""

structure Prepared where
  state : MirrorState
  amount : ℚ
  leverage : ℕ

def copyLeverage (state : MirrorState) : ℕ :=
  if leverageTestEnabled && !state.leverage2xDone &&
    leverageTestAfter1xTrades ≤ state.successful1x then 2 else 1

section Copy

variable (settings : Settings) (store : Store) (input : CopyInput) (times : CopyTimes)

/-- The first half of ``mirror``: gates, stake and the reserve's sale, with nothing written yet. -/
def prepareCopy : Option Prepared :=
  if blockers settings store times.gatesAt input.request ≠ [] then none
  else
    let state := currentState store.mirror (utcDate times.readAt)
    let leverage := copyLeverage state
    let stake := tradeAmount settings state (orderStopPct input.request.order)
    match (copyAmount settings store state times.readAt stake).1 with
    | none => none
    | some amount =>
        if amount = 0 then none
        else
          (releaseForCopy settings state amount input.release).map fun state =>
            { state
              amount := if 1 < leverage then Rounding.toDigits 2 (amount / leverage) else amount
              leverage }

def writeAhead (prepared : Prepared) (symbol : String) : MirrorState :=
  let state := prepared.state
  { state with
    tradesToday := state.tradesToday + 1
    openSymbols := (symbol :: state.openSymbols).dedup
    openNotional := state.openNotional.insert symbol
      { costUsd := some (Rounding.toDigits 2 (prepared.amount * prepared.leverage)) }
    leverage2xDone := prepared.leverage == 2 || state.leverage2xDone
    lastCash := state.lastCash.map fun cash => Rounding.toDigits 2 (cash - prepared.amount) }

def Failure.refunded (failure : Failure) : Bool :=
  failure.isRateLimit || Text.containsText "with status 4" failure.text

def orderSymbol : String := input.request.order.symbol.toUpper

def savedCopy (prepared : Prepared) : Store :=
  { store with
    mirror := writeAhead prepared (orderSymbol input)
    stops := rememberStop store.stops (orderSymbol input) input.request.order.stopLoss none
      times.stopAt }

def undoneCopy (prepared : Prepared) : Store :=
  let saved := savedCopy store input times prepared
  { saved with mirror := prepared.state, stops := forgetStop saved.stops (orderSymbol input) }

/-- The second half of ``mirror``: write ahead, send, and settle the answer. -/
def submitCopy (prepared : Prepared) : Store :=
  let saved := savedCopy store input times prepared
  let undone := undoneCopy store input times prepared
  match input.attempt.result with
  | .error failure =>
      let kept := if failure.refunded then undone else saved
      if failure.isRateLimit then kept else { kept with halted := true }
  | .ok status =>
      if status.refused then undone
      else
        { saved with
          mirror :=
            if prepared.leverage = 1 then
              { saved.mirror with successful1x := saved.mirror.successful1x + 1 }
            else saved.mirror
          scorecard := recordEntry store.scorecard input.cardKey (orderSymbol input) prepared.amount
            prepared.leverage times.doneAt }

def mirror : Store :=
  match prepareCopy settings store input times with
  | none => store
  | some prepared => submitCopy store input times prepared

end Copy

def Attempt.undone (attempt : Attempt) : Bool :=
  match attempt.result with
  | .error failure => failure.refunded
  | .ok status => status.refused

lemma copyLeverage_eq (state : MirrorState) : copyLeverage state = 1 := by
  simp [copyLeverage, leverageTestEnabled]

structure PreparedFrom (settings : Settings) (store : Store) (input : CopyInput)
    (times : CopyTimes) (prepared : Prepared) : Prop where
  passed : blockers settings store times.gatesAt input.request = []
  day : prepared.state.day = some (utcDate times.readAt)
  tradesToday : prepared.state.tradesToday =
    (currentState store.mirror (utcDate times.readAt)).tradesToday
  lastEquity : prepared.state.lastEquity = store.mirror.lastEquity
  amount : tradeAmount settings (currentState store.mirror (utcDate times.readAt))
    (orderStopPct input.request.order) = some prepared.amount

lemma releaseForCopy_frame {settings : Settings} {state released : MirrorState} {amount : ℚ}
    {release : Release} (h : releaseForCopy settings state amount release = some released) :
    released.day = state.day ∧ released.tradesToday = state.tradesToday ∧
      released.lastEquity = state.lastEquity := by
  rw [releaseForCopy] at h
  split at h
  · cases h
    exact ⟨rfl, rfl, rfl⟩
  · cases hcash : state.lastCash with
    | none =>
      rw [hcash] at h
      cases h
      exact ⟨rfl, rfl, rfl⟩
    | some cash =>
      rw [hcash] at h
      dsimp only at h
      split_ifs at h
      · cases h
        exact ⟨rfl, rfl, rfl⟩
      · cases release with
        | refused => cases h
        | sold valueUsd confirmedCash =>
          cases h
          exact ⟨rfl, rfl, rfl⟩

lemma copyAmount_some {settings : Settings} {store : Store} {state : MirrorState} {now : Timestamp}
    {stake : Option ℚ} {amount : ℚ}
    (h : (copyAmount settings store state now stake).1 = some amount) : stake = some amount := by
  unfold copyAmount at h
  split at h
  · rename_i stake equity _ _
    split_ifs at h
    split at h
    · cases h
    · rw [fitToRoom_some h]
  · cases h

lemma prepareCopy_steps {settings : Settings} {store : Store} {input : CopyInput} {times : CopyTimes}
    {prepared : Prepared} (h : prepareCopy settings store input times = some prepared) :
    let state := currentState store.mirror (utcDate times.readAt)
    blockers settings store times.gatesAt input.request = [] ∧
      (copyAmount settings store state times.readAt
        (tradeAmount settings state (orderStopPct input.request.order))).1 = some prepared.amount ∧
      releaseForCopy settings state prepared.amount input.release = some prepared.state := by
  simp only [prepareCopy, copyLeverage_eq, lt_irrefl, if_false] at h
  split_ifs at h with hpassed
  split at h
  · cases h
  · rename_i amount hamount
    split_ifs at h
    obtain ⟨state, hstate, hprepared⟩ := Option.map_eq_some_iff.mp h
    cases hprepared
    exact ⟨by simpa using hpassed, hamount, hstate⟩

lemma prepareCopy_of_steps {settings : Settings} {store : Store} {input : CopyInput} {times : CopyTimes}
    {amount : ℚ} {released : MirrorState} (hpassed : blockers settings store times.gatesAt input.request = [])
    (hamount : (copyAmount settings store (currentState store.mirror (utcDate times.readAt)) times.readAt
      (tradeAmount settings (currentState store.mirror (utcDate times.readAt))
        (orderStopPct input.request.order))).1 = some amount)
    (hnonzero : amount ≠ 0)
    (hreleased : releaseForCopy settings (currentState store.mirror (utcDate times.readAt)) amount input.release =
      some released) :
    prepareCopy settings store input times = some ⟨released, amount, 1⟩ := by
  rw [prepareCopy, if_neg (not_not.mpr hpassed)]
  simp only [hamount, hnonzero, hreleased, copyLeverage_eq, lt_irrefl, if_false, Option.map_some]

lemma prepareCopy_some {settings : Settings} {store : Store} {input : CopyInput} {times : CopyTimes}
    {prepared : Prepared} (h : prepareCopy settings store input times = some prepared) :
    PreparedFrom settings store input times prepared := by
  obtain ⟨hpassed, hamount, hstate⟩ := prepareCopy_steps h
  obtain ⟨hday, htrades, hequity⟩ := releaseForCopy_frame hstate
  exact
    { passed := hpassed
      day := by rw [hday, currentState_day]
      tradesToday := htrades
      lastEquity := by rw [hequity, currentState_lastEquity]
      amount := copyAmount_some hamount }

section Submit

variable (store : Store) (input : CopyInput) (times : CopyTimes) (prepared : Prepared)

lemma submitCopy_undone (h : input.attempt.undone = true) :
    (submitCopy store input times prepared).mirror = prepared.state ∧
      (submitCopy store input times prepared).stops =
        (undoneCopy store input times prepared).stops := by
  rw [Attempt.undone] at h
  rw [submitCopy]
  cases hresult : input.attempt.result with
  | error failure =>
    rw [hresult] at h
    dsimp only at h ⊢
    rw [if_pos h]
    split_ifs <;> exact ⟨rfl, rfl⟩
  | ok status =>
    rw [hresult] at h
    dsimp only at h ⊢
    rw [if_pos h]
    exact ⟨rfl, rfl⟩

lemma submitCopy_kept (h : input.attempt.undone = false) :
    (submitCopy store input times prepared).mirror.tradesToday = prepared.state.tradesToday + 1 ∧
      (submitCopy store input times prepared).mirror.day = prepared.state.day ∧
      (submitCopy store input times prepared).mirror.lastEquity = prepared.state.lastEquity ∧
      (submitCopy store input times prepared).stops =
        (savedCopy store input times prepared).stops := by
  rw [Attempt.undone] at h
  rw [submitCopy]
  cases hresult : input.attempt.result with
  | error failure =>
    rw [hresult] at h
    dsimp only at h ⊢
    rw [h, if_neg Bool.false_ne_true]
    split_ifs <;> exact ⟨rfl, rfl, rfl, rfl⟩
  | ok status =>
    rw [hresult] at h
    dsimp only at h ⊢
    rw [h, if_neg Bool.false_ne_true]
    split_ifs <;> exact ⟨rfl, rfl, rfl, rfl⟩

lemma submitCopy_lastEquity :
    (submitCopy store input times prepared).mirror.lastEquity = prepared.state.lastEquity := by
  cases h : input.attempt.undone with
  | true => rw [(submitCopy_undone store input times prepared h).1]
  | false => exact (submitCopy_kept store input times prepared h).2.2.1

end Submit

structure AccountReads where
  credit : Option ℚ
  raw : List Position
  portfolio : List Position
  portfolioEquity : ℚ := 0

structure ReconcileInput where
  clientUsable : Bool := true
  reads : Except Failure AccountReads
  closeAnswer : ℕ → Attempt := fun _ => .posted (.accepted (some 1))

def accountValueAtCost (reads : AccountReads) : ℚ :=
  match reads.credit with
  | none => reads.portfolioEquity
  | some credit =>
      Rounding.toDigits 2 (credit + (reads.raw.map fun lot => lot.amount.getD 0).sum)

def nameOf (spyId : Option ℕ) (portfolio : List Position) (positionId : ℕ) : Option String :=
  ((portfolio.reverse.find? (·.positionId = positionId)).map (positionSymbol spyId)).filter (· ≠ "")

def addLot (row : NotionalRow) (lot : Position) : NotionalRow :=
  let leverage := (lot.leverage.filter (· ≠ 0)).getD 1
  let costed : NotionalRow :=
    match positive lot.amount with
    | none => { row with unreadable := true }
    | some amount =>
        if leverage < 1 then { row with unreadable := true }
        else { row with costUsd := some (Rounding.toDigits 2 (row.costUsd.getD 0 + amount * leverage)) }
  match positive lot.units with
  | none => costed
  | some units => { costed with units := some (row.units.getD 0 + units) }

def idText (instrumentId : ℕ) : String := if instrumentId = 0 then "" else toString instrumentId

def openNotional (raw : List Position) (name : ℕ → Option String) : Records.Dict String NotionalRow :=
  raw.foldl (fun rows lot =>
    let key := ((name lot.positionId).getD (idText lot.instrumentId)).toUpper
    rows.insert key (addLot ((rows.lookup key).getD {}) lot)) ∅

section Reconcile

variable (settings : Settings) (store : Store) (input : ReconcileInput) (now : Timestamp)

def reconciledState (reads : AccountReads) : MirrorState :=
  let state := currentState store.mirror (utcDate now)
  let equity := accountValueAtCost reads
  let spyId := reserveInstrumentId settings store
  { state with
    dayStartEquity := (state.dayStartEquity.filter (0 < ·)).or (some equity)
    lastEquity := some equity
    lastCash := (reads.credit.map (Rounding.toDigits 2)).or state.lastCash
    openSymbols := (reads.portfolio.map (positionSymbol spyId)).dedup
    openNotional := openNotional reads.raw (nameOf spyId reads.portfolio) }

def unprotected (reads : AccountReads) : List Position :=
  reads.raw.filter fun lot =>
    !lot.hasStop &&
      match nameOf (reserveInstrumentId settings store) reads.portfolio lot.positionId with
      | none => false
      | some name => !isReserveSymbol settings name

def reconcile : Store :=
  if !settings.mirrorEnabled || !input.clientUsable then store
  else
    match input.reads with
    | .error failure =>
        if failure.isRateLimit then store
        else
          let failures := store.reconcileFailures + 1
          { store with
            reconcileFailures := failures
            halted := store.halted || reconcileFailuresToHalt ≤ failures }
    | .ok reads =>
        let closeFails := (unprotected settings store reads).any fun lot =>
          !(input.closeAnswer lot.positionId).answered
        { store with
          mirror := reconciledState settings store now reads
          reconcileFailures := 0
          halted := store.halted || closeFails }

end Reconcile

end AlgoTrader.Broker.Etoro
