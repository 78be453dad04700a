import AlgoTrader.Lib.Runs
import AlgoTrader.Lib.Table
import AlgoTrader.Utils.Time
import Mathlib.Data.List.Sort
import Mathlib.Data.Rat.Floor

/-! The end-of-day exit of intraday positions (``app/automation/intraday_exit.py``) and the max-hold exit
(``app/automation/max_hold_exit.py``), over the execution rows they read. -/

namespace AlgoTrader.Automation.TimedExits

open AlgoTrader.Utils.Time

structure Leg where
  brokerOrderId : String
  status : String
deriving DecidableEq

/-- An execution row as synced. ``maxHoldBars`` is what ``int`` makes of the signal's value. ``exited`` is
no column: the broker no longer holds shares of this entry. -/
structure Execution where
  id : String
  symbol : String
  timeframe : String
  filledQty : ℚ
  realizedPnlUsd : ℚ := 0
  legs : List Leg := []
  createdAt : Timestamp
  filledAt : Option Timestamp := none
  maxHoldBars : Option ℤ := none
  exited : Bool := false
deriving DecidableEq

def intradayTimeframes : List String := ["1m", "2m", "3m", "5m", "10m", "15m", "30m", "1h"]

def maxHoldTimeframes : List String := ["1d"]

def openLegStatuses : List String := ["new", "held", "accepted", "pending_new", "partially_filled"]

def Execution.ticker (e : Execution) : String := e.symbol.toUpper

def Execution.intraday (e : Execution) : Bool := intradayTimeframes.contains e.timeframe.toLower

-- Neither a realised result nor a filled leg says that the entry was closed.
def Execution.unmarked (e : Execution) : Bool :=
  e.realizedPnlUsd = 0 && !e.legs.any fun leg => leg.status.toLower = "filled"

def Execution.looksOpen (e : Execution) : Bool := e.ticker ≠ "" && decide (0 < e.filledQty) && e.unmarked

def listLimit : ℕ := 200

def listed (executions : List Execution) : List Execution :=
  (executions.insertionSort fun a b => b.createdAt ≤ a.createdAt).take listLimit

def noteNewest (found : List Execution) (e : Execution) : List Execution :=
  match Table.find Execution.ticker found e.ticker with
  | none => found ++ [e]
  | some held => if held.createdAt < e.createdAt then Table.replace Execution.ticker found e else found

def newestBySymbol (wanted : Execution → Bool) (executions : List Execution) : List Execution :=
  ((listed executions).filter fun e => wanted e && e.looksOpen).foldl noteNewest []

def openIntradayExecutions (executions : List Execution) : List Execution :=
  newestBySymbol Execution.intraday executions

def openEntries (executions : List Execution) : List Execution := newestBySymbol (fun _ => true) executions

structure Clock where
  isOpen : Bool
  nextClose : Option Timestamp
deriving DecidableEq

/-- What a tick finds. ``connected``: there is a reconciliation service with an Alpaca client that can
close. A clock or a portfolio that cannot be read is ``none``. -/
structure Tick where
  intradayFlattenMinutes : ℚ := 10
  paperMaxHoldExitEnabled : Bool := true
  executionMode : String := "paper"
  enableRealTrading : Bool := false
  connected : Bool := true
  now : Timestamp
  clock : Option Clock
  positions : Option (List String)
deriving DecidableEq

def Tick.held (tick : Tick) : List String := (tick.positions.getD []).map String.toUpper

def Tick.paper (tick : Tick) : Bool := tick.connected && tick.executionMode = "paper" && !tick.enableRealTrading

def minutesToClose (tick : Tick) : Option ℚ :=
  tick.clock.bind fun clock =>
    if clock.isOpen then clock.nextClose.map fun next => ((next - tick.now : ℤ) : ℚ) / microsPerMinute else none

inductive CloseAnswer where
  | accepted
  | qtyHeld
  | failed
deriving DecidableEq

structure Answers where
  cancelFails : String → Bool := fun _ => false
  close : String → CloseAnswer := fun _ => .accepted

inductive BrokerCall where
  | cancelOrder (brokerOrderId : String)
  | closePosition (symbol : String)
deriving DecidableEq

structure Pass where
  calls : List BrokerCall := []
  closed : Option (List String) := some []
deriving DecidableEq

def cancelLegs (answers : Answers) : List Leg → List BrokerCall × Bool
  | [] => ([], true)
  | leg :: rest =>
      if answers.cancelFails leg.brokerOrderId then ([.cancelOrder leg.brokerOrderId], false)
      else
        let later := cancelLegs answers rest
        (.cancelOrder leg.brokerOrderId :: later.1, later.2)

def closeAll (answers : Answers) : List Execution → Pass
  | [] => {}
  | e :: rest =>
      let cancelled := cancelLegs answers (e.legs.filter fun leg => openLegStatuses.contains leg.status.toLower)
      if cancelled.2 then
        let later := closeAll answers rest
        { calls := cancelled.1 ++ .closePosition e.ticker :: later.calls
          closed := later.closed.map fun symbols =>
            if answers.close e.ticker = .failed then symbols else e.ticker :: symbols }
      else { calls := cancelled.1, closed := none }

def flattenIntradayBeforeClose (tick : Tick) (answers : Answers) (executions : List Execution) : Pass :=
  if 0 < tick.intradayFlattenMinutes ∧ tick.paper then
    match minutesToClose tick with
    | none => {}
    | some remaining =>
        if tick.intradayFlattenMinutes < remaining then {}
        else closeAll answers ((openIntradayExecutions executions).filter fun e => tick.held.contains e.ticker)
  else {}

def maxHold (e : Execution) : Option ℤ := e.maxHoldBars.filter fun bars => 0 < bars

/-- Days are counted from 1970-01-01, a Thursday; Monday is 0. -/
def weekday (day : ℤ) : ℤ := (day + 3) % 7

def sessionsSince (entryDay today : ℤ) : ℕ :=
  ((List.range (today - entryDay).toNat).filter fun k => decide (weekday (entryDay + 1 + k) < 5)).length

section MaxHold

variable (newYorkDay : Timestamp → ℤ)

def pastMaxHold (now : Timestamp) (e : Execution) : Bool :=
  maxHoldTimeframes.contains e.timeframe.toLower &&
    (maxHold e).any fun hold =>
      decide (hold ≤ (sessionsSince (newYorkDay (e.filledAt.getD e.createdAt)) (newYorkDay now) : ℤ))

def dueEntries (tick : Tick) (executions : List Execution) : List Execution :=
  if tick.paperMaxHoldExitEnabled && tick.paper && tick.clock.any Clock.isOpen then
    (openEntries executions).filter fun e => pastMaxHold newYorkDay tick.now e && tick.held.contains e.ticker
  else []

def closeHeldPastMaxHold (tick : Tick) (answers : Answers) (executions : List Execution) : Pass :=
  closeAll answers (dueEntries newYorkDay tick executions)

end MaxHold

inductive Action where
  | entry (e : Execution)
  | exit (id : String)
  | book (id : String) (filledQty realizedPnlUsd : ℚ) (legs : List Leg)
  | flattenTick (tick : Tick)
  | maxHoldTick (tick : Tick)

def update (id : String) (change : Execution → Execution) (executions : List Execution) : List Execution :=
  executions.map fun e => if e.id = id then change e else e

def step (executions : List Execution) : Action → List Execution
  | .entry e => e :: executions
  | .exit id => update id (fun e => { e with exited := true }) executions
  | .book id filledQty realizedPnlUsd legs =>
      update id (fun e => { e with filledQty := filledQty, realizedPnlUsd := realizedPnlUsd, legs := legs }) executions
  | .flattenTick _ => executions
  | .maxHoldTick _ => executions

section Notes

variable {found rows executions : List Execution} {e : Execution} {wanted : Execution → Bool}

lemma find_none_iff {l : List Execution} {symbol : String} :
    Table.find Execution.ticker l symbol = none ↔ ∀ e ∈ l, e.ticker ≠ symbol := by
  simp [Table.find]

lemma mem_foldl_noteNewest (hsorted : rows.Pairwise fun a b => b.createdAt ≤ a.createdAt)
    (hfound : ∀ old ∈ found, ∀ row ∈ rows, row.createdAt ≤ old.createdAt) :
    e ∈ rows.foldl noteNewest found ↔
      e ∈ found ∨ Table.find Execution.ticker found e.ticker = none ∧ Table.find Execution.ticker rows e.ticker = some e := by
  induction rows generalizing found with
  | nil => simp [Table.find]
  | cons row rest ih =>
    obtain ⟨hrow, hrest⟩ := List.pairwise_cons.mp hsorted
    rw [List.foldl_cons, noteNewest, Table.find_cons]
    cases hold : Table.find Execution.ticker found row.ticker with
    | none =>
      change e ∈ rest.foldl noteNewest (found ++ [row]) ↔ _
      rw [ih hrest, List.mem_append, List.mem_singleton]
      · have hnone : Table.find Execution.ticker (found ++ [row]) e.ticker = none ↔
            Table.find Execution.ticker found e.ticker = none ∧ row.ticker ≠ e.ticker := by
          simp [find_none_iff, or_imp, forall_and]
        rw [hnone]
        by_cases hticker : row.ticker = e.ticker
        · rw [if_pos hticker, Option.some_inj]
          constructor
          · rintro ((hmem | rfl) | ⟨⟨_, hne⟩, _⟩)
            · exact .inl hmem
            · exact .inr ⟨hold, rfl⟩
            · exact absurd hticker hne
          · rintro (hmem | ⟨_, rfl⟩)
            · exact .inl (.inl hmem)
            · exact .inl (.inr rfl)
        · rw [if_neg hticker]
          constructor
          · rintro ((hmem | rfl) | ⟨⟨hfree, _⟩, hlater⟩)
            · exact .inl hmem
            · exact absurd rfl hticker
            · exact .inr ⟨hfree, hlater⟩
          · rintro (hmem | ⟨hfree, hlater⟩)
            · exact .inl (.inl hmem)
            · exact .inr ⟨⟨hfree, hticker⟩, hlater⟩
      · intro old hmem later hlater
        rcases List.mem_append.mp hmem with hmem | hmem
        · exact hfound old hmem later (List.mem_cons_of_mem _ hlater)
        · rw [List.mem_singleton.mp hmem]
          exact hrow later hlater
    | some held =>
      have hle := hfound held (Table.mem_of_find hold) row List.mem_cons_self
      change e ∈ rest.foldl noteNewest (if held.createdAt < row.createdAt then _ else found) ↔ _
      rw [if_neg (not_lt.mpr hle), ih hrest (fun old hmem later hlater => hfound old hmem later (List.mem_cons_of_mem _ hlater))]
      apply or_congr_right
      apply and_congr_right
      intro hfree
      have hne : row.ticker ≠ e.ticker := fun heq => by
        rw [heq, hfree] at hold
        cases hold
      rw [if_neg hne]

lemma listed_sorted : (listed executions).Pairwise fun a b => b.createdAt ≤ a.createdAt := by
  have : Std.Total fun a b : Execution => b.createdAt ≤ a.createdAt := ⟨fun a b => le_total _ _⟩
  have : IsTrans Execution fun a b => b.createdAt ≤ a.createdAt := ⟨fun a b c hab hbc => hbc.trans hab⟩
  exact (List.pairwise_insertionSort _ _).sublist (List.take_sublist _ _)

lemma mem_newestBySymbol : e ∈ newestBySymbol wanted executions ↔
    Table.find Execution.ticker ((listed executions).filter fun e => wanted e && e.looksOpen) e.ticker = some e := by
  rw [newestBySymbol, mem_foldl_noteNewest (listed_sorted.sublist List.filter_sublist)]
  · simp [Table.find]
  · intro old hmem
    cases hmem

lemma exists_newestBySymbol {symbol : String} :
    (∃ e ∈ newestBySymbol wanted executions, e.ticker = symbol) ↔
      ∃ e ∈ listed executions, wanted e ∧ e.looksOpen ∧ e.ticker = symbol := by
  constructor
  · rintro ⟨e, hmem, rfl⟩
    have hrow := Table.mem_of_find (mem_newestBySymbol.mp hmem)
    obtain ⟨hlisted, hcond⟩ := List.mem_filter.mp hrow
    obtain ⟨hwanted, hopen⟩ := Bool.and_eq_true_iff.mp hcond
    exact ⟨e, hlisted, hwanted, hopen, rfl⟩
  · rintro ⟨row, hlisted, hwanted, hopen, rfl⟩
    cases hnewest : Table.find Execution.ticker
        ((listed executions).filter fun e => wanted e && e.looksOpen) row.ticker with
    | none =>
      have hmem : row ∈ (listed executions).filter fun e => wanted e && e.looksOpen :=
        List.mem_filter.mpr ⟨hlisted, Bool.and_eq_true_iff.mpr ⟨hwanted, hopen⟩⟩
      exact absurd rfl (find_none_iff.mp hnewest row hmem)
    | some e =>
      have hticker := Table.key_of_find hnewest
      exact ⟨e, mem_newestBySymbol.mpr (hticker ▸ hnewest), hticker⟩

end Notes

section Closing

variable {answers : Answers} {rows : List Execution} {symbol : String}

lemma closePosition_not_mem_cancelLegs (legs : List Leg) :
    BrokerCall.closePosition symbol ∉ (cancelLegs answers legs).1 := by
  induction legs with
  | nil => simp [cancelLegs]
  | cons leg rest ih =>
    rw [cancelLegs]
    split_ifs <;> simp [ih]

lemma closes_of_closeAll (h : .closePosition symbol ∈ (closeAll answers rows).calls) :
    ∃ e ∈ rows, e.ticker = symbol := by
  induction rows with
  | nil => cases h
  | cons e rest ih =>
    rw [closeAll] at h
    by_cases hcancelled :
        (cancelLegs answers (e.legs.filter fun leg => openLegStatuses.contains leg.status.toLower)).2 = true
    · rw [if_pos hcancelled] at h
      rcases List.mem_append.mp h with hcancel | hclose
      · exact absurd hcancel (closePosition_not_mem_cancelLegs _)
      · rcases List.mem_cons.mp hclose with heq | hlater
        · cases heq
          exact ⟨e, List.mem_cons_self, rfl⟩
        · obtain ⟨row, hrow, hticker⟩ := ih hlater
          exact ⟨row, List.mem_cons_of_mem _ hrow, hticker⟩
    · rw [if_neg hcancelled] at h
      exact absurd h (closePosition_not_mem_cancelLegs _)

lemma cancelLegs_all (legs : List Leg) : (cancelLegs {} legs).2 = true := by
  induction legs with
  | nil => rfl
  | cons leg rest ih => exact ih

lemma closes_closeAll {e : Execution} (h : e ∈ rows) : .closePosition e.ticker ∈ (closeAll {} rows).calls := by
  induction rows with
  | nil => cases h
  | cons first rest ih =>
    rw [closeAll, if_pos (cancelLegs_all _)]
    apply List.mem_append_right
    rcases List.mem_cons.mp h with rfl | hrest
    · exact List.mem_cons_self
    · exact List.mem_cons_of_mem _ (ih hrest)

end Closing

section Sparing

variable {newYorkDay : Timestamp → ℤ} {tick : Tick} {executions : List Execution} {symbol : String}

def dailyOrLonger : List String := ["1d", "1w"]

def Execution.Swing (e : Execution) : Prop := e.timeframe.toLower ∈ dailyOrLonger

instance (e : Execution) : Decidable e.Swing := inferInstanceAs (Decidable (_ ∈ _))

/-- The broker holds shares of the entry: it was filled and not exited since. -/
def Execution.StillOpen (e : Execution) : Prop := 0 < e.filledQty ∧ e.exited = false

instance (e : Execution) : Decidable e.StillOpen := inferInstanceAs (Decidable (_ ∧ _))

def NewestStillOpen (executions : List Execution) (symbol : String) (e : Execution) : Prop :=
  e ∈ executions ∧ e.ticker = symbol ∧ e.StillOpen ∧
    ∀ other ∈ executions, other.ticker = symbol → other.StillOpen → other.createdAt ≤ e.createdAt

/-- However the broker answers, no position is asked closed whose newest still-open entry is a swing. -/
def SparesSwings (tick : Tick) (executions : List Execution) : Prop :=
  ∀ answers symbol, .closePosition symbol ∈ (flattenIntradayBeforeClose tick answers executions).calls →
    ∀ e, NewestStillOpen executions symbol e → ¬ e.Swing

def AgesOpenEntries (newYorkDay : Timestamp → ℤ) (tick : Tick) (executions : List Execution) : Prop :=
  ∀ e ∈ dueEntries newYorkDay tick executions, e.exited = false

def FlattensNow (tick : Tick) : Prop :=
  0 < tick.intradayFlattenMinutes ∧ tick.paper ∧ ∃ remaining, minutesToClose tick = some remaining ∧
    remaining ≤ tick.intradayFlattenMinutes

/-- Beneath a swing entry that is the newest still open, an exit has left its mark on every listed
intraday fill of the symbol. -/
def IntradayFillsMarked (tick : Tick) (executions : List Execution) : Prop :=
  FlattensNow tick → ∀ symbol ∈ tick.held, symbol ≠ "" →
    ∀ e, NewestStillOpen executions symbol e → e.Swing →
      ∀ row ∈ listed executions, row.ticker = symbol → row.intraday → 0 < row.filledQty → row.unmarked = false

/-- The newest listed fill of a held symbol without a mark, where it is a daily entry past its hold, is
still open. -/
def NewestUnmarkedOpen (newYorkDay : Timestamp → ℤ) (tick : Tick) (executions : List Execution) : Prop :=
  tick.paperMaxHoldExitEnabled → tick.paper → tick.clock.any Clock.isOpen → ∀ symbol ∈ tick.held, ∀ e,
    Table.find Execution.ticker ((listed executions).filter Execution.looksOpen) symbol = some e →
      pastMaxHold newYorkDay tick.now e → e.exited = false

def Spares (newYorkDay : Timestamp → ℤ) (executions : List Execution) : Action → Prop
  | .flattenTick tick => SparesSwings tick executions
  | .maxHoldTick tick => AgesOpenEntries newYorkDay tick executions
  | _ => True

def ExitsMarked (newYorkDay : Timestamp → ℤ) (executions : List Execution) : Action → Prop
  | .flattenTick tick => IntradayFillsMarked tick executions
  | .maxHoldTick tick => NewestUnmarkedOpen newYorkDay tick executions
  | _ => True

lemma flatten_eq (answers : Answers) (h : FlattensNow tick) :
    flattenIntradayBeforeClose tick answers executions =
      closeAll answers ((openIntradayExecutions executions).filter fun e => tick.held.contains e.ticker) := by
  obtain ⟨hminutes, hpaper, remaining, hremaining, hle⟩ := h
  rw [flattenIntradayBeforeClose, if_pos ⟨hminutes, hpaper⟩, hremaining]
  exact if_neg (not_lt.mpr hle)

lemma flattensNow_of_call {answers : Answers} {call : BrokerCall}
    (h : call ∈ (flattenIntradayBeforeClose tick answers executions).calls) : FlattensNow tick := by
  rw [flattenIntradayBeforeClose] at h
  by_cases hgates : 0 < tick.intradayFlattenMinutes ∧ tick.paper
  · rw [if_pos hgates] at h
    cases hremaining : minutesToClose tick with
    | none =>
      rw [hremaining] at h
      cases h
    | some remaining =>
      rw [hremaining] at h
      by_cases hlate : tick.intradayFlattenMinutes < remaining
      · change call ∈ (if tick.intradayFlattenMinutes < remaining then ({} : Pass) else _).calls at h
        rw [if_pos hlate] at h
        cases h
      · exact ⟨hgates.1, hgates.2, remaining, hremaining, not_lt.mp hlate⟩
  · rw [if_neg hgates] at h
    cases h

lemma looksOpen_iff {e : Execution} :
    e.looksOpen ↔ e.ticker ≠ "" ∧ 0 < e.filledQty ∧ e.unmarked := by
  simp [Execution.looksOpen, and_assoc]

lemma closes_flatten : (∃ answers, .closePosition symbol ∈ (flattenIntradayBeforeClose tick answers executions).calls) ↔
    FlattensNow tick ∧ symbol ∈ tick.held ∧ symbol ≠ "" ∧
      ∃ row ∈ listed executions, row.ticker = symbol ∧ row.intraday ∧ 0 < row.filledQty ∧ row.unmarked := by
  constructor
  · rintro ⟨answers, h⟩
    have hnow := flattensNow_of_call h
    rw [flatten_eq answers hnow] at h
    obtain ⟨e, hmem, rfl⟩ := closes_of_closeAll h
    obtain ⟨hopen, hheld⟩ := List.mem_filter.mp hmem
    obtain ⟨row, hlisted, hintraday, hlooks, hticker⟩ := exists_newestBySymbol.mp ⟨e, hopen, rfl⟩
    obtain ⟨hne, hfilled, hunmarked⟩ := looksOpen_iff.mp hlooks
    exact ⟨hnow, by simpa using hheld, hticker ▸ hne, row, hlisted, hticker, hintraday, hfilled, hunmarked⟩
  · rintro ⟨hnow, hheld, hne, row, hlisted, hticker, hintraday, hfilled, hunmarked⟩
    have hfound : ∃ e ∈ openIntradayExecutions executions, e.ticker = symbol := exists_newestBySymbol.mpr
      ⟨row, hlisted, hintraday, looksOpen_iff.mpr ⟨hticker ▸ hne, hfilled, hunmarked⟩, hticker⟩
    obtain ⟨e, hopen, rfl⟩ := hfound
    refine ⟨{}, ?_⟩
    rw [flatten_eq _ hnow]
    exact closes_closeAll (List.mem_filter.mpr ⟨hopen, by simpa using hheld⟩)

lemma sparesSwings_iff : SparesSwings tick executions ↔ IntradayFillsMarked tick executions := by
  constructor
  · intro h hnow symbol hheld hne e hnewest hswing row hlisted hticker hintraday hfilled
    by_contra hunmarked
    obtain ⟨answers, hcall⟩ := closes_flatten.mpr
      ⟨hnow, hheld, hne, row, hlisted, hticker, hintraday, hfilled, Bool.not_eq_false _ ▸ hunmarked⟩
    exact h answers symbol hcall e hnewest hswing
  · intro h answers symbol hcall e hnewest hswing
    obtain ⟨hnow, hheld, hne, row, hlisted, hticker, hintraday, hfilled, hunmarked⟩ :=
      closes_flatten.mp ⟨answers, hcall⟩
    have hmarked := h hnow symbol hheld hne e hnewest hswing row hlisted hticker hintraday hfilled
    exact Bool.false_ne_true (hmarked.symm.trans hunmarked)

lemma mem_dueEntries {e : Execution} : e ∈ dueEntries newYorkDay tick executions ↔
    tick.paperMaxHoldExitEnabled ∧ tick.paper ∧ tick.clock.any Clock.isOpen ∧ e.ticker ∈ tick.held ∧
      Table.find Execution.ticker ((listed executions).filter Execution.looksOpen) e.ticker = some e ∧
        pastMaxHold newYorkDay tick.now e := by
  rw [dueEntries]
  by_cases hgates : tick.paperMaxHoldExitEnabled && tick.paper && tick.clock.any Clock.isOpen
  · rw [if_pos hgates, List.mem_filter, openEntries, mem_newestBySymbol]
    simp only [Bool.true_and, Bool.and_eq_true, List.contains_iff_mem] at hgates ⊢
    tauto
  · rw [if_neg hgates]
    simp only [Bool.and_eq_true] at hgates
    constructor
    · intro h
      cases h
    · rintro ⟨henabled, hpaper, hclock, _⟩
      exact absurd ⟨⟨henabled, hpaper⟩, hclock⟩ hgates

lemma agesOpenEntries_iff :
    AgesOpenEntries newYorkDay tick executions ↔ NewestUnmarkedOpen newYorkDay tick executions := by
  constructor
  · intro h henabled hpaper hclock symbol hheld e hnewest hpast
    obtain rfl := Table.key_of_find hnewest
    exact h e (mem_dueEntries.mpr ⟨henabled, hpaper, hclock, hheld, hnewest, hpast⟩)
  · intro h e hdue
    obtain ⟨henabled, hpaper, hclock, hheld, hnewest, hpast⟩ := mem_dueEntries.mp hdue
    exact h henabled hpaper hclock e.ticker hheld e hnewest hpast

lemma spares_step_iff (executions : List Execution) (action : Action) :
    Spares newYorkDay executions action ↔ ExitsMarked newYorkDay executions action := by
  cases action with
  | flattenTick tick => exact sparesSwings_iff
  | maxHoldTick tick => exact agesOpenEntries_iff
  | entry e => exact Iff.rfl
  | exit id => exact Iff.rfl
  | book id filledQty realizedPnlUsd legs => exact Iff.rfl

/-- Over a history the flatten spares every swing position and the max-hold exit ages by open entries
only, exactly when at each of their ticks the exits made before have left their marks. -/
theorem spares_iff (newYorkDay : Timestamp → ℤ) (executions : List Execution) (history : List Action) :
    Runs.Allowed step (Spares newYorkDay) executions history ↔
      Runs.Allowed step (ExitsMarked newYorkDay) executions history := Runs.allowed_congr spares_step_iff

def Settled (executions : List Execution) : Prop :=
  ∀ e ∈ executions, e.exited → 0 < e.filledQty → e.unmarked = false

def Unlayered (executions : List Execution) : Prop :=
  ∀ symbol e, NewestStillOpen executions symbol e → e.Swing →
    ∀ row ∈ executions, row.ticker = symbol → row.intraday → ¬ row.StillOpen

def MarksExits (executions : List Execution) : Action → Prop
  | .entry e => e.exited → 0 < e.filledQty → e.unmarked = false
  | .exit id => ∀ e ∈ executions, e.id = id → 0 < e.filledQty → e.unmarked = false
  | .book id filledQty realizedPnlUsd legs => ∀ e ∈ executions, e.id = id → e.exited → 0 < filledQty →
      realizedPnlUsd ≠ 0 ∨ ∃ leg ∈ legs, leg.status.toLower = "filled"
  | .flattenTick _ => Unlayered executions
  | .maxHoldTick _ => True

lemma unmarked_eq_false {e : Execution}
    (h : e.realizedPnlUsd ≠ 0 ∨ ∃ leg ∈ e.legs, leg.status.toLower = "filled") : e.unmarked = false := by
  rw [Execution.unmarked, Bool.and_eq_false_iff]
  rcases h with hpnl | hleg
  · exact .inl (decide_eq_false hpnl)
  · exact .inr (by simpa using hleg)

lemma settled_step {action : Action} (hsettled : Settled executions) (h : MarksExits executions action) :
    Settled (step executions action) := by
  intro e hmem hexited hfilled
  cases action with
  | entry new =>
    rcases List.mem_cons.mp hmem with rfl | hold
    · exact h hexited hfilled
    · exact hsettled e hold hexited hfilled
  | exit id =>
    obtain ⟨old, hold, rfl⟩ := List.mem_map.mp hmem
    by_cases hid : old.id = id
    · rw [if_pos hid] at hfilled ⊢
      exact h old hold hid hfilled
    · rw [if_neg hid] at hexited hfilled ⊢
      exact hsettled old hold hexited hfilled
  | book id filledQty realizedPnlUsd legs =>
    obtain ⟨old, hold, rfl⟩ := List.mem_map.mp hmem
    by_cases hid : old.id = id
    · rw [if_pos hid] at hexited hfilled ⊢
      exact unmarked_eq_false (h old hold hid hexited hfilled)
    · rw [if_neg hid] at hexited hfilled ⊢
      exact hsettled old hold hexited hfilled
  | flattenTick tick => exact hsettled e hmem hexited hfilled
  | maxHoldTick tick => exact hsettled e hmem hexited hfilled

lemma mem_of_listed {e : Execution} (h : e ∈ listed executions) : e ∈ executions :=
  (List.mem_insertionSort _).mp (List.mem_of_mem_take h)

lemma Settled.exitsMarked {action : Action} (hsettled : Settled executions) (h : MarksExits executions action) :
    ExitsMarked newYorkDay executions action := by
  cases action with
  | flattenTick tick =>
    intro _ symbol _ _ e hnewest hswing row hlisted hticker hintraday hfilled
    have hmem := mem_of_listed hlisted
    have hexited : row.exited := by
      by_contra hopen
      exact h symbol e hnewest hswing row hmem hticker hintraday ⟨hfilled, Bool.eq_false_iff.mpr hopen⟩
    exact hsettled row hmem hexited hfilled
  | maxHoldTick tick =>
    intro _ _ _ symbol _ e hnewest _
    obtain ⟨hlisted, hlooks⟩ := List.mem_filter.mp (Table.mem_of_find hnewest)
    obtain ⟨_, hfilled, hunmarked⟩ := looksOpen_iff.mp hlooks
    by_contra hexited
    have hmarked := hsettled e (mem_of_listed hlisted) (Bool.not_eq_false _ ▸ hexited) hfilled
    exact Bool.false_ne_true (hmarked.symm.trans hunmarked)
  | entry e => trivial
  | exit id => trivial
  | book id filledQty realizedPnlUsd legs => trivial

/-- A history whose exits are booked with a result or a filled leg, and whose swing entries are never
layered over open intraday ones, is spared throughout. -/
theorem spares_of_marked (history : List Action) (hmarks : Runs.Allowed step MarksExits [] history) :
    Runs.Allowed step (Spares newYorkDay) [] history := by
  apply Runs.allowed_of_invariant (I := Settled) _ _ _ hmarks
  · intro executions action
    exact settled_step
  · intro executions action hsettled h
    exact (spares_step_iff executions action).mpr (hsettled.exitsMarked h)
  · intro e hmem
    cases hmem

def intradayFill : Execution :=
  { id := "exe_1", symbol := "AAPL", timeframe := "5m", filledQty := 10, createdAt := 0 }

def dailyFill : Execution :=
  { id := "exe_2", symbol := "AAPL", timeframe := "1d", filledQty := 10, createdAt := microsPerDay }

def beforeClose : Tick :=
  { now := microsPerDay + 50 * microsPerMinute
    clock := some ⟨true, some (microsPerDay + 55 * microsPerMinute)⟩
    positions := some ["AAPL"] }

-- A five-minute entry sold at its own price, a daily entry the next day, and the bell.
def breakEven : List Action :=
  [.entry intradayFill, .exit "exe_1", .book "exe_1" 10 0 [], .entry dailyFill, .flattenTick beforeClose]

theorem swing_flattened :
    ¬ Runs.Allowed step (Spares fun time => time / microsPerDay) [] breakEven ∧
      (flattenIntradayBeforeClose beforeClose {} (Runs.run step [] breakEven)).calls =
        [.closePosition "AAPL"] := by
  have hcall : (flattenIntradayBeforeClose beforeClose {} (Runs.run step [] breakEven)).calls =
      [.closePosition "AAPL"] := by decide +kernel
  refine ⟨?_, hcall⟩
  intro hspares
  have hsparesSwing : SparesSwings beforeClose (Runs.run step [] breakEven) := hspares.2.2.2.2.1
  have hnewest : NewestStillOpen (Runs.run step [] breakEven) "AAPL" dailyFill := by
    refine ⟨?_, ?_, ?_, ?_⟩ <;> decide +kernel
  exact hsparesSwing {} "AAPL" (hcall ▸ List.mem_singleton_self _) dailyFill hnewest (by decide +kernel)

end Sparing

end AlgoTrader.Automation.TimedExits
