import AlgoTrader.Lib.Records
import AlgoTrader.Utils.Time
import Mathlib.Data.Rat.Defs

/-! The records the live eToro mirror keeps in the runtime state, and the portfolio rows it reads.
A record is stored as JSON; numbers are finite decimals. Fields nothing here reads are left out. -/

namespace AlgoTrader.Broker.Etoro

open AlgoTrader.Utils.Time

/-- A row of eToro's portfolio. ``symbol`` is the name the client resolves, or the raw id. -/
structure Position where
  positionId : ℕ
  instrumentId : ℕ
  symbol : String
  amount : Option ℚ := none
  leverage : Option ℚ := none
  units : Option ℚ := none
  hasStop : Bool := true
  -- The mirrored copy this lot came from, by its number; eToro does not report it.
  copy : Option ℕ := none
  deriving DecidableEq

/-- ``malformed`` is an answer that ``portfolio_positions`` does not accept. -/
inductive PortfolioRead
  | failed
  | malformed
  | positions (lots : List Position)
  deriving DecidableEq

def PortfolioRead.usable (clientUsable : Bool) : PortfolioRead → Option (List Position)
  | .positions lots => if clientUsable then some lots else none
  | _ => none

structure NotionalRow where
  costUsd : Option ℚ := none
  units : Option ℚ := none
  unreadable : Bool := false
  deriving DecidableEq

/-- ``etoro_live:state``, with the defaults ``_state`` fills in. -/
structure MirrorState where
  day : Option ℤ := none
  tradesToday : ℕ := 0
  dayStartEquity : Option ℚ := none
  lastEquity : Option ℚ := none
  lastCash : Option ℚ := none
  openSymbols : List String := []
  openNotional : Records.Dict String NotionalRow := ∅
  successful1x : ℕ := 0
  leverage2xDone : Bool := false

inductive CardStatus
  | pendingFill
  | opened
  | notFilled
  | closed
  deriving DecidableEq, Repr

structure Card where
  symbol : String
  status : CardStatus := .pendingFill
  openedAt : Timestamp
  amountUsd : Option ℚ := none
  notionalUsd : Option ℚ := none
  units : Option ℚ := none
  instrumentId : Option ℕ := none
  positionIds : List ℕ := []

structure StopInfo where
  stop : ℚ
  instrumentId : Option ℕ := none
  recordedAt : Timestamp
  seen : Bool := false
  deriving DecidableEq

structure Mark where
  rate : ℚ
  seenAt : Timestamp
  deriving DecidableEq

/-- ``etoro_live:test_order``, as far as symbols are looked up in it. -/
structure TestOrder where
  symbol : String
  instrumentId : ℕ

structure Store where
  mirror : MirrorState := {}
  halted : Bool := false
  reconcileFailures : ℕ := 0
  scorecard : Records.Dict String Card := ∅
  stops : Records.Dict String StopInfo := ∅
  marks : Records.Dict String Mark := ∅
  testOrder : Option TestOrder := none
  reserveInstrumentId : Option ℕ := none

/-- A missing id and the id 0 are both falsy. -/
def truthyId : Option ℕ → Option ℕ
  | some 0 => none
  | id => id

def positive (value : Option ℚ) : Option ℚ := value.filter (0 < ·)

end AlgoTrader.Broker.Etoro
