import AlgoTrader.Lib.Runs
import AlgoTrader.Risk.Guardrails
import Mathlib.Algebra.Order.Floor.Ring
import Mathlib.Data.List.Dedup
import Mathlib.Data.Rat.Floor
import Mathlib.Data.String.Basic

/-! The paper-only entries of the auto-propose passes (``app/workflow/paper_only.py``, rules 2 to 6) and the
paper account they enter. -/

namespace AlgoTrader.Workflow.PaperOnly

open AlgoTrader.Risk

def leaveForEtoro : ℤ := 2
def leaveInGroup : ℤ := 1
def maxOpenPaperOnly : ℕ := 5
def maxPerPass : ℕ := 1
def bookRows : ℕ := 500
def bucketRows : ℕ := 200
def unknownBucket : String := "unclassified"

inductive RowStatus
  | submitted
  | partiallyFilled
  | accepted
  | new
  | pendingNew
  | filled
  | canceled
  | failed
  | blocked
  deriving DecidableEq

def RowStatus.unfilled (status : RowStatus) : Bool :=
  status = .submitted || status = .partiallyFilled || status = .accepted || status = .new || status = .pendingNew

def RowStatus.isEntry (status : RowStatus) : Bool := status.unfilled || status = .filled

/-- ``live`` is the broker's: the order may fill still. -/
structure ExecutionRow where
  symbol : String
  paperOnly : Bool
  status : RowStatus
  day : ℤ
  live : Bool
  deriving DecidableEq

/-- ``paperOnly`` tells a position a paper-only order has filled into. -/
structure Position where
  symbol : String
  paperOnly : Bool
  deriving DecidableEq

/-- The paper account: its execution rows, newest first, and the broker's positions. -/
structure Account where
  today : ℤ := 0
  rows : List ExecutionRow := []
  positions : List Position := []

structure PassSettings where
  maxTradesPerDay : ℤ := 6
  maxDailyEntriesPerCorrelationBucket : ℤ := 2
  maxOpenPositions : ℤ := 12
  risk : RiskSettings := {}
  bucketOf : String → String := fun _ => unknownBucket

inductive Blocker
  | passLimit
  | cadenceBudgetSpent
  | etoroLiveStateUnreadable
  | etoroLiveSymbolHeld
  | paperBookUnreadable
  | headroomTradesPerDay
  | headroomCorrelationBucket
  | paperSymbolHeld
  | positionsCap
  | headroomOpenPositions
  | headroomPortfolioHeat
  | notAutomatic
  deriving DecidableEq

def strip (text : List Char) : List Char :=
  ((text.dropWhile Char.isWhitespace).reverse.dropWhile Char.isWhitespace).reverse

def bare (symbol : String) : String := String.ofList ((strip symbol.toUpper.toList).filter (· ≠ '/'))

structure Book where
  trades : ℕ
  byBucket : String → ℕ
  openPositions : ℕ
  held : List String
  unfilled : List String
  paperOnly : List String

section Book

variable (s : PassSettings) (a : Account)

def countSince : ℕ := a.rows.countP fun row => a.today ≤ row.day

def entriesTodayByBucket (bucket : String) : ℕ :=
  (a.rows.take bucketRows).countP fun row =>
    a.today ≤ row.day ∧ row.status.isEntry ∧ row.symbol ≠ "" ∧ s.bucketOf row.symbol.toUpper = bucket

-- A self-simulated account's context shows no positions.
def contextPositions : List Position := if s.risk.simulatesItself then [] else a.positions

def latest (symbol : String) : Option ExecutionRow :=
  (a.rows.take bookRows).find? fun row => bare row.symbol = symbol && row.status.isEntry

def heldSymbols : List String :=
  (((contextPositions s a).filter fun position => position.symbol ≠ "").map fun position => bare position.symbol).dedup

def unfilledSymbols : List String :=
  (((a.rows.take bookRows).map fun row => bare row.symbol).dedup).filter fun symbol =>
    symbol ≠ "" ∧ symbol ∉ heldSymbols s a ∧
      (latest a symbol).any fun row => row.status.unfilled ∧ a.today ≤ row.day

def paperBook : Book :=
  { trades := countSince a
    byBucket := entriesTodayByBucket s a
    openPositions := (contextPositions s a).length
    held := heldSymbols s a
    unfilled := unfilledSymbols s a
    paperOnly := (heldSymbols s a ++ unfilledSymbols s a).filter fun symbol =>
      (latest a symbol).all fun row => row.paperOnly }

end Book

section Headroom

variable (s : PassSettings) (book : Book)

def headroom (symbol : String) : Option Blocker :=
  if s.maxTradesPerDay < book.trades + 1 + leaveForEtoro then some .headroomTradesPerDay
  else
    let cap := s.maxDailyEntriesPerCorrelationBucket
    let bucket := s.bucketOf symbol
    if 0 < cap ∧ bucket ≠ unknownBucket ∧ cap < book.byBucket bucket + 1 + leaveInGroup then
      some .headroomCorrelationBucket
    else none

def bookHeadroom (symbol : String) : Option Blocker :=
  if symbol ∈ book.held ∨ symbol ∈ book.unfilled then some .paperSymbolHeld
  else if maxOpenPaperOnly ≤ book.paperOnly.length then some .positionsCap
  else
    let after : ℤ := book.openPositions + book.unfilled.length + 1 + leaveForEtoro
    let perTradePct := effectiveMaxRiskPerTradePct s.risk s.risk.isLive
    if s.maxOpenPositions < after then some .headroomOpenPositions
    else if 0 < s.risk.portfolioMaxHeatPct ∧ 0 < perTradePct ∧
        ⌊s.risk.portfolioMaxHeatPct / perTradePct + 1 / 10 ^ 9⌋ < after then
      some .headroomPortfolioHeat
    else none

end Headroom

-- What the broker answers to a submission.
inductive Outcome
  | refused
  | working (status : RowStatus)
  | filled
  deriving DecidableEq

-- How the coordinator settles a submission that raised, also after the broker had answered it.
inductive Settled
  | failed
  | simulated
  deriving DecidableEq

/-- The execution of a proposal: ``outcome`` leaves a row, and so does ``raised``. An order the broker knew
already, or a proposal blocked before the submission, leaves none. -/
structure Entry where
  outcome : Option Outcome := none
  raised : Option Settled := none
  deriving DecidableEq

/-- A candidate a pass considers, with what each read and each step meets: ``etoroHeld`` and ``readable`` what
the reads of the eToro records and of paper's book give, ``admitted`` whether the gates that are not the
pass's own let it through. -/
structure Considered where
  symbol : String
  paperOnly : Bool
  admitted : Bool := true
  dropped : Bool := false
  budgetSpent : Bool := false
  etoroHeld : Option (List String) := some []
  readable : Bool := true
  automatic : Bool := true
  proposed : Bool := true
  deriving DecidableEq

/-- The reads a pass keeps (``none`` inside when one failed), its paper-only proposals and the candidate whose
proposal it executes now. -/
structure Pass where
  held : Option (Option (List String)) := none
  paper : Option (Option Book) := none
  paperOnlyCreated : ℕ := 0
  executing : Option Considered := none

structure State where
  account : Account := {}
  pass : Option Pass := none

def State.executing (st : State) : Option Considered := st.pass.bind Pass.executing

def Pass.readHeld (p : Pass) (c : Considered) : Option (List String) × Pass :=
  let held := p.held.getD c.etoroHeld
  (held, { p with held := some held })

def Pass.readPaper (p : Pass) (s : PassSettings) (a : Account) (c : Considered) : Option Book × Pass :=
  let paper := p.paper.getD (if c.readable then some (paperBook s a) else none)
  (paper, { p with paper := some paper })

def Pass.blockers (p : Pass) (s : PassSettings) (a : Account) (c : Considered) : List Blocker × Pass :=
  let symbol := c.symbol.toUpper
  if ¬ c.paperOnly ∨ c.dropped then ([], p)
  else if maxPerPass ≤ p.paperOnlyCreated then ([.passLimit], p)
  else if c.budgetSpent then ([.cadenceBudgetSpent], p)
  else
    match p.readHeld c with
    | (none, p) => ([.etoroLiveStateUnreadable], p)
    | (some held, p) =>
        if symbol ∈ held then ([.etoroLiveSymbolHeld], p)
        else
          match p.readPaper s a c with
          | (none, p) => ([.paperBookUnreadable], p)
          | (some book, p) =>
              match (headroom s book symbol).or (bookHeadroom s book (bare symbol)) with
              | some reason => ([reason], p)
              | none => (if c.automatic then [] else [.notAutomatic], p)

def Pass.created (p : Pass) (c : Considered) : Pass :=
  { p with
    paper := none
    paperOnlyCreated := if c.paperOnly then p.paperOnlyCreated + 1 else p.paperOnlyCreated }

namespace Account

def addPosition (a : Account) (symbol : String) (paperOnly : Bool) : Account :=
  if a.positions.any fun position => bare position.symbol = bare symbol then
    { a with
      positions := a.positions.map fun position =>
        if bare position.symbol = bare symbol then { position with paperOnly := position.paperOnly || paperOnly }
        else position }
  else { a with positions := ⟨symbol, paperOnly⟩ :: a.positions }

def addRow (a : Account) (symbol : String) (paperOnly : Bool) (status : RowStatus) (live : Bool) : Account :=
  { a with rows := ⟨symbol, paperOnly, status, a.today, live⟩ :: a.rows }

def submit (a : Account) (symbol : String) (paperOnly : Bool) : Outcome → Account
  | .refused => a.addRow symbol paperOnly .failed false
  | .working status => a.addRow symbol paperOnly (if status.unfilled then status else .submitted) true
  | .filled => (a.addRow symbol paperOnly .filled false).addPosition symbol paperOnly

def settle (a : Account) (symbol : String) (paperOnly : Bool) : Settled → Account
  | .failed => a.addRow symbol paperOnly .failed false
  | .simulated => a.addRow symbol paperOnly .submitted false

def enter (a : Account) (symbol : String) (paperOnly : Bool) (entry : Entry) : Account :=
  let a := entry.outcome.elim a (a.submit symbol paperOnly)
  entry.raised.elim a (a.settle symbol paperOnly)

def setRow (a : Account) (index : ℕ) (f : ExecutionRow → ExecutionRow) : Account :=
  { a with rows := a.rows.modify index f }

def fill (a : Account) (index : ℕ) (live : Bool) : Account :=
  match a.rows[index]? with
  | none => a
  | some row =>
      if row.live then (a.setRow index fun row => { row with live := live }).addPosition row.symbol row.paperOnly
      else a

def cancel (a : Account) (index : ℕ) : Account := a.setRow index fun row => { row with live := false }

/-- Reconciliation copies the broker's status to a row; a working order's is one of the unfilled. -/
def record (a : Account) (index : ℕ) (status : RowStatus) : Account :=
  a.setRow index fun row =>
    if row.status.unfilled ∧ (row.live → status.unfilled) then { row with status := status } else row

def close (a : Account) (symbol : String) : Account :=
  { a with positions := a.positions.filter fun position => bare position.symbol ≠ bare symbol }

end Account

-- ``enter`` is an entry from outside the pass, of another thread while one is open.
inductive Event
  | startPass
  | consider (c : Considered)
  | execute (entry : Entry)
  | endPass
  | enter (symbol : String) (entry : Entry)
  | fill (index : ℕ) (live : Bool)
  | cancel (index : ℕ)
  | record (index : ℕ) (status : RowStatus)
  | close (symbol : String)
  | nextDay

/-- One candidate of ``auto_propose_candidates``: blocked, dropped, not proposed, or proposed. -/
def consider (s : PassSettings) (p : Pass) (a : Account) (c : Considered) : Pass :=
  if p.executing.isSome ∨ c.symbol = "" ∨ ¬ c.admitted then p
  else
    let (blockers, p) := p.blockers s a c
    if blockers ≠ [] ∨ c.dropped ∨ ¬ c.proposed then p else { p.created c with executing := some c }

def step (s : PassSettings) (st : State) : Event → State
  | .startPass => if st.pass.isNone then { st with pass := some {} } else st
  | .consider c => { st with pass := st.pass.map fun p => consider s p st.account c }
  | .execute entry =>
      st.executing.elim st fun c =>
        ⟨st.account.enter c.symbol c.paperOnly entry, st.pass.map fun p => { p with executing := none }⟩
  | .endPass => { st with pass := none }
  | .enter symbol entry => { st with account := st.account.enter symbol false entry }
  | .fill index live => { st with account := st.account.fill index live }
  | .cancel index => { st with account := st.account.cancel index }
  | .record index status => { st with account := st.account.record index status }
  | .close symbol => { st with account := st.account.close symbol }
  | .nextDay => { st with account := { st.account with today := st.account.today + 1 } }

end AlgoTrader.Workflow.PaperOnly
