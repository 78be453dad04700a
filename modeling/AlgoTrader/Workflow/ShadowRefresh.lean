import AlgoTrader.Lib.Runs
import AlgoTrader.Workflow.ShadowLedger
import Mathlib.Data.List.Sort
import Mathlib.Data.Prod.Lex
import Mathlib.Data.String.Basic

/-! The daily run of the shadow forward ledger (``refresh_shadow_ledger`` of
``app/workflow/shadow_ledger.py``): the finished watchlists are added, each symbol with an unfinished entry
is scored again from all its rows, and old rows are dropped. -/

namespace AlgoTrader.Workflow

open Backtesting

def keepDays : ℤ := 60
def firstLookbackDays : ℤ := 10

/-- A value that does not parse is ``none``; a signal bar is a calendar date. -/
structure WatchlistSignal where
  symbol : String
  specKey : String
  signalBar : Option ℤ
  price : Option ℚ
  stop : Option ℚ
  target : Option ℚ

structure Watchlist where
  final : Bool := false
  signals : List WatchlistSignal := []

def Entry.setup (entry : Entry) : Entry :=
  { signalBar := entry.signalBar
    specKey := entry.specKey
    short := entry.short
    stop := entry.stop
    target := entry.target }

/-- ``scored`` tells the entries some run has scored from those only added. -/
structure LedgerEntry where
  signalDate : ℤ
  symbol : String
  entry : Entry
  scored : Bool := false
  deriving DecidableEq

namespace LedgerEntry

def key (e : LedgerEntry) : ℤ × String × String := (e.signalDate, e.symbol, e.entry.specKey)

def sortKey (e : LedgerEntry) : String ×ₗ (ℤ ×ₗ ℤ) :=
  toLex (e.entry.specKey, toLex (e.entry.signalBar, e.signalDate))

def isFinal (e : LedgerEntry) : Bool :=
  e.entry.status = .closed || e.entry.status = .skippedOpen || e.entry.status = .noRisk

def setup (e : LedgerEntry) : LedgerEntry := { e with entry := e.entry.setup, scored := false }

end LedgerEntry

def entryOf (item : WatchlistSignal) (signalDate : ℤ) : Option LedgerEntry :=
  match item.stop, item.target, item.price, item.signalBar with
  | some stop, some target, some price, some signalBar =>
      let symbol := item.symbol.toUpper
      if ¬ (0 < stop ∧ stop < price ∧ price < target) ∨ symbol = "" ∨ item.specKey = "" then none
      else
        some
          { signalDate := signalDate
            symbol := symbol
            entry := { signalBar := signalBar, specKey := item.specKey, stop := stop, target := target } }
  | _, _, _, _ => none

/-- What one run of a day meets. ``bars`` gives the daily bars read for a symbol, ``budget`` how many symbols
are tried before the deadline. -/
structure LedgerRun where
  enabled : Bool := true
  today : ℤ
  afterScan : Bool := true
  watchlist : ℤ → Watchlist
  bars : String → Option (List Row)
  budget : ℕ

/-- The ledger and its state key. ``trades`` are the setups a run ever scored as taken, those of dropped rows
included. -/
structure ShadowLedger where
  entries : List LedgerEntry := []
  ingestedThrough : Option ℤ := none
  doneOn : Option ℤ := none
  scoredDay : Option ℤ := none
  scoredSymbols : List String := []
  trades : List LedgerEntry := []

def addSignal (signalDate : ℤ) (entries : List LedgerEntry) (item : WatchlistSignal) : List LedgerEntry :=
  match entryOf item signalDate with
  | none => entries
  | some entry => if entries.any fun e => e.key = entry.key then entries else entries ++ [entry]

def addDay (watchlist : ℤ → Watchlist) (entries : List LedgerEntry) (day : ℤ) : List LedgerEntry :=
  if (watchlist day).final then (watchlist day).signals.foldl (addSignal day) entries else entries

/-- The days ``_ingest`` goes through: today's only once its scan is final. -/
def ingestDays (l : ShadowLedger) (i : LedgerRun) : List ℤ :=
  let start := l.ingestedThrough.elim (i.today - firstLookbackDays) (· + 1)
  ((List.range (i.today + 1 - start).toNat).map fun n => start + n).filter fun day =>
    day < i.today || (i.watchlist day).final

def ingest (l : ShadowLedger) (i : LedgerRun) : List LedgerEntry :=
  (ingestDays l i).foldl (addDay i.watchlist) l.entries

def symbolsToScore (entries : List LedgerEntry) : List String :=
  ((entries.filter fun e => !e.isFinal).map (·.symbol)).dedup.insertionSort (· ≤ ·)

def ownEntries (entries : List LedgerEntry) (symbol : String) : List LedgerEntry :=
  (entries.filter fun e => e.symbol = symbol).insertionSort fun a b => a.sortKey ≤ b.sortKey

def scoredEntries (own : List LedgerEntry) (scored : List Entry) : List LedgerEntry :=
  own.zipWith (fun e entry => { e with entry := entry, scored := true }) scored

def writeBack (entries scored : List LedgerEntry) : List LedgerEntry :=
  entries.map fun e => (scored.find? fun s => s.key = e.key).getD e

def rescore (entries : List LedgerEntry) (symbol : String) (bars : List Row) (today : ℤ) :
    Except EngineError (List LedgerEntry) := do
  let own := ownEntries entries symbol
  let scored ← scoreSymbol (own.map (·.entry)) bars today
  pure (writeBack entries (scoredEntries own scored))

namespace ShadowLedger

def score (l : ShadowLedger) (symbol : String) (bars : List Row) (today : ℤ) : Except EngineError ShadowLedger := do
  let entries ← rescore l.entries symbol bars today
  pure
    { l with
      entries := entries
      scoredSymbols := symbol :: l.scoredSymbols
      trades := l.trades ++ (entries.filter fun e => e.entry.taken).map LedgerEntry.setup }

def scoreSymbols (i : LedgerRun) : List String → ℕ → ShadowLedger → Except EngineError ShadowLedger
  | [], _, l => pure l
  | symbol :: rest, budget, l =>
      if symbol ∈ l.scoredSymbols then scoreSymbols i rest budget l
      else
        match budget with
        | 0 => pure l
        | budget + 1 =>
            match i.bars symbol with
            | none => scoreSymbols i rest budget l
            | some bars => do
                let l ← l.score symbol bars i.today
                scoreSymbols i rest budget l

def drop (l : ShadowLedger) (today : ℤ) : ShadowLedger :=
  { l with entries := l.entries.filter fun e => today - keepDays ≤ e.signalDate }

def ingested (l : ShadowLedger) (i : LedgerRun) : ShadowLedger :=
  { l with
    entries := ingest l i
    ingestedThrough := (ingestDays l i).getLast?.orElse fun _ => l.ingestedThrough
    scoredSymbols := if l.scoredDay = some i.today then l.scoredSymbols else []
    scoredDay := some i.today }

def refresh (l : ShadowLedger) (i : LedgerRun) : Except EngineError ShadowLedger :=
  if ¬ i.enabled ∨ ¬ i.afterScan ∨ l.doneOn = some i.today then pure l
  else do
    let symbols := symbolsToScore (ingest l i)
    let scored ← scoreSymbols i symbols i.budget (l.ingested i)
    pure { scored.drop i.today with doneOn := if symbols ⊆ scored.scoredSymbols then some i.today else l.doneOn }

/-- A run that raises saves nothing. -/
def step (l : ShadowLedger) (i : LedgerRun) : ShadowLedger :=
  match l.refresh i with
  | .ok next => next
  | .error _ => l

end ShadowLedger

end AlgoTrader.Workflow
