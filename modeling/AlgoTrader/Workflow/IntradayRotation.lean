import AlgoTrader.Lib.Rotation
import AlgoTrader.Lib.Runs
import Mathlib.Data.Fintype.EquivFin
import Mathlib.Data.Set.Finite.Basic
import Mathlib.Tactic.Ring

/-! The intraday scan's rotation through the universe (``run_intraday_scan`` and ``_intraday_scan_symbols`` in
``app/workflow/service.py``). The offset moves on by a whole batch, also past symbols that the cap cut off. -/

namespace AlgoTrader.Workflow.IntradayRotation

open Rotation

/-- ``marketUniverse`` is what ``resolve_universe`` returns. -/
structure ScanSettings where
  marketUniverse : List String
  scalpScanBatchSize : ℤ := 20
  intradayActiveShortlistSize : ℤ := 20
  intradayScanMaxSymbols : ℤ := 0

-- ``value or default``
def orDefault (value default : ℤ) : ℤ := if value = 0 then default else value

namespace ScanSettings

variable (s : ScanSettings)

def batchSize : ℕ := (max 1 (orDefault s.scalpScanBatchSize 20)).toNat
def shortlistLimit : ℕ := (max 0 (orDefault s.intradayActiveShortlistSize 20)).toNat
def maxSymbols : ℕ := (max 0 s.intradayScanMaxSymbols).toNat

def batch : ℕ := min s.batchSize s.marketUniverse.length

-- The scans it takes to go round once: the universe over the batch size, rounded up.
def rounds : ℕ := (s.marketUniverse.length + s.batchSize - 1) / s.batchSize

end ScanSettings

/-- What one scan finds: the symbols of the open signals, the active movers, and whether the budget or the
lock skips it. -/
structure Scan where
  openSignals : List String := []
  movers : List String := []
  skipped : Bool := false

-- ``offset`` is what ``int`` reads of the runtime state, 0 where it holds no number.
structure State where
  offset : ℤ
  scanned : List (List String) := []

section Scans

variable (s : ScanSettings)

def active (scan : Scan) : List String := ((scan.openSignals.take s.shortlistLimit).map String.toUpper).filter (· ≠ "")

def rotated (offset : ℤ) : List String := window s.marketUniverse (offset % s.marketUniverse.length).toNat s.batch

def listed (offset : ℤ) (scan : Scan) : List String := active s scan ++ scan.movers ++ rotated s offset

def intradayScanSymbols (offset : ℤ) (scan : Scan) : List String × ℤ :=
  if s.marketUniverse = [] then ([], offset)
  else
    let combined := (listed s offset scan).eraseDups
    (if s.maxSymbols ≠ 0 then combined.take s.maxSymbols else combined,
      (offset % s.marketUniverse.length + s.batch) % s.marketUniverse.length)

-- A skipped scan puts the offset back.
def runIntradayScan (st : State) (scan : Scan) : State :=
  let symbols := intradayScanSymbols s st.offset scan
  if scan.skipped then st else { offset := symbols.2, scanned := st.scanned ++ [symbols.1] }

def performed (scans : List Scan) : List Scan := scans.filter (!·.skipped)

def Covers (offset : ℤ) (scans : List Scan) : Prop :=
  ∀ symbol ∈ s.marketUniverse, ∃ symbols ∈ (Runs.run (runIntradayScan s) { offset := offset } scans).scanned, symbol ∈ symbols

def KeepsListed (offset : ℤ) (scan : Scan) (symbol : String) : Prop :=
  symbol ∈ listed s offset scan ∧
    (s.maxSymbols = 0 ∨ ((listed s offset scan).takeWhile (· ≠ symbol)).eraseDups.length < s.maxSymbols)

end Scans

section Coverage

variable {s : ScanSettings} {offset : ℤ} {scan : Scan} {scans : List Scan} {symbol : String}

lemma batchSize_pos (s : ScanSettings) : 0 < s.batchSize := by
  rw [ScanSettings.batchSize]
  omega

lemma mem_intradayScanSymbols (huniverse : s.marketUniverse ≠ []) :
    symbol ∈ (intradayScanSymbols s offset scan).1 ↔ KeepsListed s offset scan symbol := by
  rw [intradayScanSymbols, if_neg huniverse, KeepsListed]
  dsimp only
  by_cases hcap : s.maxSymbols = 0
  · rw [if_neg (not_not.mpr hcap), List.mem_eraseDups]
    exact (and_iff_left (.inl hcap)).symm
  · rw [if_pos hcap, mem_take_eraseDups_iff, or_iff_right hcap]

-- Only the place of the offset in the universe is read.
lemma keepsListed_congr {offset' : ℤ} (h : offset % s.marketUniverse.length = offset' % s.marketUniverse.length) :
    KeepsListed s offset scan symbol ↔ KeepsListed s offset' scan symbol := by
  rw [KeepsListed, KeepsListed, listed, listed, rotated, rotated, h]

lemma mem_scanned_iff (huniverse : s.marketUniverse ≠ []) (scans : List Scan) (st : State) :
    (∃ symbols ∈ (Runs.run (runIntradayScan s) st scans).scanned, symbol ∈ symbols) ↔
      (∃ symbols ∈ st.scanned, symbol ∈ symbols) ∨
        ∃ (k : ℕ) (scan : Scan), (performed scans)[k]? = some scan ∧ KeepsListed s (st.offset + k * s.batch) scan symbol := by
  induction scans generalizing st with
  | nil => simp [Runs.run, performed]
  | cons scan rest ih =>
    change (∃ symbols ∈ (Runs.run (runIntradayScan s) (runIntradayScan s st scan) rest).scanned, symbol ∈ symbols) ↔ _
    rw [ih]
    by_cases hskipped : scan.skipped = true
    · simp [runIntradayScan, performed, hskipped]
    · have hnext : runIntradayScan s st scan =
          { offset := (intradayScanSymbols s st.offset scan).2
            scanned := st.scanned ++ [(intradayScanSymbols s st.offset scan).1] } := if_neg hskipped
      have hperformed : performed (scan :: rest) = scan :: performed rest :=
        List.filter_cons_of_pos (by simpa using hskipped)
      have hlater (k : ℕ) (other : Scan) :
          KeepsListed s ((intradayScanSymbols s st.offset scan).2 + k * s.batch) other symbol ↔
            KeepsListed s (st.offset + (k + 1 : ℕ) * s.batch) other symbol := by
        apply keepsListed_congr
        rw [intradayScanSymbols, if_neg huniverse]
        dsimp only
        rw [Int.emod_add_emod, add_assoc, Int.emod_add_emod]
        congr 1
        push_cast
        ring
      rw [hnext, hperformed]
      simp only [hlater, List.mem_append, List.mem_singleton, or_and_right, exists_or, exists_eq_left,
        mem_intradayScanSymbols huniverse]
      rw [or_assoc]
      apply or_congr_right
      constructor
      · rintro (hfirst | ⟨k, other, hother, hkeeps⟩)
        · exact ⟨0, scan, rfl, by simpa using hfirst⟩
        · exact ⟨k + 1, other, hother, hkeeps⟩
      · rintro ⟨k, other, hother, hkeeps⟩
        cases k with
        | zero =>
          cases hother
          exact .inl (by simpa using hkeeps)
        | succ k => exact .inr ⟨k, other, hother, hkeeps⟩

lemma batch_covers (offset : ℤ) (huniverse : s.marketUniverse ≠ [])
    (hlength : (performed scans).length = s.rounds) (hsymbol : symbol ∈ s.marketUniverse) :
    ∃ (k : ℕ) (scan : Scan), (performed scans)[k]? = some scan ∧ symbol ∈ listed s (offset + k * s.batch) scan := by
  have hpos := List.length_pos_iff.mpr huniverse
  have hsize := batchSize_pos s
  have hrounds : s.marketUniverse.length ≤ s.rounds * s.batch := by
    rw [ScanSettings.batch]
    rcases le_total s.batchSize s.marketUniverse.length with hle | hle
    · rw [min_eq_left hle, ScanSettings.rounds]
      have := Nat.lt_div_mul_add hsize (a := s.marketUniverse.length + s.batchSize - 1)
      omega
    · have hround : 0 < s.rounds := Nat.div_pos (by omega) hsize
      rw [min_eq_right hle]
      exact Nat.le_mul_of_pos_left _ hround
  obtain ⟨k, hk, hmem⟩ := exists_mem_window (lt_min hsize hpos) (min_le_right _ _) hrounds offset hsymbol
  rw [← hlength] at hk
  exact ⟨k, _, List.getElem?_eq_getElem hk, List.mem_append_right _ hmem⟩

lemma exists_uncovered (huniverse : s.marketUniverse ≠ []) (hcap : s.maxSymbols ≠ 0) (offset : ℤ) :
    ∃ scans, (performed scans).length = s.rounds ∧ ¬ Covers s offset scans := by
  obtain ⟨wider, hwider, hcard⟩ := Infinite.exists_superset_card_eq s.marketUniverse.toFinset
    (s.marketUniverse.toFinset.card + s.maxSymbols) (Nat.le_add_right _ _)
  -- As many symbols from outside the universe as a scan may keep come first in every scan.
  obtain ⟨others, hothers⟩ : ∃ others, others = wider \ s.marketUniverse.toFinset := ⟨_, rfl⟩
  have hlength : others.toList.length = s.maxSymbols := by
    rw [Finset.length_toList, hothers, Finset.card_sdiff_of_subset hwider]
    omega
  obtain ⟨symbol, hsymbol⟩ := List.exists_mem_of_ne_nil _ huniverse
  have hnot : symbol ∉ others.toList := by
    simp [hothers, hsymbol]
  have hkept (offset : ℤ) : ¬ KeepsListed s offset { movers := others.toList } symbol := by
    rintro ⟨-, hzero | hbefore⟩
    · exact hcap hzero
    · have hfirst : listed s offset { movers := others.toList } = others.toList ++ rotated s offset := by
        simp [listed, active]
      have hcount : s.maxSymbols ≤
          ((listed s offset { movers := others.toList }).takeWhile (· ≠ symbol)).eraseDups.length := by
        rw [hfirst, List.takeWhile_append_of_pos, List.eraseDups_append, List.length_append,
          eraseDups_of_nodup others.nodup_toList, hlength]
        · exact Nat.le_add_right _ _
        · intro other hother
          exact decide_eq_true fun heq => hnot (heq ▸ hother)
      exact absurd hbefore (not_lt.mpr hcount)
  refine ⟨List.replicate s.rounds { movers := others.toList }, ?_, fun hcovers => ?_⟩
  · simp [performed]
  · rcases (mem_scanned_iff huniverse _ _).mp (hcovers symbol hsymbol) with ⟨_, hnone, _⟩ | ⟨k, scan, hscan, hkeeps⟩
    · cases hnone
    · have hmem := List.mem_of_mem_filter (List.mem_of_getElem? hscan)
      rw [List.eq_of_mem_replicate hmem] at hkeeps
      exact hkept _ hkeeps

end Coverage

theorem rotation_covers_iff (s : ScanSettings) (offset : ℤ) :
    (∀ scans, (performed scans).length = s.rounds →
      (Covers s offset scans ↔ ∀ symbol ∈ s.marketUniverse, ∃ (k : ℕ) (scan : Scan), (performed scans)[k]? = some scan ∧
        KeepsListed s (offset + k * s.batch) scan symbol)) ∧
    ((∀ scans, (performed scans).length = s.rounds → Covers s offset scans) ↔ s.marketUniverse = [] ∨ s.maxSymbols = 0) := by
  by_cases huniverse : s.marketUniverse = []
  · have hnone (scans : List Scan) : Covers s offset scans := by simp [Covers, huniverse]
    exact ⟨fun scans _ => iff_of_true (hnone scans) (by simp [huniverse]),
      iff_of_true (fun scans _ => hnone scans) (.inl huniverse)⟩
  have hcovers (scans : List Scan) : Covers s offset scans ↔ ∀ symbol ∈ s.marketUniverse, ∃ (k : ℕ) (scan : Scan),
      (performed scans)[k]? = some scan ∧ KeepsListed s (offset + k * s.batch) scan symbol := by
    apply forall₂_congr
    intro symbol _
    rw [mem_scanned_iff huniverse]
    simp
  refine ⟨fun scans _ => hcovers scans, ?_⟩
  rw [or_iff_right huniverse]
  constructor
  · intro hall
    by_contra hcap
    exact (exists_uncovered huniverse hcap offset).elim fun scans h => h.2 (hall scans h.1)
  · intro hcap scans hlength
    rw [hcovers]
    intro symbol hsymbol
    obtain ⟨k, scan, hscan, hlisted⟩ := batch_covers offset huniverse hlength hsymbol
    exact ⟨k, scan, hscan, hlisted, .inl hcap⟩

def cappedSettings : ScanSettings :=
  { marketUniverse := ["FAST", "QUICK", "AAPL", "MSFT", "AMD", "META"], scalpScanBatchSize := 4
    intradayActiveShortlistSize := 1, intradayScanMaxSymbols := 3 }

def busyScan : Scan := { openSignals := ["NVDA"], movers := ["FAST", "QUICK"] }

-- Both scans are filled by the open signal and the movers, while the offset goes round once.
theorem rotation_starved :
    cappedSettings.rounds = 2 ∧ (performed [busyScan, busyScan]).length = 2 ∧
      (Runs.run (runIntradayScan cappedSettings) { offset := 0 } [busyScan, busyScan]).scanned =
        [["NVDA", "FAST", "QUICK"], ["NVDA", "FAST", "QUICK"]] ∧
      ¬ Covers cappedSettings 0 [busyScan, busyScan] := by
  refine ⟨by decide, by decide, by decide +kernel, fun hcovers => ?_⟩
  have hmissed := hcovers "AMD" (by decide)
  revert hmissed
  decide +kernel

end AlgoTrader.Workflow.IntradayRotation
