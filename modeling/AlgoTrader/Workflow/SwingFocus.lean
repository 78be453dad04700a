import AlgoTrader.Lib.Rotation
import AlgoTrader.Lib.Runs
import Mathlib.Tactic.Ring

/-! The swing scan (``app/workflow/swing_focus.py`` and ``run_scan_task`` of ``app/workflow/operations.py``): it
takes the strategies that pass, leaves every so many runs to the rotation through all of them, and starts each run
in the list of symbols where the last one was cut off. -/

namespace AlgoTrader.Workflow.SwingFocus

open Rotation

/-- ``symbols`` is the resolved universe, ``specKeys`` what ``strategy_spec_keys_for_timeframes`` lists. -/
structure SwingSettings where
  symbols : List String
  specKeys : List String
  requireStrategyOosEvidence : Bool := false
  swingScanEvidenceFocus : Bool := true
  swingFocusShadowEvery : ℤ := 6
  screenerSpecBatchMode : String := "off"
  screenerSpecBatchSize : ℤ := 0

inductive BatchMode
  | evidenceFocus
  | rotating
  deriving DecidableEq, Repr

structure SpecBatch where
  mode : BatchMode
  strategySpecKeys : List String
  deriving DecidableEq

/-- What one run meets: whether the budget defers it, the keys that pass, and whether its scan is ``stopped`` when it
gets to its ``j``-th symbol, by the deadline, a cancellation or, where it ``raises``, an error. -/
structure SwingRun where
  deferred : Bool := false
  passing : List String := []
  raises : Bool := false
  stopped : ℕ → Bool := fun _ => false

structure Scan where
  symbols : List String
  specBatch : Option SpecBatch
  evaluated : ℕ
  raised : Bool
  deriving DecidableEq

-- The numbers are what ``int`` reads of the runtime state, 0 where it holds none.
structure State where
  symbolOffset : ℤ := 0
  focusRuns : ℤ := 0
  specOffset : ℤ := 0
  scans : List Scan := []

section Definitions

variable (s : SwingSettings)

def focusActive : Bool := s.requireStrategyOosEvidence && s.swingScanEvidenceFocus

def rotates : Bool := s.screenerSpecBatchMode.toLower = "rotating" && 0 < s.screenerSpecBatchSize && s.specKeys ≠ []

def boundedBatchSize : ℕ := (max 1 (min s.screenerSpecBatchSize s.specKeys.length)).toNat

def focusedSpecBatch (runs : ℤ) (passing : List String) : Option SpecBatch × ℤ :=
  if focusActive s then
    if 0 < s.swingFocusShadowEvery ∧ (runs + 1) % s.swingFocusShadowEvery = 0 then (none, runs + 1)
    else if (s.specKeys.filter (· ∈ passing)) = [] then (none, runs + 1)
    else (some ⟨.evidenceFocus, s.specKeys.filter (· ∈ passing)⟩, runs + 1)
  else (none, runs)

def rotatingSpecBatch (offset : ℤ) : Option SpecBatch × ℤ :=
  if rotates s then
    (some ⟨.rotating, window s.specKeys (offset % s.specKeys.length).toNat (boundedBatchSize s)⟩,
      (offset % s.specKeys.length + boundedBatchSize s) % s.specKeys.length)
  else (none, offset)

def rotateSymbols (offset : ℤ) : List String :=
  s.symbols.drop (offset % s.symbols.length).toNat ++ s.symbols.take (offset % s.symbols.length).toNat

/-- The count of ``scan_universe``: symbol after symbol from the front, until the scan is stopped. -/
def evaluatedSymbols (stopped : ℕ → Bool) (symbols : List String) : ℕ :=
  ((List.range symbols.length).takeWhile fun j => !stopped j).length

def advanceSymbols (offset : ℤ) (evaluated : ℕ) : ℤ :=
  if s.symbols = [] then offset else (offset + max evaluated 1) % s.symbols.length

def runScanTask (st : State) (run : SwingRun) : State :=
  if run.deferred then st
  else
    let focused := focusedSpecBatch s st.focusRuns run.passing
    let rotating := if focused.1.isSome then (none, st.specOffset) else rotatingSpecBatch s st.specOffset
    let symbols := rotateSymbols s st.symbolOffset
    let evaluated := evaluatedSymbols run.stopped symbols
    { symbolOffset := if run.raises then st.symbolOffset else advanceSymbols s st.symbolOffset evaluated
      focusRuns := focused.2
      specOffset := rotating.2
      scans := st.scans ++ [⟨symbols, focused.1.or rotating.1, evaluated, run.raises⟩] }

def swingRun (st : State) (runs : List SwingRun) : State := Runs.run (runScanTask s) st runs

end Definitions

-- What the run has evaluated, also where it raises in the end.
def Scan.evaluatedSymbols (scan : Scan) : List String := scan.symbols.take scan.evaluated

/-- The symbols the next run starts behind: those the run has evaluated, or the first where it came to none. A run
that raises leaves them all to the next one. -/
def Scan.passed (scan : Scan) : List String := if scan.raised then [] else scan.symbols.take (max scan.evaluated 1)

def passed (scans : List Scan) : List String := scans.flatMap Scan.passed

section Symbols

variable {s : SwingSettings} {st : State} {start : ℤ}

/-- What the runs have passed is the list read on and on, and the next run starts behind it. -/
def Swept (s : SwingSettings) (start : ℤ) (st : State) : Prop :=
  (passed st.scans).map some = reading s.symbols start (passed st.scans).length ∧
    st.symbolOffset % s.symbols.length = (start + (passed st.scans).length) % s.symbols.length

lemma length_rotateSymbols (hpos : 0 < s.symbols.length) (offset : ℤ) :
    (rotateSymbols s offset).length = s.symbols.length := by
  have hlt := Int.emod_lt_of_pos offset (Int.natCast_pos.mpr hpos)
  rw [rotateSymbols, List.length_append, List.length_drop, List.length_take]
  omega

lemma evaluatedSymbols_le (stopped : ℕ → Bool) (symbols : List String) :
    evaluatedSymbols stopped symbols ≤ symbols.length := by
  have hle := ((List.range symbols.length).takeWhile_sublist fun j => !stopped j).length_le
  rwa [List.length_range] at hle

lemma Swept.step (hpos : 0 < s.symbols.length) (h : Swept s start st) (run : SwingRun) :
    Swept s start (runScanTask s st run) := by
  obtain ⟨hreading, hoffset⟩ := h
  rw [runScanTask]
  by_cases hdeferred : run.deferred
  · rw [if_pos hdeferred]
    exact ⟨hreading, hoffset⟩
  · rw [if_neg hdeferred]
    dsimp only
    rw [Swept, passed, List.flatMap_append, List.flatMap_singleton, ← passed, Scan.passed]
    dsimp only
    by_cases hraises : run.raises = true
    · rw [if_pos hraises, if_pos hraises, List.append_nil]
      exact ⟨hreading, hoffset⟩
    · have hcount := evaluatedSymbols_le run.stopped (rotateSymbols s st.symbolOffset)
      rw [length_rotateSymbols hpos] at hcount
      generalize evaluatedSymbols run.stopped (rotateSymbols s st.symbolOffset) = n at hcount ⊢
      have hturned := map_some_take_turned hpos st.symbolOffset (max_le hcount hpos)
      have hlength : ((rotateSymbols s st.symbolOffset).take (max n 1)).length = max n 1 := by
        rw [← List.length_map some, rotateSymbols, hturned, length_reading]
      rw [if_neg hraises, if_neg hraises, List.length_append, hlength]
      refine ⟨?_, ?_⟩
      · rw [List.map_append, hreading, rotateSymbols, hturned, reading_congr hoffset, reading_add]
      · rw [advanceSymbols, if_neg (List.ne_nil_of_length_pos hpos), Int.emod_emod_of_dvd _ (dvd_refl _),
          ← Int.emod_add_emod, hoffset, Int.emod_add_emod, Nat.cast_add, add_assoc]

lemma passed_eq_evaluated {scans : List Scan} (h : ∀ scan ∈ scans, scan.raised = false → 0 < scan.evaluated) :
    passed scans = (scans.filter fun scan => !scan.raised).flatMap Scan.evaluatedSymbols := by
  induction scans with
  | nil => rfl
  | cons scan rest ih =>
    obtain ⟨hscan, hrest⟩ := List.forall_mem_cons.mp h
    rw [passed, List.flatMap_cons, ← passed, ih hrest, Scan.passed]
    cases hraised : scan.raised with
    | true => rw [List.filter_cons_of_neg (by simp [hraised]), if_pos rfl, List.nil_append]
    | false =>
      rw [List.filter_cons_of_pos (by simp [hraised]), if_neg Bool.false_ne_true, List.flatMap_cons,
        Scan.evaluatedSymbols, max_eq_left (hscan hraised)]

end Symbols

def rotations (scans : List Scan) : List (List String) :=
  scans.filterMap fun scan => (scan.specBatch.filter (·.mode = .rotating)).map SpecBatch.strategySpecKeys

def shadowEvery (s : SwingSettings) : ℤ := if focusActive s then s.swingFocusShadowEvery else 1

section Strategies

variable {s : SwingSettings} {st : State} {start runs : ℤ}

/-- The rotation's runs took window after window, and it had its share of the runs. -/
structure Rotated (s : SwingSettings) (start runs : ℤ) (st : State) : Prop where
  windows : rotations st.scans = (List.range (rotations st.scans).length).map fun (i : ℕ) =>
    window s.specKeys ((start + i * boundedBatchSize s) % s.specKeys.length).toNat (boundedBatchSize s)
  offset : st.specOffset % s.specKeys.length =
    (start + (rotations st.scans).length * boundedBatchSize s) % s.specKeys.length
  counted : focusActive s = true → st.focusRuns = runs + st.scans.length
  share : (runs + st.scans.length) / shadowEvery s - runs / shadowEvery s ≤ (rotations st.scans).length

lemma rotations_concat (scans : List Scan) (scan : Scan) : rotations (scans ++ [scan]) = rotations scans ++
    ((scan.specBatch.filter (·.mode = .rotating)).map SpecBatch.strategySpecKeys).toList := by
  rw [rotations, List.filterMap_append, List.filterMap_cons, List.filterMap_nil]
  cases (scan.specBatch.filter (·.mode = .rotating)).map SpecBatch.strategySpecKeys <;> rfl

lemma ediv_succ_le {a k : ℤ} (hk : 0 < k) : (a + 1) / k ≤ a / k + 1 := by
  calc (a + 1) / k ≤ (a + k) / k := Int.ediv_le_ediv hk (by omega)
    _ = a / k + 1 := by rw [Int.add_ediv_of_dvd_right (dvd_refl k), Int.ediv_self hk.ne']

lemma ediv_succ_of_emod_ne {a k : ℤ} (hk : 0 < k) (h : (a + 1) % k ≠ 0) : (a + 1) / k = a / k := by
  have hsplit := Int.mul_ediv_add_emod (a + 1) k
  have hnonneg := Int.emod_nonneg (a + 1) hk.ne'
  have hlt := Int.emod_lt_of_pos (a + 1) hk
  have ha : a = ((a + 1) % k - 1) + (a + 1) / k * k := by
    rw [mul_comm]
    omega
  have hzero : ((a + 1) % k - 1) / k = 0 := Int.ediv_eq_zero_of_lt (by omega) (by omega)
  have hquotient := Int.add_mul_ediv_right ((a + 1) % k - 1) ((a + 1) / k) hk.ne'
  rw [← ha, hzero, zero_add] at hquotient
  exact hquotient.symm

lemma focusedSpecBatch_cases (s : SwingSettings) (runs : ℤ) (passing : List String) :
    (focusActive s = true ∧ (0 < s.swingFocusShadowEvery → (runs + 1) % s.swingFocusShadowEvery ≠ 0) ∧
        focusedSpecBatch s runs passing = (some ⟨.evidenceFocus, s.specKeys.filter (· ∈ passing)⟩, runs + 1)) ∨
      focusedSpecBatch s runs passing = (none, if focusActive s then runs + 1 else runs) := by
  rw [focusedSpecBatch]
  split_ifs with hactive hshadow hnone
  · exact Or.inr rfl
  · exact Or.inr rfl
  · exact Or.inl ⟨hactive, fun hpos hzero => hshadow ⟨hpos, hzero⟩, rfl⟩
  · exact Or.inr rfl

lemma Rotated.focused (hevery : 0 < shadowEvery s) (h : Rotated s start runs st) (hactive : focusActive s = true)
    (hshadow : (st.focusRuns + 1) % shadowEvery s ≠ 0) (symbolOffset : ℤ) (symbols keys : List String)
    (evaluated : ℕ) (raised : Bool) :
    Rotated s start runs ⟨symbolOffset, st.focusRuns + 1, st.specOffset,
      st.scans ++ [⟨symbols, some ⟨.evidenceFocus, keys⟩, evaluated, raised⟩]⟩ := by
  have hsame : rotations (st.scans ++ [⟨symbols, some ⟨.evidenceFocus, keys⟩, evaluated, raised⟩]) =
      rotations st.scans := by
    rw [rotations_concat]
    exact List.append_nil _
  rw [h.counted hactive] at hshadow
  refine ⟨?_, ?_, fun _ => ?_, ?_⟩
  · rw [hsame]
    exact h.windows
  · rw [hsame]
    exact h.offset
  · rw [h.counted hactive, List.length_append, List.length_singleton, Nat.cast_succ, add_assoc]
  · rw [hsame, List.length_append, List.length_singleton, Nat.cast_succ, ← add_assoc,
      ediv_succ_of_emod_ne hevery hshadow]
    exact h.share

lemma Rotated.rotating (hevery : 0 < shadowEvery s) (h : Rotated s start runs st) (symbolOffset : ℤ)
    (symbols : List String) (evaluated : ℕ) (raised : Bool) :
    Rotated s start runs ⟨symbolOffset, if focusActive s then st.focusRuns + 1 else st.focusRuns,
      (st.specOffset % s.specKeys.length + boundedBatchSize s) % s.specKeys.length,
      st.scans ++ [⟨symbols, some ⟨.rotating,
        window s.specKeys (st.specOffset % s.specKeys.length).toNat (boundedBatchSize s)⟩, evaluated, raised⟩]⟩ := by
  have hmore : rotations (st.scans ++ [⟨symbols, some ⟨.rotating,
      window s.specKeys (st.specOffset % s.specKeys.length).toNat (boundedBatchSize s)⟩, evaluated, raised⟩]) =
      rotations st.scans ++ [window s.specKeys (st.specOffset % s.specKeys.length).toNat (boundedBatchSize s)] :=
    rotations_concat _ _
  refine ⟨?_, ?_, fun hactive => ?_, ?_⟩
  · rw [hmore, List.length_append, List.length_singleton, List.range_succ, List.map_append, List.map_singleton,
      ← h.windows, h.offset]
  · rw [hmore, List.length_append, List.length_singleton, Int.emod_emod_of_dvd _ (dvd_refl _), Int.emod_add_emod,
      ← Int.emod_add_emod, h.offset, Int.emod_add_emod, Nat.cast_succ]
    congr 1
    ring
  · rw [if_pos hactive, h.counted hactive, List.length_append, List.length_singleton, Nat.cast_succ, add_assoc]
  · have hstep : (runs + st.scans.length + 1) / shadowEvery s ≤ (runs + st.scans.length) / shadowEvery s + 1 :=
      ediv_succ_le hevery
    have hshare := h.share
    rw [hmore, List.length_append, List.length_append, List.length_singleton, List.length_singleton, Nat.cast_succ,
      Nat.cast_succ, ← add_assoc]
    omega

lemma Rotated.step (hrotates : rotates s = true) (hevery : 0 < shadowEvery s) (h : Rotated s start runs st)
    (run : SwingRun) : Rotated s start runs (runScanTask s st run) := by
  rw [runScanTask]
  by_cases hdeferred : run.deferred
  · rwa [if_pos hdeferred]
  · rw [if_neg hdeferred]
    rcases focusedSpecBatch_cases s st.focusRuns run.passing with ⟨hactive, hshadow, hfocused⟩ | hfocused
    · have hk : shadowEvery s = s.swingFocusShadowEvery := if_pos hactive
      rw [hfocused]
      exact h.focused hevery hactive (hk ▸ hshadow (hk ▸ hevery)) _ _ _ _ _
    · rw [hfocused]
      dsimp only
      rw [Option.isSome_none, if_neg Bool.false_ne_true, Option.none_or, rotatingSpecBatch, if_pos hrotates]
      exact h.rotating hevery _ _ _ _

end Strategies

section Run

variable {s : SwingSettings}

lemma rotated_run (hrotates : rotates s = true) (hevery : 0 < shadowEvery s) (symbolOffset focusRuns specOffset : ℤ)
    (runs : List SwingRun) :
    Rotated s specOffset focusRuns (swingRun s ⟨symbolOffset, focusRuns, specOffset, []⟩ runs) := by
  refine Runs.invariant_of_step (fun _ run h => h.step hrotates hevery run) ⟨rfl, ?_, ?_, ?_⟩ runs
  · rw [rotations, List.filterMap_nil, List.length_nil, Nat.cast_zero, zero_mul, add_zero]
  · exact fun _ => (add_zero _).symm
  · rw [List.length_nil, Nat.cast_zero, add_zero, sub_self]
    exact Int.natCast_nonneg _

lemma swept_run (hpos : 0 < s.symbols.length) (symbolOffset focusRuns specOffset : ℤ) (runs : List SwingRun) :
    Swept s symbolOffset (swingRun s ⟨symbolOffset, focusRuns, specOffset, []⟩ runs) := by
  refine Runs.invariant_of_step (fun _ run h => h.step hpos run) ⟨rfl, ?_⟩ runs
  rw [passed, List.flatMap_nil, List.length_nil, Nat.cast_zero, add_zero]

end Run

/-- Wherever runs are cut off, put off or fail, and whatever passes: what the runs have passed is the list of symbols
read round and round, so as many of them as the list has are all of them, and where each run that returns comes to
one at least, they are what it evaluates. Every key is in some batch of the rotation after as many runs that start
as the shadow runs need to go round once. -/
theorem swing_covers (s : SwingSettings) (symbolOffset focusRuns specOffset : ℤ) (runs : List SwingRun) :
    (s.symbols ≠ [] → (passed (swingRun s ⟨symbolOffset, focusRuns, specOffset, []⟩ runs).scans).map some =
      reading s.symbols symbolOffset
        (passed (swingRun s ⟨symbolOffset, focusRuns, specOffset, []⟩ runs).scans).length) ∧
    (∀ symbol ∈ s.symbols, ∀ k,
      k + s.symbols.length ≤ (passed (swingRun s ⟨symbolOffset, focusRuns, specOffset, []⟩ runs).scans).length →
        symbol ∈ ((passed (swingRun s ⟨symbolOffset, focusRuns, specOffset, []⟩ runs).scans).drop k).take
          s.symbols.length) ∧
    ((∀ scan ∈ (swingRun s ⟨symbolOffset, focusRuns, specOffset, []⟩ runs).scans,
        scan.raised = false → 0 < scan.evaluated) →
      passed (swingRun s ⟨symbolOffset, focusRuns, specOffset, []⟩ runs).scans =
        ((swingRun s ⟨symbolOffset, focusRuns, specOffset, []⟩ runs).scans.filter fun scan => !scan.raised).flatMap
          Scan.evaluatedSymbols) ∧
    (rotates s = true → 0 < shadowEvery s →
      ∀ key ∈ s.specKeys, ∀ rounds : ℕ, s.specKeys.length ≤ rounds * boundedBatchSize s →
        rounds * shadowEvery s ≤ (swingRun s ⟨symbolOffset, focusRuns, specOffset, []⟩ runs).scans.length →
          ∃ keys ∈ rotations (swingRun s ⟨symbolOffset, focusRuns, specOffset, []⟩ runs).scans, key ∈ keys) := by
  have hswept (hpos : 0 < s.symbols.length) := (swept_run hpos symbolOffset focusRuns specOffset runs).1
  refine ⟨fun hne => hswept (List.length_pos_of_ne_nil hne), fun symbol hsymbol k hk => ?_, passed_eq_evaluated,
    fun hrotates hevery key hkey rounds hrounds hscans => ?_⟩
  · have hmem := mem_reading_stretch hsymbol symbolOffset hk
    rw [← hswept (List.length_pos_of_mem hsymbol), ← List.map_drop, ← List.map_take] at hmem
    obtain ⟨other, hother, hsome⟩ := List.mem_map.mp hmem
    exact Option.some.inj hsome ▸ hother
  · have hrotated := rotated_run hrotates hevery symbolOffset focusRuns specOffset runs
    have hshare : (rounds : ℤ) ≤
        (rotations (swingRun s ⟨symbolOffset, focusRuns, specOffset, []⟩ runs).scans).length := by
      have hmono := Int.ediv_le_ediv hevery (add_le_add_right hscans focusRuns)
      rw [Int.add_mul_ediv_right _ _ hevery.ne'] at hmono
      have := hrotated.share
      omega
    have hpos : 0 < boundedBatchSize s := by
      rw [boundedBatchSize]
      omega
    have hsize : boundedBatchSize s ≤ s.specKeys.length := by
      have := List.length_pos_of_mem hkey
      rw [boundedBatchSize]
      omega
    obtain ⟨i, hi, hwindow⟩ := exists_mem_window hpos hsize hrounds specOffset hkey
    refine ⟨_, ?_, hwindow⟩
    rw [hrotated.windows]
    exact List.mem_map.mpr ⟨i, List.mem_range.mpr (by omega), rfl⟩

/-- Every third run is left to the rotation, which takes two keys of three; the scans are cut short, one fails and
one is put off. -/
def thirdRotates : SwingSettings where
  symbols := ["AAPL", "MSFT", "NVDA"]
  specKeys := ["breakout:1d", "pullback:1d", "momentum:1h"]
  requireStrategyOosEvidence := true
  swingFocusShadowEvery := 3
  screenerSpecBatchMode := "rotating"
  screenerSpecBatchSize := 2

def sixStarted : List SwingRun :=
  [{ passing := ["breakout:1d"], stopped := (2 ≤ ·) }, { passing := ["breakout:1d"], stopped := fun _ => true },
    { deferred := true }, { stopped := (1 ≤ ·) }, { passing := ["breakout:1d"], raises := true },
    { passing := ["breakout:1d"] }, { stopped := (1 ≤ ·) }]

theorem swing_covers_sixStarted :
    (∀ symbol ∈ thirdRotates.symbols, symbol ∈ ["NVDA", "AAPL", "MSFT"]) ∧
      ∀ key ∈ thirdRotates.specKeys,
        ∃ keys ∈ rotations (swingRun thirdRotates ⟨5, 0, 2, []⟩ sixStarted).scans, key ∈ keys := by
  obtain ⟨-, hsymbols, -, hkeys⟩ := swing_covers thirdRotates 5 0 2 sixStarted
  refine ⟨fun symbol hsymbol => ?_, fun key hkey => ?_⟩
  · have hstretch : ((passed (swingRun thirdRotates ⟨5, 0, 2, []⟩ sixStarted).scans).drop 3).take 3 =
        ["NVDA", "AAPL", "MSFT"] := by decide +kernel
    rw [← hstretch]
    exact hsymbols symbol hsymbol 3 (by decide +kernel)
  · exact hkeys (by decide +kernel) (by decide) key hkey 2 (by decide +kernel) (by decide +kernel)

example : passed (swingRun thirdRotates ⟨5, 0, 2, []⟩ sixStarted).scans =
    ["NVDA", "AAPL", "MSFT", "NVDA", "AAPL", "MSFT", "NVDA", "AAPL"] := by decide +kernel

end AlgoTrader.Workflow.SwingFocus
