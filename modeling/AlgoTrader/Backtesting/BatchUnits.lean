import AlgoTrader.Backtesting.BatchPass
import Mathlib.Data.List.Nodup
import Mathlib.Data.List.Range
import Mathlib.Tactic.Common

/-! The units of a symbol as a pass counts them. The counter of the loop does not move over a
timeframe whose fetch failed, so behind one it lags the flattened index. -/

namespace AlgoTrader.Backtesting

namespace BatchPass

variable (b : BatchPass) (i skip : ℕ)

def specCount (j : ℕ) : ℕ :=
  ((b.scanTimeframes[j]?).map fun timeframe => (b.strategySpecsFor timeframe).length).getD 0

def flatAt : ℕ → ℕ
  | 0 => 0
  | j + 1 => flatAt j + b.specCount j

def unitCount : ℕ := b.flatAt b.scanTimeframes.length

def fetchFails (j : ℕ) : Bool := (b.getHistory i j).error.isSome

def counterAt : ℕ → ℕ
  | 0 => 0
  | j + 1 =>
    if skip < counterAt j + b.specCount j ∧ b.fetchFails i j then counterAt j else counterAt j + b.specCount j

def dueFrom (j counter k n : ℕ) : List UnitAt :=
  ((List.range' k n).filter fun k => skip ≤ counter + k).map fun k => ⟨i, j, k⟩

def dueAt (j : ℕ) : List UnitAt :=
  if b.fetchFails i j then [] else dueFrom i skip j (b.counterAt i skip j) 0 (b.specCount j)

def due : ℕ → List UnitAt
  | 0 => []
  | j + 1 => due j ++ b.dueAt i skip j

def failedAt (j : ℕ) : List (ℕ × ℕ) :=
  if skip < b.counterAt i skip j + b.specCount j ∧ b.fetchFails i j then [(i, j)] else []

def failed : ℕ → List (ℕ × ℕ)
  | 0 => []
  | j + 1 => failed j ++ b.failedAt i skip j

def secondsOf (units : List UnitAt) : ℚ := (units.map fun a => (b.runStrategy a).seconds).sum

/-- How many of the units are run before a check finds the deadline passed, with `elapsed` on the clock. -/
def inTime : List UnitAt → ℚ → ℕ
  | [], _ => 0
  | a :: units, elapsed =>
    if b.late { elapsed := elapsed } then 0 else inTime units (elapsed + (b.runStrategy a).seconds) + 1

/-- The clock behind the timeframes from `j` on, or the timeframe and the number of its due units before the check
that finds the deadline passed. -/
def clockOrStop : List String → ℕ → ℚ → ℚ ⊕ (ℕ × ℕ)
  | [], _, elapsed => .inl elapsed
  | timeframe :: timeframes, j, elapsed =>
    let fetched := elapsed + (b.getHistory i j).seconds
    let units := b.dueAt i skip j
    if b.counterAt i skip j + b.specCount j ≤ skip then clockOrStop timeframes (j + 1) elapsed
    else if isMinuteBar timeframe ∧ b.late { elapsed := elapsed } then .inr (j, 0)
    else if b.inTime units fetched < units.length then .inr (j, b.inTime units fetched)
    else clockOrStop timeframes (j + 1) (fetched + b.secondsOf units)

end BatchPass

structure PassState.Kept (s t : PassState) : Prop where
  covered : t.symbolsCovered = s.symbolsCovered
  resume : t.resumeUnit = s.resumeUnit
  mid : t.stoppedMidSymbol = s.stoppedMidSymbol
  truncated : t.truncated = s.truncated

lemma PassState.Kept.trans {s t u : PassState} (h : s.Kept t) (h' : t.Kept u) : s.Kept u :=
  ⟨h'.covered.trans h.covered, h'.resume.trans h.resume, h'.mid.trans h.mid, h'.truncated.trans h.truncated⟩

structure PassState.StoppedFrom (s t : PassState) (unit : ℕ) : Prop where
  covered : t.symbolsCovered = s.symbolsCovered
  resume : t.resumeUnit = unit
  mid : t.stoppedMidSymbol = true
  truncated : t.truncated = true

lemma PassState.StoppedFrom.of_kept {s t u : PassState} {unit : ℕ} (hkept : s.Kept t) (h : t.StoppedFrom u unit) :
    s.StoppedFrom u unit := ⟨h.covered.trans hkept.covered, h.resume, h.mid, h.truncated⟩

section Timeframe

variable {b : BatchPass} {symbol timeframe : String} {i j skip counter k unit : ℕ} {specs : List String}
  {s t : PassState}

lemma dueFrom_cons {n : ℕ} : BatchPass.dueFrom i skip j counter k (n + 1) =
    if skip ≤ counter + k then ⟨i, j, k⟩ :: BatchPass.dueFrom i skip j counter (k + 1) n
    else BatchPass.dueFrom i skip j counter (k + 1) n := by
  unfold BatchPass.dueFrom
  rw [List.range'_succ]
  by_cases hdue : skip ≤ counter + k
  · simp [hdue]
  · simp [hdue]

structure BatchPass.RanAll (b : BatchPass) (s t : PassState) (units : List UnitAt) : Prop where
  kept : s.Kept t
  attempted : t.attempted = s.attempted ++ units
  elapsed : t.elapsed = s.elapsed + b.secondsOf units
  inTime : b.inTime units s.elapsed = units.length

structure BatchPass.CutShort (b : BatchPass) (s t : PassState) (units : List UnitAt) (unit n : ℕ) : Prop where
  stop : s.StoppedFrom t unit
  attempted : t.attempted = s.attempted ++ units.take n
  lt : n < units.length
  inTime : b.inTime units s.elapsed = n

lemma BatchPass.RanAll.attempt {a : UnitAt} {units : List UnitAt} {error : Option String} (hlate : b.late s = false)
    (h : b.RanAll ((s.spend (b.runStrategy a)).attempt a error) t units) : b.RanAll s t (a :: units) where
  kept := ⟨h.kept.covered, h.kept.resume, h.kept.mid, h.kept.truncated⟩
  attempted := by
    rw [h.attempted]
    simp [PassState.attempt, PassState.spend]
  elapsed := by
    rw [h.elapsed, BatchPass.secondsOf, BatchPass.secondsOf, List.map_cons, List.sum_cons, ← add_assoc]
    rfl
  inTime := by
    have hcheck : b.late { elapsed := s.elapsed } = false := hlate
    rw [BatchPass.inTime, hcheck, if_neg Bool.false_ne_true, List.length_cons]
    exact congrArg Nat.succ h.inTime

lemma BatchPass.CutShort.attempt {a : UnitAt} {units : List UnitAt} {error : Option String} {n : ℕ}
    (hlate : b.late s = false) (h : b.CutShort ((s.spend (b.runStrategy a)).attempt a error) t units unit n) :
    b.CutShort s t (a :: units) unit (n + 1) where
  stop := ⟨h.stop.covered, h.stop.resume, h.stop.mid, h.stop.truncated⟩
  attempted := by
    rw [h.attempted]
    simp [PassState.attempt, PassState.spend]
  lt := Nat.succ_lt_succ h.lt
  inTime := by
    have hcheck : b.late { elapsed := s.elapsed } = false := hlate
    rw [BatchPass.inTime, hcheck, if_neg Bool.false_ne_true]
    exact congrArg Nat.succ h.inTime

lemma runSpecs_cases (h : b.runSpecs symbol timeframe i j skip specs k (counter + k) s = (unit, t)) :
    t.failedFetches = s.failedFetches ∧
    ((unit = counter + k + specs.length ∧ b.RanAll s t (BatchPass.dueFrom i skip j counter k specs.length)) ∨
      ∃ n, b.CutShort s t (BatchPass.dueFrom i skip j counter k specs.length) (max (counter + k) skip + n) n) := by
  induction specs generalizing k s with
  | nil =>
    obtain ⟨rfl, rfl⟩ := Prod.mk.inj h
    exact ⟨rfl, .inl ⟨rfl, ⟨rfl, rfl, rfl, rfl⟩, by simp [BatchPass.dueFrom], by simp [BatchPass.dueFrom,
      BatchPass.secondsOf], rfl⟩⟩
  | cons spec specs ih =>
    rw [List.length_cons, dueFrom_cons]
    rw [BatchPass.runSpecs] at h
    dsimp only at h
    split_ifs at h with hdone hlate
    · have hskip : ¬ skip ≤ counter + k := by omega
      obtain ⟨hfailed, hrest⟩ := ih (k := k + 1) h
      rw [if_neg hskip]
      refine ⟨hfailed, ?_⟩
      rcases hrest with ⟨hunit, hran⟩ | ⟨n, hcut⟩
      · exact .inl ⟨by omega, hran⟩
      · have hresume : max (counter + (k + 1)) skip + n = max (counter + k) skip + n := by omega
        exact .inr ⟨n, hresume ▸ hcut⟩
    · have hskip : skip ≤ counter + k := by omega
      obtain ⟨rfl, rfl⟩ := Prod.mk.inj h
      rw [if_pos hskip]
      refine ⟨rfl, .inr ⟨0, ⟨rfl, ?_, rfl, rfl⟩, by simp [PassState.stopAt, PassState.exceedDeadline], by simp, ?_⟩⟩
      · change counter + k + 1 - 1 = _
        omega
      · rw [BatchPass.inTime]
        exact if_pos hlate
    · have hskip : skip ≤ counter + k := by omega
      have hearly : b.late s = false := Bool.eq_false_of_not_eq_true hlate
      obtain ⟨hfailed, hrest⟩ := ih (k := k + 1) h
      rw [if_pos hskip]
      refine ⟨hfailed, ?_⟩
      rcases hrest with ⟨hunit, hran⟩ | ⟨n, hcut⟩
      · exact .inl ⟨by omega, hran.attempt hearly⟩
      · have hresume : max (counter + (k + 1)) skip + n = max (counter + k) skip + (n + 1) := by omega
        exact .inr ⟨n + 1, hresume ▸ hcut.attempt hearly⟩

end Timeframe

section Symbol

variable {b : BatchPass} {symbol : String} {i skip j : ℕ} {s t : PassState}

structure BatchPass.Reached (b : BatchPass) (i skip : ℕ) (s t : PassState) (j : ℕ) : Prop where
  kept : s.Kept t
  attempted : t.attempted = s.attempted ++ b.due i skip j
  failed : t.failedFetches = s.failedFetches ++ b.failed i skip j

/-- The deadline stops the pass in timeframe `j` after `n` of its units. -/
structure BatchPass.StoppedAt (b : BatchPass) (i skip : ℕ) (s t : PassState) (j n : ℕ) : Prop where
  stop : s.StoppedFrom t (max (b.counterAt i skip j) skip + n)
  attempted : t.attempted = s.attempted ++ (b.due i skip j ++ (b.dueAt i skip j).take n)
  failed : t.failedFetches = s.failedFetches ++ b.failed i skip j
  lt : j < b.scanTimeframes.length
  notSkipped : skip < b.counterAt i skip j + b.specCount j
  within : n = 0 ∨ n < (b.dueAt i skip j).length

lemma specCount_eq {timeframe : String} (h : b.scanTimeframes[j]? = some timeframe) :
    b.specCount j = (b.strategySpecsFor timeframe).length := by
  simp [BatchPass.specCount, h]

lemma due_skipped (h : b.counterAt i skip j + b.specCount j ≤ skip) : b.dueAt i skip j = [] := by
  rw [BatchPass.dueAt, BatchPass.dueFrom]
  split_ifs
  · rfl
  · rw [List.map_eq_nil_iff, List.filter_eq_nil_iff]
    intro k hk
    have hlt := (List.mem_range'_1.mp hk).2
    simp only [decide_eq_true_eq]
    omega

lemma BatchPass.Reached.skipped (h : b.Reached i skip s t j) (hskip : b.counterAt i skip j + b.specCount j ≤ skip) :
    b.Reached i skip s t (j + 1) := by
  refine ⟨h.kept, ?_, ?_⟩
  · rw [h.attempted, BatchPass.due, due_skipped hskip, List.append_nil]
  · rw [h.failed, BatchPass.failed, BatchPass.failedAt, if_neg (by omega), List.append_nil]

lemma BatchPass.Reached.failing {u : PassState} (h : b.Reached i skip s t j) (hkept : t.Kept u)
    (hdue : skip < b.counterAt i skip j + b.specCount j) (hfails : b.fetchFails i j = true)
    (hattempted : u.attempted = t.attempted) (hfailed : u.failedFetches = t.failedFetches ++ [(i, j)]) :
    b.Reached i skip s u (j + 1) := by
  refine ⟨h.kept.trans hkept, ?_, ?_⟩
  · rw [hattempted, h.attempted, BatchPass.due, BatchPass.dueAt, if_pos hfails, List.append_nil]
  · rw [hfailed, h.failed, BatchPass.failed, BatchPass.failedAt, if_pos ⟨hdue, hfails⟩, List.append_assoc]

lemma BatchPass.Reached.ran {timeframe : String} {unit : ℕ} {v : PassState} (h : b.Reached i skip s t j)
    (htimeframe : b.scanTimeframes[j]? = some timeframe) (hfails : b.fetchFails i j = false)
    (hdue : skip < b.counterAt i skip j + b.specCount j)
    (hspecs : b.runSpecs symbol timeframe i j skip (b.strategySpecsFor timeframe) 0 (b.counterAt i skip j)
      (t.spend (b.getHistory i j)) = (unit, v)) :
    (b.Reached i skip s v (j + 1) ∧ unit = b.counterAt i skip (j + 1) ∧
        b.RanAll (t.spend (b.getHistory i j)) v (b.dueAt i skip j)) ∨
      ∃ n, b.StoppedAt i skip s v j n ∧
        b.CutShort (t.spend (b.getHistory i j)) v (b.dueAt i skip j) (max (b.counterAt i skip j) skip + n) n := by
  obtain ⟨hlt, _⟩ := List.getElem?_eq_some_iff.mp htimeframe
  obtain ⟨hfailed, hcases⟩ := runSpecs_cases (k := 0) hspecs
  have hkept : s.Kept (t.spend (b.getHistory i j)) := h.kept.trans ⟨rfl, rfl, rfl, rfl⟩
  have hdueAt : b.dueAt i skip j =
      BatchPass.dueFrom i skip j (b.counterAt i skip j) 0 (b.strategySpecsFor timeframe).length := by
    rw [BatchPass.dueAt, if_neg (by simp [hfails]), specCount_eq htimeframe]
  have hfailedHere : b.failed i skip (j + 1) = b.failed i skip j := by
    rw [BatchPass.failed, BatchPass.failedAt, if_neg (by simp [hfails]), List.append_nil]
  rw [← hdueAt] at hcases
  rcases hcases with ⟨hunit, hran⟩ | ⟨n, hcut⟩
  · refine .inl ⟨⟨hkept.trans hran.kept, ?_, ?_⟩, ?_, hran⟩
    · rw [hran.attempted, BatchPass.due, ← List.append_assoc, ← h.attempted]
      rfl
    · rw [hfailed, hfailedHere]
      exact h.failed
    · rw [hunit, BatchPass.counterAt, if_neg (by simp [hfails]), specCount_eq htimeframe, Nat.add_zero]
  · refine .inr ⟨n, ⟨.of_kept hkept hcut.stop, ?_, hfailed.trans h.failed, hlt, hdue, .inr hcut.lt⟩, hcut⟩
    rw [hcut.attempted, ← List.append_assoc, ← h.attempted]
    rfl

lemma clockOrStop_cons {timeframe : String} (timeframes : List String) (elapsed : ℚ)
    (hdue : skip < b.counterAt i skip j + b.specCount j)
    (hearly : ¬ (isMinuteBar timeframe ∧ b.late { elapsed := elapsed })) :
    b.clockOrStop i skip (timeframe :: timeframes) j elapsed =
      if b.inTime (b.dueAt i skip j) (elapsed + (b.getHistory i j).seconds) < (b.dueAt i skip j).length then
        .inr (j, b.inTime (b.dueAt i skip j) (elapsed + (b.getHistory i j).seconds))
      else b.clockOrStop i skip timeframes (j + 1)
        (elapsed + (b.getHistory i j).seconds + b.secondsOf (b.dueAt i skip j)) := by
  rw [BatchPass.clockOrStop, if_neg (not_le.mpr hdue), if_neg hearly]

theorem runTimeframes_cases {timeframes : List String} (htimeframes : b.scanTimeframes.drop j = timeframes)
    (hj : j ≤ b.scanTimeframes.length) (hrunning : s.truncated = false) (h : b.Reached i skip s t j) {u : PassState}
    (hu : b.runTimeframes symbol i skip timeframes j (b.counterAt i skip j) t = u) :
    (b.Reached i skip s u b.scanTimeframes.length ∧ b.clockOrStop i skip timeframes j t.elapsed = .inl u.elapsed) ∨
      ∃ j' n, b.StoppedAt i skip s u j' n ∧ b.clockOrStop i skip timeframes j t.elapsed = .inr (j', n) := by
  induction timeframes generalizing j t with
  | nil =>
    have hend : j = b.scanTimeframes.length := le_antisymm hj (List.drop_eq_nil_iff.mp htimeframes)
    exact .inl ⟨hend ▸ hu ▸ h, by rw [← hu]; rfl⟩
  | cons timeframe timeframes ih =>
    have hlt : j < b.scanTimeframes.length := by
      by_contra hge
      simp [List.drop_eq_nil_of_le (not_lt.mp hge)] at htimeframes
    rw [List.drop_eq_getElem_cons hlt] at htimeframes
    obtain ⟨hhead, hrest⟩ := List.cons.inj htimeframes
    have htimeframe : b.scanTimeframes[j]? = some timeframe := List.getElem?_eq_some_iff.mpr ⟨hlt, hhead⟩
    rw [BatchPass.runTimeframes] at hu
    dsimp only at hu
    rw [← specCount_eq htimeframe] at hu
    by_cases hskip : b.counterAt i skip j + b.specCount j ≤ skip
    · have hnext : b.counterAt i skip (j + 1) = b.counterAt i skip j + b.specCount j := by
        rw [BatchPass.counterAt, if_neg (by omega)]
      rw [if_pos hskip, ← hnext] at hu
      rw [BatchPass.clockOrStop, if_pos hskip]
      exact ih hrest hlt (h.skipped hskip) hu
    rw [if_neg hskip] at hu
    have hdue := not_le.mp hskip
    by_cases hminute : isMinuteBar timeframe = true ∧ b.late t = true
    · rw [if_pos hminute] at hu
      subst hu
      refine .inr ⟨j, 0, ⟨.of_kept h.kept ⟨rfl, rfl, rfl, rfl⟩, ?_, h.failed, hlt, hdue, .inl rfl⟩, ?_⟩
      · simpa [PassState.stopAt, PassState.exceedDeadline] using h.attempted
      · rw [BatchPass.clockOrStop, if_neg hskip]
        exact if_pos hminute
    rw [if_neg hminute] at hu
    have hearly : ¬ (isMinuteBar timeframe = true ∧ b.late { elapsed := t.elapsed } = true) := hminute
    rw [clockOrStop_cons timeframes t.elapsed hdue hearly]
    cases hfetch : (b.getHistory i j).error with
    | some message =>
      have hfails : b.fetchFails i j = true := by simp [BatchPass.fetchFails, hfetch]
      have hnext : b.counterAt i skip (j + 1) = b.counterAt i skip j := by
        rw [BatchPass.counterAt, if_pos ⟨hdue, hfails⟩]
      have hnone : b.dueAt i skip j = [] := by rw [BatchPass.dueAt, if_pos hfails]
      simp only [hfetch] at hu
      rw [← hnext] at hu
      rw [hnone, List.length_nil, if_neg (Nat.not_lt_zero _), BatchPass.secondsOf, List.map_nil, List.sum_nil, add_zero]
      refine ih hrest hlt (h.failing ?_ hdue hfails ?_ ?_) hu
      · exact ⟨rfl, rfl, rfl, rfl⟩
      · rfl
      · rfl
    | none =>
      have hfails : b.fetchFails i j = false := by simp [BatchPass.fetchFails, hfetch]
      simp only [hfetch] at hu
      generalize hspecs : b.runSpecs symbol timeframe i j skip (b.strategySpecsFor timeframe) 0
        (b.counterAt i skip j) (t.spend (b.getHistory i j)) = result at hu
      obtain ⟨unit, v⟩ := result
      rcases h.ran htimeframe hfails hdue hspecs with ⟨hreached, rfl, hran⟩ | ⟨n, hstopped, hcut⟩
      · have hgoes : v.truncated = false := hreached.kept.truncated.trans hrunning
        have hall : b.inTime (b.dueAt i skip j) (t.elapsed + (b.getHistory i j).seconds) = (b.dueAt i skip j).length :=
          hran.inTime
        have hclock : v.elapsed = t.elapsed + (b.getHistory i j).seconds + b.secondsOf (b.dueAt i skip j) :=
          hran.elapsed
        simp only [hgoes, Bool.false_eq_true, if_false] at hu
        rw [hall, if_neg (lt_irrefl _), ← hclock]
        exact ih hrest hlt hreached hu
      · have hsome : b.inTime (b.dueAt i skip j) (t.elapsed + (b.getHistory i j).seconds) = n := hcut.inTime
        simp only [hstopped.stop.truncated, if_true] at hu
        rw [hsome, if_pos hcut.lt]
        exact .inr ⟨j, n, hu ▸ hstopped, rfl⟩

end Symbol

section Due

variable {b : BatchPass} {i skip j k n m : ℕ} {a : UnitAt}

lemma dueFrom_length (i skip j counter k n : ℕ) :
    max (counter + k) skip + (BatchPass.dueFrom i skip j counter k n).length =
    max (counter + k + n) skip := by
  induction n generalizing k with
  | zero => simp [BatchPass.dueFrom]
  | succ n ih =>
    have hrest := ih (k + 1)
    rw [dueFrom_cons]
    split_ifs with hdue
    · rw [List.length_cons]
      omega
    · omega

lemma dueFrom_getElem? {counter : ℕ} (h : (BatchPass.dueFrom i skip j counter k n)[m]? = some a) :
    a.symbol = i ∧ a.timeframe = j ∧ k ≤ a.spec ∧ a.spec < k + n ∧ counter + a.spec = max (counter + k) skip + m := by
  induction n generalizing k m with
  | zero => simp [BatchPass.dueFrom] at h
  | succ n ih =>
    rw [dueFrom_cons] at h
    split_ifs at h with hdue
    · cases m with
      | zero =>
        obtain rfl : _ = a := by simpa using h
        refine ⟨rfl, rfl, le_rfl, ?_, ?_⟩
        · exact Nat.lt_add_of_pos_right (Nat.succ_pos n)
        · exact (max_eq_left hdue).symm
      | succ m =>
        rw [List.getElem?_cons_succ] at h
        obtain ⟨hsymbol, htimeframe, hle, hlt, hplace⟩ := ih h
        exact ⟨hsymbol, htimeframe, by omega, by omega, by omega⟩
    · obtain ⟨hsymbol, htimeframe, hle, hlt, hplace⟩ := ih h
      exact ⟨hsymbol, htimeframe, by omega, by omega, by omega⟩

lemma counterAt_succ_cases (b : BatchPass) (i skip j : ℕ) :
    (skip < b.counterAt i skip j + b.specCount j ∧ b.fetchFails i j = true ∧
      b.counterAt i skip (j + 1) = b.counterAt i skip j) ∨
    (b.counterAt i skip (j + 1) = b.counterAt i skip j + b.specCount j ∧
      (b.fetchFails i j = true → b.counterAt i skip j + b.specCount j ≤ skip)) := by
  rw [BatchPass.counterAt]
  split_ifs with h
  · exact .inl ⟨h.1, h.2, rfl⟩
  · exact .inr ⟨rfl, fun hfails => not_lt.mp fun hlt => h ⟨hlt, hfails⟩⟩

lemma dueAt_length (b : BatchPass) (i skip j : ℕ) : max (b.counterAt i skip j) skip + (b.dueAt i skip j).length =
    max (b.counterAt i skip (j + 1)) skip := by
  rw [BatchPass.dueAt]
  rcases counterAt_succ_cases b i skip j with ⟨_, hfails, hnext⟩ | ⟨hnext, hskip⟩
  · simp [hfails, hnext]
  · rw [hnext]
    split_ifs with hfails
    · have := hskip hfails
      rw [List.length_nil]
      omega
    · have hlength := dueFrom_length i skip j (b.counterAt i skip j) 0 (b.specCount j)
      simpa using hlength

lemma due_length (b : BatchPass) (i skip j : ℕ) :
    skip + (b.due i skip j).length = max (b.counterAt i skip j) skip := by
  induction j with
  | zero => simp [BatchPass.due, BatchPass.counterAt]
  | succ j ih =>
    rw [BatchPass.due, List.length_append, ← dueAt_length, ← ih, Nat.add_assoc]

lemma dueAt_getElem? (h : (b.dueAt i skip j)[m]? = some a) : a.symbol = i ∧ a.timeframe = j ∧
    a.spec < b.specCount j ∧ b.fetchFails i j = false ∧
      b.counterAt i skip j + a.spec = max (b.counterAt i skip j) skip + m := by
  rw [BatchPass.dueAt] at h
  split_ifs at h with hfails
  · simp at h
  · obtain ⟨hsymbol, htimeframe, _, hlt, hplace⟩ := dueFrom_getElem? h
    exact ⟨hsymbol, htimeframe, by omega, by simpa using hfails, by simpa using hplace⟩

lemma due_getElem? (h : (b.due i skip j)[m]? = some a) : a.symbol = i ∧ a.timeframe < j ∧
    a.spec < b.specCount a.timeframe ∧ b.fetchFails i a.timeframe = false ∧
      b.counterAt i skip a.timeframe + a.spec = skip + m := by
  induction j with
  | zero => simp [BatchPass.due] at h
  | succ j ih =>
    rw [BatchPass.due, List.getElem?_append] at h
    split_ifs at h with hbefore
    · obtain ⟨hsymbol, hlt, hrest⟩ := ih h
      exact ⟨hsymbol, Nat.lt_succ_of_lt hlt, hrest⟩
    · obtain ⟨hsymbol, rfl, hspec, hfails, hplace⟩ := dueAt_getElem? h
      have hlength := due_length b i skip a.timeframe
      exact ⟨hsymbol, Nat.lt_succ_self _, hspec, hfails, by omega⟩

lemma mem_due : a ∈ b.due i skip j ↔ a.symbol = i ∧ a.timeframe < j ∧ a.spec < b.specCount a.timeframe ∧
    b.fetchFails i a.timeframe = false ∧ skip ≤ b.counterAt i skip a.timeframe + a.spec := by
  constructor
  · intro ha
    obtain ⟨m, hm⟩ := List.mem_iff_getElem?.mp ha
    obtain ⟨hsymbol, hlt, hspec, hfails, hplace⟩ := due_getElem? hm
    exact ⟨hsymbol, hlt, hspec, hfails, by omega⟩
  · rintro ⟨hsymbol, hlt, hspec, hfails, hplace⟩
    induction j with
    | zero => omega
    | succ j ih =>
      rw [BatchPass.due, List.mem_append]
      rcases Nat.lt_succ_iff_lt_or_eq.mp hlt with hlt | rfl
      · exact .inl (ih hlt)
      · refine .inr ?_
        rw [BatchPass.dueAt, if_neg (by simp [hfails]), BatchPass.dueFrom, List.mem_map]
        refine ⟨a.spec, List.mem_filter.mpr ⟨List.mem_range'_1.mpr ⟨Nat.zero_le _, by omega⟩, by simpa using hplace⟩, ?_⟩
        rw [← hsymbol]

lemma mem_due_take : a ∈ (b.due i skip j).take n ↔
    a ∈ b.due i skip j ∧ b.counterAt i skip a.timeframe + a.spec < skip + n := by
  simp only [List.mem_iff_getElem?, List.getElem?_take]
  constructor
  · rintro ⟨m, hm⟩
    split_ifs at hm with hlt
    have hplace := (due_getElem? hm).2.2.2.2
    exact ⟨⟨m, hm⟩, by omega⟩
  · rintro ⟨⟨m, hm⟩, hplace⟩
    have hcount := (due_getElem? hm).2.2.2.2
    exact ⟨m, by rw [if_pos (by omega), hm]⟩

lemma due_nodup : (b.due i skip j).Nodup := by
  rw [List.nodup_iff_getElem?_ne_getElem?]
  intro m n hlt hn heq
  obtain ⟨a, ha⟩ : ∃ a, (b.due i skip j)[n]? = some a := ⟨_, List.getElem?_eq_getElem hn⟩
  have hm := (due_getElem? (heq.trans ha)).2.2.2.2
  have hn := (due_getElem? ha).2.2.2.2
  omega

lemma due_initial (b : BatchPass) (i skip : ℕ) {j' : ℕ} (h : j ≤ j') : b.due i skip j <+: b.due i skip j' := by
  induction j', h using Nat.le_induction with
  | base => exact List.prefix_rfl
  | succ j' _ ih => exact ih.trans (List.prefix_append _ _)

lemma due_take {j' : ℕ} (h : j < j') (hn : n ≤ (b.dueAt i skip j).length) :
    b.due i skip j ++ (b.dueAt i skip j).take n = (b.due i skip j').take ((b.due i skip j).length + n) := by
  obtain ⟨rest, hrest⟩ := due_initial b i skip (Nat.succ_le_of_lt h)
  rw [← hrest, BatchPass.due, List.append_assoc, List.take_append, List.take_of_length_le (Nat.le_add_right _ _),
    Nat.add_sub_cancel_left, List.take_append_of_le_length hn]

lemma mem_failed {j' : ℕ} : (i, j') ∈ b.failed i skip j ↔
    j' < j ∧ skip < b.counterAt i skip j' + b.specCount j' ∧ b.fetchFails i j' = true := by
  induction j with
  | zero => simp [BatchPass.failed]
  | succ j ih =>
    rw [BatchPass.failed, List.mem_append, ih, BatchPass.failedAt]
    split_ifs with h
    · simp only [List.mem_singleton, Prod.mk.injEq, true_and]
      constructor
      · rintro (⟨hlt, hrest⟩ | rfl)
        · exact ⟨Nat.lt_succ_of_lt hlt, hrest⟩
        · exact ⟨Nat.lt_succ_self _, h⟩
      · rintro ⟨hlt, hrest⟩
        rcases Nat.lt_succ_iff_lt_or_eq.mp hlt with hlt | rfl
        · exact .inl ⟨hlt, hrest⟩
        · exact .inr rfl
    · simp only [List.not_mem_nil, or_false]
      constructor
      · rintro ⟨hlt, hrest⟩
        exact ⟨Nat.lt_succ_of_lt hlt, hrest⟩
      · rintro ⟨hlt, hrest⟩
        rcases Nat.lt_succ_iff_lt_or_eq.mp hlt with hlt | rfl
        · exact ⟨hlt, hrest⟩
        · exact absurd hrest h

lemma mem_failed_symbol {pair : ℕ × ℕ} (h : pair ∈ b.failed i skip j) : pair.1 = i := by
  induction j with
  | zero => simp [BatchPass.failed] at h
  | succ j ih =>
    rw [BatchPass.failed, List.mem_append, BatchPass.failedAt] at h
    rcases h with h | h
    · exact ih h
    · split_ifs at h
      · rw [List.mem_singleton.mp h]
      · cases h

end Due

section Lag

variable {b : BatchPass} {i skip j j' k : ℕ}

lemma counterAt_mono (h : j ≤ j') : b.counterAt i skip j ≤ b.counterAt i skip j' := by
  induction j', h using Nat.le_induction with
  | base => exact le_rfl
  | succ j' _ ih =>
    rcases counterAt_succ_cases b i skip j' with ⟨_, _, hnext⟩ | ⟨hnext, _⟩ <;> omega

/-- Behind a failed fetch the counter falls back, and it never catches up. -/
lemma lag_mono (b : BatchPass) (i skip : ℕ) (h : j ≤ j') :
    b.flatAt j + b.counterAt i skip j' ≤ b.flatAt j' + b.counterAt i skip j := by
  induction j', h using Nat.le_induction with
  | base => exact le_rfl
  | succ j' _ ih =>
    rw [BatchPass.flatAt]
    rcases counterAt_succ_cases b i skip j' with ⟨_, _, hnext⟩ | ⟨hnext, _⟩ <;> omega

lemma counterAt_le_flatAt : b.counterAt i skip j ≤ b.flatAt j := by
  have h := lag_mono b i skip (Nat.zero_le j)
  simpa [BatchPass.flatAt, BatchPass.counterAt] using h

lemma flatAt_mono (h : j ≤ j') : b.flatAt j ≤ b.flatAt j' := by
  induction j', h using Nat.le_induction with
  | base => exact le_rfl
  | succ j' _ ih => exact ih.trans (Nat.le_add_right _ _)

lemma counterAt_lt_later (hspec : k < b.specCount j) (hfails : b.fetchFails i j = false) (h : j < j') :
    b.counterAt i skip j + k < b.counterAt i skip j' := by
  have hnext : b.counterAt i skip (j + 1) = b.counterAt i skip j + b.specCount j := by
    rw [BatchPass.counterAt, if_neg (by simp [hfails])]
  have hlater : b.counterAt i skip (j + 1) ≤ b.counterAt i skip j' := counterAt_mono h
  omega

lemma specCount_pos (h : k < b.specCount j) : j < b.scanTimeframes.length := by
  by_contra hge
  rw [BatchPass.specCount, List.getElem?_eq_none (not_lt.mp hge)] at h
  simp at h

end Lag

end AlgoTrader.Backtesting
