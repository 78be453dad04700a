import AlgoTrader.Backtesting.BatchUnits

/-! What one pass attempts, and where it says it stopped. -/

namespace AlgoTrader.Backtesting

namespace BatchPass

variable (b : BatchPass)

def startOf (i : ℕ) : ℕ := if i = 0 then b.skipUnits else 0

def dueIn (i : ℕ) : List UnitAt := b.due i (b.startOf i) b.scanTimeframes.length

def failedIn (i : ℕ) : List (ℕ × ℕ) := b.failed i (b.startOf i) b.scanTimeframes.length

def progressFrom : ℕ → ℕ → ℚ → ℕ × Option (ℕ × ℕ)
  | 0, c, _ => (c, none)
  | left + 1, c, elapsed =>
    if b.late { elapsed := elapsed } then (c, none)
    else
      match b.clockOrStop c (b.startOf c) b.scanTimeframes 0 elapsed with
      | .inr place => (c + 1, some place)
      | .inl elapsed => progressFrom left (c + 1) elapsed

/-- How many symbols the pass comes to before the deadline and, where the deadline stops it in the last of them,
the timeframe and the number of its due units that are run. -/
def progress : ℕ × Option (ℕ × ℕ) := b.progressFrom b.rotatedUniverse.length 0 0

structure Swept (s : PassState) (c : ℕ) : Prop where
  covered : s.symbolsCovered = c
  resume : s.resumeUnit = 0
  mid : s.stoppedMidSymbol = false
  attempted : s.attempted = (List.range c).flatMap b.dueIn
  failed : s.failedFetches = (List.range c).flatMap b.failedIn

def StopsIn (s : PassState) (c j n : ℕ) : Prop :=
  ∃ before, b.Swept before c ∧ b.StoppedAt c (b.startOf c) before.coverSymbol s j n

end BatchPass

variable {b : BatchPass} {s : PassState} {c : ℕ}

lemma BatchPass.Swept.next {t : PassState} (h : b.Swept s c)
    (hvisit : b.Reached c (b.startOf c) s.coverSymbol t b.scanTimeframes.length) : b.Swept t (c + 1) := by
  refine ⟨?_, ?_, ?_, ?_, ?_⟩
  · rw [hvisit.kept.covered, ← h.covered]
    rfl
  · exact hvisit.kept.resume.trans h.resume
  · exact hvisit.kept.mid.trans h.mid
  · rw [hvisit.attempted, List.range_succ, List.flatMap_append, ← h.attempted, List.flatMap_singleton]
    rfl
  · rw [hvisit.failed, List.range_succ, List.flatMap_append, ← h.failed, List.flatMap_singleton]
    rfl

lemma runSymbols_cases (symbols : List String) (h : b.Swept s c) (hrunning : s.truncated = false) :
    let t := b.runSymbols symbols c (b.startOf c) s
    (∃ c', c ≤ c' ∧ c' ≤ c + symbols.length ∧ b.Swept t c' ∧ (c' = c → symbols = [] ∨ b.late s = true) ∧
        b.progressFrom symbols.length c s.elapsed = (c', none)) ∨
      ∃ c' j n, c ≤ c' ∧ c' < c + symbols.length ∧ b.StopsIn t c' j n ∧
        b.progressFrom symbols.length c s.elapsed = (c' + 1, some (j, n)) := by
  induction symbols generalizing c s with
  | nil => exact .inl ⟨c, le_rfl, le_rfl, h, fun _ => .inl rfl, rfl⟩
  | cons symbol symbols ih =>
    rw [BatchPass.runSymbols, List.length_cons, BatchPass.progressFrom]
    dsimp only
    by_cases hlate : b.late s = true
    · have hcheck : b.late { elapsed := s.elapsed } = true := hlate
      rw [if_pos hlate, if_pos hcheck]
      exact .inl ⟨c, le_rfl, by omega, ⟨h.covered, h.resume, h.mid, h.attempted, h.failed⟩, fun _ => .inr hlate, rfl⟩
    have hearly : ¬ b.late { elapsed := s.elapsed } = true := hlate
    have hclock : s.coverSymbol.elapsed = s.elapsed := rfl
    rw [if_neg hlate, if_neg hearly]
    generalize hu : b.runTimeframes symbol c (b.startOf c) b.scanTimeframes 0 0 s.coverSymbol = u
    have hstart : b.Reached c (b.startOf c) s.coverSymbol s.coverSymbol 0 :=
      ⟨⟨rfl, rfl, rfl, rfl⟩, by simp [BatchPass.due], by simp [BatchPass.failed]⟩
    rcases runTimeframes_cases (s := s.coverSymbol) List.drop_zero (Nat.zero_le _) hrunning hstart hu with
      ⟨hvisit, hthrough⟩ | ⟨j, n, hstop, hplace⟩
    · rw [hclock] at hthrough
      rw [hthrough]
      have hgoes : u.truncated = false := hvisit.kept.truncated.trans hrunning
      have hzero : b.startOf (c + 1) = 0 := rfl
      rw [hgoes, if_neg Bool.false_ne_true, ← hzero]
      rcases ih (h.next hvisit) hgoes with ⟨c', hge, hle, hswept, _, hprogress⟩ | ⟨c', j, n, hge, hlt, hstop, hprogress⟩
      · exact .inl ⟨c', by omega, by omega, hswept, fun heq => by omega, hprogress⟩
      · exact .inr ⟨c', j, n, by omega, by omega, hstop, hprogress⟩
    · rw [hclock] at hplace
      rw [hstop.stop.truncated, if_pos rfl, hplace]
      exact .inr ⟨c, j, n, le_rfl, by omega, ⟨s, h, hstop⟩, rfl⟩

lemma not_late_start : b.late {} = false := by
  rw [BatchPass.late]
  cases b.deadlineSeconds with
  | none => rfl
  | some deadline =>
    simp only [decide_eq_false_iff_not, not_and, not_le]
    exact id

lemma swept_start : b.Swept {} 0 := ⟨rfl, rfl, rfl, rfl, rfl⟩

theorem run_pass_cases (b : BatchPass) :
    (∃ c ≤ b.rotatedUniverse.length, b.Swept b.run c ∧ (c = 0 → b.rotatedUniverse = []) ∧ b.progress = (c, none)) ∨
      ∃ c j n, c < b.rotatedUniverse.length ∧ b.StopsIn b.run c j n ∧ b.progress = (c + 1, some (j, n)) := by
  rcases runSymbols_cases b.rotatedUniverse swept_start rfl with
    ⟨c, _, hle, hswept, hnone, hprogress⟩ | ⟨c, j, n, _, hlt, hstop, hprogress⟩
  · refine .inl ⟨c, by omega, hswept, fun hzero => ?_, hprogress⟩
    rcases hnone hzero with hnil | hlate
    · exact hnil
    · exact absurd hlate (by simp [not_late_start])
  · exact .inr ⟨c, j, n, by omega, hstop, hprogress⟩

structure BatchPass.StopSpec (b : BatchPass) (s : PassState) (c j m : ℕ) : Prop where
  covered : s.symbolsCovered = c + 1
  mid : s.stoppedMidSymbol = true
  resume : s.resumeUnit = b.startOf c + m
  resume_le : s.resumeUnit ≤ b.unitCount
  due : m ≤ (b.dueIn c).length
  attempted : s.attempted = (List.range c).flatMap b.dueIn ++ (b.dueIn c).take m
  failed : s.failedFetches = (List.range c).flatMap b.failedIn ++ b.failed c (b.startOf c) j
  lt : j < b.scanTimeframes.length
  reached : ∀ j' k, k < b.specCount j' → b.fetchFails c j' = true → b.startOf c ≤ b.flatAt j' + k →
    b.flatAt j' + k < s.resumeUnit → j' < j

lemma resume_bound {i skip j n : ℕ} (hdue : skip < b.counterAt i skip j + b.specCount j)
    (hwithin : n = 0 ∨ n < (b.dueAt i skip j).length) :
    max (b.counterAt i skip j) skip + n ≤ b.counterAt i skip j + b.specCount j := by
  have hlength := dueAt_length b i skip j
  rcases counterAt_succ_cases b i skip j with ⟨_, _, hnext⟩ | ⟨hnext, _⟩ <;> omega

lemma BatchPass.StopsIn.spec {j n : ℕ} (h : b.StopsIn s c j n) : ∃ m, b.StopSpec s c j m := by
  obtain ⟨before, hswept, hstop⟩ := h
  have hlength : n ≤ (b.dueAt c (b.startOf c) j).length := by
    rcases hstop.within with hzero | hlt <;> omega
  have hcount := due_length b c (b.startOf c) j
  have hbound := resume_bound hstop.notSkipped hstop.within
  have hresume : s.resumeUnit = b.startOf c + ((b.due c (b.startOf c) j).length + n) := by
    rw [hstop.stop.resume, ← hcount, Nat.add_assoc]
  have hle : b.counterAt c (b.startOf c) j ≤ b.flatAt j := counterAt_le_flatAt
  refine ⟨(b.due c (b.startOf c) j).length + n, ?_, hstop.stop.mid, hresume, ?_, ?_, ?_, ?_, hstop.lt, ?_⟩
  · rw [hstop.stop.covered, ← hswept.covered]
    rfl
  · have htotal : b.flatAt (j + 1) ≤ b.unitCount := flatAt_mono hstop.lt
    rw [BatchPass.flatAt] at htotal
    rw [hstop.stop.resume]
    omega
  · have hprefix := (due_initial b c (b.startOf c) (Nat.succ_le_of_lt hstop.lt)).length_le
    rw [BatchPass.due, List.length_append] at hprefix
    exact (Nat.add_le_add_left hlength _).trans hprefix
  · rw [hstop.attempted, due_take hstop.lt hlength, ← hswept.attempted]
    rfl
  · rw [hstop.failed, ← hswept.failed]
    rfl
  · intro j' k hk hfails hstart hbefore
    rw [hstop.stop.resume] at hbefore
    by_contra hge
    rcases (not_lt.mp hge).eq_or_lt with rfl | hlater
    · -- a timeframe whose fetch fails has no due unit, so the stop came before its fetch
      have hnone : n = 0 := by
        have hempty : b.dueAt c (b.startOf c) j = [] := by rw [BatchPass.dueAt, if_pos hfails]
        simpa [hempty] using hlength
      omega
    · have hmono : b.flatAt (j + 1) ≤ b.flatAt j' := flatAt_mono hlater
      rw [BatchPass.flatAt] at hmono
      omega

def BatchPass.stoppedIn (b : BatchPass) (i : ℕ) : Prop :=
  b.run.stoppedMidSymbol = true ∧ b.run.symbolsCovered = i + 1

section Members

variable {i j k : ℕ} {a : UnitAt}

lemma mem_dueIn : a ∈ b.dueIn i ↔ a.symbol = i ∧ a.spec < b.specCount a.timeframe ∧
    b.fetchFails i a.timeframe = false ∧ b.startOf i ≤ b.counterAt i (b.startOf i) a.timeframe + a.spec := by
  rw [BatchPass.dueIn, mem_due]
  constructor
  · rintro ⟨hsymbol, _, hrest⟩
    exact ⟨hsymbol, hrest⟩
  · rintro ⟨hsymbol, hspec, hrest⟩
    exact ⟨hsymbol, specCount_pos hspec, hspec, hrest⟩

lemma mem_flatMap_dueIn : a ∈ (List.range c).flatMap b.dueIn ↔ a.symbol < c ∧ a ∈ b.dueIn a.symbol := by
  rw [List.mem_flatMap]
  constructor
  · rintro ⟨i, hi, ha⟩
    obtain rfl := (mem_dueIn.mp ha).1
    exact ⟨List.mem_range.mp hi, ha⟩
  · rintro ⟨hlt, ha⟩
    exact ⟨a.symbol, List.mem_range.mpr hlt, ha⟩

theorem mem_attempted : a ∈ b.run.attempted ↔ a.symbol < b.run.symbolsCovered ∧ a ∈ b.dueIn a.symbol ∧
    (b.stoppedIn a.symbol →
      b.counterAt a.symbol (b.startOf a.symbol) a.timeframe + a.spec < b.run.resumeUnit) := by
  rcases run_pass_cases b with ⟨c, _, hswept, _⟩ | ⟨c, j, n, _, hstops, _⟩
  · rw [hswept.attempted, hswept.covered, mem_flatMap_dueIn]
    have hmid : ¬ b.stoppedIn a.symbol := fun hstopped => absurd hstopped.1 (by simp [hswept.mid])
    simp [hmid]
  · obtain ⟨m, hstop⟩ := hstops.spec
    rw [hstop.attempted, hstop.covered, hstop.resume, List.mem_append, mem_flatMap_dueIn]
    constructor
    · rintro (⟨hlt, hdue⟩ | htake)
      · refine ⟨by omega, hdue, fun hstopped => ?_⟩
        have := hstop.covered.symm.trans hstopped.2
        omega
      · obtain ⟨hdue, hplace⟩ := mem_due_take.mp htake
        obtain rfl := (mem_dueIn.mp hdue).1
        exact ⟨Nat.lt_succ_self _, hdue, fun _ => hplace⟩
    · rintro ⟨hlt, hdue, hplace⟩
      rcases Nat.lt_succ_iff_lt_or_eq.mp hlt with hlt | rfl
      · exact .inl ⟨hlt, hdue⟩
      · exact .inr (mem_due_take.mpr ⟨hdue, hplace ⟨hstop.mid, hstop.covered⟩⟩)

lemma mem_flatMap_failedIn : (i, j) ∈ (List.range c).flatMap b.failedIn ↔ i < c ∧ (i, j) ∈ b.failedIn i := by
  rw [List.mem_flatMap]
  constructor
  · rintro ⟨i', hi, hmem⟩
    obtain rfl : i = i' := mem_failed_symbol hmem
    exact ⟨List.mem_range.mp hi, hmem⟩
  · rintro ⟨hlt, hmem⟩
    exact ⟨i, List.mem_range.mpr hlt, hmem⟩

lemma failed_of_mem (h : (i, j) ∈ b.run.failedFetches) :
    b.startOf i < b.counterAt i (b.startOf i) j + b.specCount j ∧ b.fetchFails i j = true := by
  rcases run_pass_cases b with ⟨c, _, hswept, _⟩ | ⟨c, j', n, _, hstops, _⟩
  · rw [hswept.failed, mem_flatMap_failedIn] at h
    exact (mem_failed.mp h.2).2
  · obtain ⟨m, hstop⟩ := hstops.spec
    rw [hstop.failed, List.mem_append, mem_flatMap_failedIn] at h
    rcases h with ⟨_, h⟩ | h
    · exact (mem_failed.mp h).2
    · obtain rfl : i = c := mem_failed_symbol h
      exact (mem_failed.mp h).2

lemma mem_failedFetches (hi : i < b.run.symbolsCovered) (hk : k < b.specCount j) (hfails : b.fetchFails i j = true)
    (hdue : b.startOf i < b.counterAt i (b.startOf i) j + b.specCount j) (hstart : b.startOf i ≤ b.flatAt j + k)
    (hbefore : b.stoppedIn i → b.flatAt j + k < b.run.resumeUnit) : (i, j) ∈ b.run.failedFetches := by
  rcases run_pass_cases b with ⟨c, _, hswept, _⟩ | ⟨c, j', n, _, hstops, _⟩
  · rw [hswept.covered] at hi
    rw [hswept.failed, mem_flatMap_failedIn]
    exact ⟨hi, mem_failed.mpr ⟨specCount_pos hk, hdue, hfails⟩⟩
  · obtain ⟨m, hstop⟩ := hstops.spec
    rw [hstop.covered] at hi
    rw [hstop.failed, List.mem_append, mem_flatMap_failedIn]
    rcases Nat.lt_succ_iff_lt_or_eq.mp hi with hlt | rfl
    · exact .inl ⟨hlt, mem_failed.mpr ⟨specCount_pos hk, hdue, hfails⟩⟩
    · have hreached := hstop.reached j k hk hfails hstart (hbefore ⟨hstop.mid, hstop.covered⟩)
      exact .inr (mem_failed.mpr ⟨hreached, hdue, hfails⟩)

lemma flatMap_dueIn_nodup : ((List.range c).flatMap b.dueIn).Nodup := by
  refine List.nodup_flatMap.mpr ⟨fun i _ => due_nodup, ?_⟩
  refine List.nodup_range.imp_of_mem fun {i j} _ _ hij => ?_
  intro a ha hb
  exact hij ((mem_dueIn.mp ha).1.symm.trans (mem_dueIn.mp hb).1)

lemma attempted_nodup (b : BatchPass) : b.run.attempted.Nodup := by
  rcases run_pass_cases b with ⟨c, _, hswept, _⟩ | ⟨c, j, n, _, hstops, _⟩
  · rw [hswept.attempted]
    exact flatMap_dueIn_nodup
  · obtain ⟨m, hstop⟩ := hstops.spec
    rw [hstop.attempted]
    refine List.nodup_append.mpr ⟨flatMap_dueIn_nodup, due_nodup.sublist (List.take_sublist _ _), ?_⟩
    rintro a ha a' ha' rfl
    have hlt := (mem_flatMap_dueIn.mp ha).1
    have heq := (mem_dueIn.mp (List.mem_of_mem_take ha')).1
    omega

end Members

/-- Per symbol, the pass attempts the units at or after its start, but for timeframes whose fetch
failed, and if it stopped there those before the resume unit. -/
structure BatchPass.Exact (b : BatchPass) : Prop where
  once : b.run.attempted.Nodup
  units : ∀ i j k, ⟨i, j, k⟩ ∈ b.run.attempted ↔ i < b.run.symbolsCovered ∧ k < b.specCount j ∧
    (i, j) ∉ b.run.failedFetches ∧ b.startOf i ≤ b.flatAt j + k ∧
      (b.stoppedIn i → b.flatAt j + k < b.run.resumeUnit)

/-- The counter takes a unit that is not done for one that is. -/
def BatchPass.PassesOver (b : BatchPass) (i j k : ℕ) : Prop :=
  k < b.specCount j ∧ b.startOf i ≤ b.flatAt j + k ∧ b.counterAt i (b.startOf i) j + k < b.startOf i ∧
    (b.fetchFails i j = true → b.counterAt i (b.startOf i) j + b.specCount j ≤ b.startOf i)

/-- In a symbol it goes through the counter passes over nothing; where the deadline is found passed in the symbol,
the counter of every unit run before that check is its flattened index. -/
structure BatchPass.WellCounted (b : BatchPass) (i : ℕ) : Prop where
  completed : (∀ place, b.progress ≠ (i + 1, some place)) → ∀ j k, ¬ b.PassesOver i j k
  stopped : ∀ j n, b.progress = (i + 1, some (j, n)) →
    ∀ a ∈ b.due i (b.startOf i) j ++ (b.dueAt i (b.startOf i) j).take n,
      b.counterAt i (b.startOf i) a.timeframe = b.flatAt a.timeframe

section Exact

variable {i j k : ℕ}

lemma run_stoppedIn (h : b.stoppedIn i) : ∃ j m, b.StopSpec b.run i j m := by
  rcases run_pass_cases b with ⟨c, _, hswept, _⟩ | ⟨c, j, n, _, hstops, _⟩
  · exact absurd h.1 (by simp [hswept.mid])
  · obtain ⟨m, hstop⟩ := hstops.spec
    obtain rfl : c = i := Nat.succ.inj (hstop.covered.symm.trans h.2)
    exact ⟨j, m, hstop⟩

lemma progress_fst (b : BatchPass) : b.progress.1 = b.run.symbolsCovered := by
  rcases run_pass_cases b with ⟨c, _, hswept, _, hprogress⟩ | ⟨c, j, n, _, hstops, hprogress⟩
  · rw [hprogress, hswept.covered]
  · obtain ⟨m, hstop⟩ := hstops.spec
    rw [hprogress, hstop.covered]

lemma stoppedIn_iff : b.stoppedIn i ↔ ∃ place, b.progress = (i + 1, some place) := by
  rcases run_pass_cases b with ⟨c, _, hswept, _, hprogress⟩ | ⟨c, j, n, _, hstops, hprogress⟩
  · rw [hprogress]
    refine iff_of_false (fun hstopped => absurd hstopped.1 (by simp [hswept.mid])) ?_
    rintro ⟨place, hplace⟩
    exact absurd (Prod.mk.inj hplace).2 (Option.some_ne_none place).symm
  · obtain ⟨m, hstop⟩ := hstops.spec
    rw [hprogress]
    constructor
    · rintro ⟨_, hcovered⟩
      exact ⟨(j, n), by rw [← hcovered, hstop.covered]⟩
    · rintro ⟨place, hplace⟩
      exact ⟨hstop.mid, hstop.covered.trans (Prod.mk.inj hplace).1⟩

lemma mem_stopped {n : ℕ} {a : UnitAt} (h : b.progress = (i + 1, some (j, n))) :
    a ∈ b.due i (b.startOf i) j ++ (b.dueAt i (b.startOf i) j).take n ↔ a ∈ b.run.attempted ∧ a.symbol = i := by
  rcases run_pass_cases b with ⟨c, _, _, _, hprogress⟩ | ⟨c, j', n', _, ⟨before, hswept, hstop⟩, hprogress⟩
  · exact absurd (Prod.mk.inj (hprogress.symm.trans h)).2 (Option.some_ne_none _).symm
  · obtain ⟨hc, hplace⟩ := Prod.mk.inj (hprogress.symm.trans h)
    obtain rfl := Nat.succ.inj hc
    obtain ⟨rfl, rfl⟩ := Prod.mk.inj (Option.some.inj hplace)
    have hearlier : a ∈ before.coverSymbol.attempted → a.symbol < c := fun hmem =>
      (mem_flatMap_dueIn.mp (hswept.attempted ▸ hmem)).1
    have hhere : a ∈ b.due c (b.startOf c) j' ++ (b.dueAt c (b.startOf c) j').take n' → a.symbol = c := fun hmem => by
      rcases List.mem_append.mp hmem with hdue | hdue
      · exact (mem_due.mp hdue).1
      · have hnext : a ∈ b.due c (b.startOf c) (j' + 1) := List.mem_append_right _ (List.mem_of_mem_take hdue)
        exact (mem_due.mp hnext).1
    rw [hstop.attempted]
    constructor
    · intro hmem
      exact ⟨List.mem_append_right _ hmem, hhere hmem⟩
    · rintro ⟨hmem, hsymbol⟩
      exact (List.mem_append.mp hmem).resolve_left fun hbefore => (hearlier hbefore).ne hsymbol

lemma BatchPass.StopSpec.attempted_at {m n : ℕ} (h : b.StopSpec b.run i j m) (hn : n < m) :
    ∃ a ∈ b.run.attempted, a.symbol = i ∧ a.spec < b.specCount a.timeframe ∧ b.fetchFails i a.timeframe = false ∧
      b.counterAt i (b.startOf i) a.timeframe + a.spec = b.startOf i + n := by
  obtain ⟨a, ha⟩ : ∃ a, (b.dueIn i)[n]? = some a := ⟨_, List.getElem?_eq_getElem (hn.trans_le h.due)⟩
  obtain ⟨hsymbol, _, hspec, hfails, hplace⟩ := due_getElem? ha
  refine ⟨a, ?_, hsymbol, hspec, hfails, hplace⟩
  rw [h.attempted, List.mem_append]
  exact .inr (List.mem_of_getElem? ((List.getElem?_take_of_lt hn).trans ha))

/-- In counter order, a unit of a fetched timeframe is not in a later timeframe. -/
lemma timeframe_le_of_counter (skip k' : ℕ) {j' : ℕ} (hk : k < b.specCount j) (hfails : b.fetchFails i j = false)
    (hle : b.counterAt i skip j' + k' ≤ b.counterAt i skip j + k) : j' ≤ j := by
  by_contra hlt
  have hlater : b.counterAt i skip j + k < b.counterAt i skip j' := counterAt_lt_later hk hfails (not_le.mp hlt)
  omega

lemma BatchPass.Exact.wellCounted (h : b.Exact) (hi : i < b.run.symbolsCovered) : b.WellCounted i := by
  constructor
  · rintro hthrough j k ⟨hk, hstart, hpassed, hfetch⟩
    have hnot : (i, j) ∉ b.run.failedFetches := by
      intro hmem
      obtain ⟨hdue, hfails⟩ := failed_of_mem hmem
      have := hfetch hfails
      omega
    have hattempted := (h.units i j k).mpr ⟨hi, hk, hnot, hstart, fun hstopped => by
      obtain ⟨place, hplace⟩ := stoppedIn_iff.mp hstopped
      exact absurd hplace (hthrough place)⟩
    have := (mem_dueIn.mp (mem_attempted.mp hattempted).2.1).2.2.2
    dsimp only at this
    omega
  · intro j n hprogress a hrun
    obtain ⟨ha, hsymbol⟩ := (mem_stopped hprogress).mp hrun
    have hstopped : b.stoppedIn i := stoppedIn_iff.mpr ⟨_, hprogress⟩
    obtain ⟨_, m, hstop⟩ := run_stoppedIn hstopped
    obtain ⟨_, hdue, hplace⟩ := mem_attempted.mp ha
    rw [hsymbol] at hdue hplace
    obtain ⟨_, hspec, hfails, hstart⟩ := mem_dueIn.mp hdue
    have hbefore := hplace hstopped
    rw [hstop.resume] at hbefore
    -- the last unit attempted before the stop lags at least as much as `a`
    obtain ⟨last, hlast, rfl, hlastSpec, hlastFails, hlastPlace⟩ := hstop.attempted_at (n := m - 1) (by omega)
    have horder : a.timeframe ≤ last.timeframe :=
      timeframe_le_of_counter (b.startOf last.symbol) a.spec hlastSpec hlastFails (by omega)
    have hlag := lag_mono b last.symbol (b.startOf last.symbol) horder
    have hresume := ((h.units _ _ _).mp hlast).2.2.2.2 hstopped
    rw [hstop.resume] at hresume
    have hle : b.counterAt last.symbol (b.startOf last.symbol) a.timeframe ≤ b.flatAt a.timeframe := counterAt_le_flatAt
    omega

lemma due_of_not_passedOver (h : ¬ b.PassesOver i j k) (hi : i < b.run.symbolsCovered) (hk : k < b.specCount j)
    (hfailed : (i, j) ∉ b.run.failedFetches) (hstart : b.startOf i ≤ b.flatAt j + k)
    (hbefore : b.stoppedIn i → b.flatAt j + k < b.run.resumeUnit) :
    b.fetchFails i j = false ∧ b.startOf i ≤ b.counterAt i (b.startOf i) j + k := by
  have hdue : b.fetchFails i j = true → b.counterAt i (b.startOf i) j + b.specCount j ≤ b.startOf i :=
    fun hfails => not_lt.mp fun hlt => hfailed (mem_failedFetches hi hk hfails hlt hstart hbefore)
  have hcounter : b.startOf i ≤ b.counterAt i (b.startOf i) j + k :=
    not_lt.mp fun hpassed => h ⟨hk, hstart, hpassed, hdue⟩
  refine ⟨?_, hcounter⟩
  by_contra hfails
  have := hdue (by simpa using hfails)
  omega

lemma attempted_of_due (hi : i < b.run.symbolsCovered) (hk : k < b.specCount j) (hfails : b.fetchFails i j = false)
    (hcounter : b.startOf i ≤ b.counterAt i (b.startOf i) j + k)
    (hbefore : b.stoppedIn i → b.flatAt j + k < b.run.resumeUnit) : ⟨i, j, k⟩ ∈ b.run.attempted := by
  refine mem_attempted.mpr ⟨hi, mem_dueIn.mpr ⟨rfl, hk, hfails, hcounter⟩, fun hstopped => ?_⟩
  have hle : b.counterAt i (b.startOf i) j ≤ b.flatAt j := counterAt_le_flatAt
  have hlt := hbefore hstopped
  exact lt_of_le_of_lt (Nat.add_le_add_right hle k) hlt

lemma BatchPass.WellCounted.of_attempted {a : UnitAt} (h : b.WellCounted i) (hstopped : b.stoppedIn i)
    (ha : a ∈ b.run.attempted) (hsymbol : a.symbol = i) :
    b.counterAt i (b.startOf i) a.timeframe = b.flatAt a.timeframe := by
  obtain ⟨⟨j, n⟩, hprogress⟩ := stoppedIn_iff.mp hstopped
  exact h.stopped j n hprogress a ((mem_stopped hprogress).mpr ⟨ha, hsymbol⟩)

lemma BatchPass.WellCounted.not_passedOver (h : b.WellCounted i)
    (hbefore : b.stoppedIn i → b.flatAt j + k < b.run.resumeUnit) : ¬ b.PassesOver i j k := by
  intro hover
  by_cases hstopped : b.stoppedIn i
  · -- the first unit attempted comes after this one, and it does not lag
    obtain ⟨hk, hstart, hpassed, _⟩ := hover
    obtain ⟨_, m, hstop⟩ := run_stoppedIn hstopped
    have hresume := hbefore hstopped
    rw [hstop.resume] at hresume
    obtain ⟨first, hfirst, hsymbol, hspec, hfails, hplace⟩ := hstop.attempted_at (n := 0) (by omega)
    have horder : j ≤ first.timeframe := timeframe_le_of_counter (b.startOf i) k hspec hfails (by omega)
    have hlag := lag_mono b i (b.startOf i) horder
    have hexact := h.of_attempted hstopped hfirst hsymbol
    omega
  · exact h.completed (fun place hplace => hstopped (stoppedIn_iff.mpr ⟨place, hplace⟩)) j k hover

theorem pass_exact_iff : b.Exact ↔ ∀ i < b.progress.1, b.WellCounted i := by
  rw [progress_fst]
  constructor
  · intro hexact i hi
    exact hexact.wellCounted hi
  · intro hcounted
    refine ⟨attempted_nodup b, fun i j k => ⟨?_, ?_⟩⟩
    · intro hmem
      obtain ⟨hi, hdue, hplace⟩ := mem_attempted.mp hmem
      obtain ⟨_, hspec, hfails, hstart⟩ := mem_dueIn.mp hdue
      dsimp only at hi hspec hfails hstart hplace
      have hle : b.counterAt i (b.startOf i) j ≤ b.flatAt j := counterAt_le_flatAt
      refine ⟨hi, hspec, ?_, by omega, fun hstopped => ?_⟩
      · intro hfailed
        exact absurd (failed_of_mem hfailed).2 (by simp [hfails])
      · have heq := (hcounted i hi).of_attempted hstopped hmem rfl
        have := hplace hstopped
        dsimp only at heq
        omega
    · rintro ⟨hi, hk, hfailed, hstart, hbefore⟩
      have hnot := (hcounted i hi).not_passedOver hbefore
      obtain ⟨hfails, hcounter⟩ := due_of_not_passedOver hnot hi hk hfailed hstart hbefore
      exact attempted_of_due hi hk hfails hcounter hbefore

end Exact

end AlgoTrader.Backtesting
