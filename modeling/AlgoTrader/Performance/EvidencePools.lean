import AlgoTrader.Lib.Latest
import AlgoTrader.Lib.Records
import AlgoTrader.Lib.Rounding
import AlgoTrader.Performance.StrategyEvidence
import AlgoTrader.Utils.Time
import Mathlib.Data.List.Basic

/-! The pooled evidence of a strategy and timeframe (``app/performance/strategy_evidence.py``) over the
rows the batch backtest stores (``app/backtesting/batch.py``). -/

namespace AlgoTrader.Performance

open AlgoTrader.Utils.Time

structure Metrics where
  numberOfTrades : ℤ := 0
  expectancyUsd : ℚ := 0
  holdoutTrades : ℤ := 0
  holdoutExpectancyUsd : ℚ := 0
deriving DecidableEq

structure OosMetrics extends Metrics where
  costProfiles : List (String × Metrics) := []
deriving DecidableEq

/-- A row of ``backtests``; ``metrics`` is ``none`` where the stored text is no JSON. -/
structure BacktestRow where
  id : String
  symbol : String
  strategyName : String
  filePath : String
  completedAt : Timestamp
  metrics : Option OosMetrics
deriving DecidableEq

def timeframeOf (filePath : String) : String :=
  match filePath.toList.splitOn ':' with
  | _ :: second :: _ :: _ => (String.ofList second).toLower
  | _ => ""

def BacktestRow.path (row : BacktestRow) : String × String := (row.strategyName, row.filePath)

def BacktestRow.result (row : BacktestRow) : String × String × String :=
  (row.strategyName, timeframeOf row.filePath, row.symbol)

def poolKey (strategyName timeframe : String) : String := strategyName ++ ":" ++ timeframe

def BacktestRow.key (row : BacktestRow) : String := poolKey row.strategyName (timeframeOf row.filePath)

-- The rows the subquery groups: ``file_path LIKE ? AND completed_at >= ?``.
def eligible (like : String → Bool) (cutoff : Timestamp) (backtests : List BacktestRow) : List BacktestRow :=
  backtests.filter fun row => like row.filePath && decide (cutoff ≤ row.completedAt)

def latestOos (like : String → Bool) (cutoff : Timestamp) (backtests : List BacktestRow) : List BacktestRow :=
  backtests.filter fun b =>
    Latest.newest BacktestRow.path BacktestRow.completedAt (eligible like cutoff backtests) b.path =
      some b.completedAt

structure Pool where
  symbols : ℕ := 0
  trades : ℤ := 0
  pnl : ℚ := 0
  holdoutTrades : ℤ := 0
  holdoutPnl : ℚ := 0
deriving DecidableEq

def pool (bucket : Pool) (metrics : Metrics) : Pool :=
  { symbols := bucket.symbols + 1
    trades := bucket.trades + metrics.numberOfTrades
    pnl := bucket.pnl + metrics.expectancyUsd * metrics.numberOfTrades
    holdoutTrades := bucket.holdoutTrades + metrics.holdoutTrades
    holdoutPnl := bucket.holdoutPnl + metrics.holdoutExpectancyUsd * metrics.holdoutTrades }

structure Bucket extends Pool where
  profiles : Records.Dict String Pool := ∅

def poolProfile (profiles : Records.Dict String Pool) (profile : String × Metrics) : Records.Dict String Pool :=
  profiles.insert profile.1 (pool ((profiles.lookup profile.1).getD {}) profile.2)

def Bucket.add (bucket : Bucket) (metrics : OosMetrics) : Bucket :=
  { pool bucket.toPool metrics.toMetrics with
    profiles := metrics.costProfiles.foldl poolProfile bucket.profiles }

def poolRow (pooled : Records.Dict String Bucket) (row : BacktestRow) : Records.Dict String Bucket :=
  match row.metrics with
  | none => pooled
  | some metrics => pooled.insert row.key (((pooled.lookup row.key).getD {}).add metrics)

def pools (rows : List BacktestRow) : Records.Dict String Bucket := rows.foldl poolRow ∅

inductive Reason where
  | tooFewOosTrades
  | oosExpectancyNotPositive
  | oosExpectancyBelow (minR : ℚ)
  | tooFewHoldoutTrades
  | holdoutExpectancyNotPositive
  | noCostProfileRows
deriving DecidableEq

structure Thresholds where
  minTrades : ℤ := 40
  minHoldout : ℤ := 10
  minR : ℚ := 0

def backtestRiskUsd : ℚ := 100

def Pool.expectancy (b : Pool) : ℚ := if b.trades = 0 then 0 else b.pnl / b.trades

def Pool.holdoutExpectancy (b : Pool) : ℚ := if b.holdoutTrades = 0 then 0 else b.holdoutPnl / b.holdoutTrades

def judge (t : Thresholds) (b : Pool) : List Reason :=
  (if b.trades < t.minTrades then [Reason.tooFewOosTrades] else []) ++
  (if b.expectancy ≤ 0 then [Reason.oosExpectancyNotPositive]
    else if 0 < t.minR ∧ b.expectancy < t.minR * backtestRiskUsd then [Reason.oosExpectancyBelow t.minR] else []) ++
  (if b.holdoutTrades < t.minHoldout then [Reason.tooFewHoldoutTrades]
    else if b.holdoutExpectancy ≤ 0 then [Reason.holdoutExpectancyNotPositive] else [])

def oosPartPasses (reasons : List Reason) : Bool :=
  reasons.all fun reason => reason = .tooFewHoldoutTrades || reason = .holdoutExpectancyNotPositive

def venueProfileNames : List String := ["alpaca", "stress"]

def paperReasons (t : Thresholds) (profiles : Records.Dict String Pool) : List (String × Reason) :=
  venueProfileNames.flatMap fun name =>
    match profiles.lookup name with
    | none => [(name, Reason.noCostProfileRows)]
    | some p => (judge t p).map (Prod.mk name)

def isMinuteBar (timeframe : String) : Bool := ["1m", "5m", "10m", "15m"].contains timeframe.toLower

structure PooledVerdict where
  passed : Bool
  reasons : List Reason
  symbols : ℕ
  oosTrades : ℤ
  oosExpectancyUsd : ℚ
  oosExpectancyR : ℚ
  holdoutTrades : ℤ
  holdoutExpectancyUsd : ℚ
  paperOosPassed : Bool
  paperPassed : Option Bool
deriving DecidableEq

-- ``_timeframe_of_key``: what follows the last colon.
def timeframeOfKey (key : String) : String :=
  String.ofList ((key.toList.splitOn ':').getLastD [])

def verdictOf (t : Thresholds) (key : String) (b : Bucket) : PooledVerdict :=
  let reasons := judge t b.toPool
  let paper := paperReasons t b.profiles
  let minute := isMinuteBar (timeframeOfKey key)
  { passed := reasons.isEmpty
    reasons := reasons
    symbols := b.symbols
    oosTrades := b.trades
    oosExpectancyUsd := Rounding.toDigits 4 b.expectancy
    oosExpectancyR := Rounding.toDigits 4 (b.expectancy / backtestRiskUsd)
    holdoutTrades := b.holdoutTrades
    holdoutExpectancyUsd := Rounding.toDigits 4 b.holdoutExpectancy
    paperOosPassed := oosPartPasses reasons && (!minute || oosPartPasses (paper.map Prod.snd))
    paperPassed := if minute then some paper.isEmpty else none }

def computeVerdicts (like : String → Bool) (t : Thresholds) (cutoff : Timestamp)
    (backtests : List BacktestRow) : Records.Dict String PooledVerdict :=
  Records.rewrite (fun key b => some (verdictOf t key b)) (pools (latestOos like cutoff backtests))

-- What the streaks read of the verdicts.
def PooledVerdict.verdict (v : PooledVerdict) : Verdict := ⟨v.passed⟩

-- What a refresh reads: the clock, and the rows stored from ``cutoff`` on.
structure EvidenceRead where
  time : Timestamp
  now : Timestamp
  cutoff : Timestamp
  backtests : List BacktestRow

def EvidenceRead.refresh (like : String → Bool) (t : Thresholds) (read : EvidenceRead) : Refresh :=
  { time := read.time
    now := read.now
    verdicts := Records.rewrite (fun _ v => some v.verdict) (computeVerdicts like t read.cutoff read.backtests) }

/-- A walk-forward run as ``_run_strategy`` gets it. No provider or timeframe name holds a colon. -/
structure OosRun where
  id : String
  provider : String
  timeframe : String
  symbol : String
  strategyName : String
  completedAt : Timestamp
  metrics : OosMetrics
  provider_plain : ':' ∉ provider.toList
  timeframe_plain : ':' ∉ timeframe.toList

def oosFilePath (provider timeframe symbol suffix : String) : String :=
  provider ++ ":" ++ timeframe ++ ":" ++ symbol ++ suffix

def OosRun.row (suffix : String) (run : OosRun) : BacktestRow :=
  { id := run.id
    symbol := run.symbol.toUpper
    strategyName := run.strategyName
    filePath := oosFilePath run.provider run.timeframe run.symbol suffix
    completedAt := run.completedAt
    metrics := some run.metrics }

/-- A ``backtests`` table: the ids are its primary key, and what the pattern matches was stored by a
walk-forward run. -/
structure Stored (like : String → Bool) (suffix : String) (backtests : List BacktestRow) : Prop where
  ids : (backtests.map BacktestRow.id).Nodup
  written : ∀ row ∈ backtests, like row.filePath → ∃ run : OosRun, row = run.row suffix

section Pooling

variable {like : String → Bool} {suffix : String} {cutoff : Timestamp} {backtests rows : List BacktestRow}
variable {row : BacktestRow}

lemma mem_eligible : row ∈ eligible like cutoff backtests ↔
    row ∈ backtests ∧ like row.filePath ∧ cutoff ≤ row.completedAt := by
  simp [eligible]

lemma latestOos_eq : latestOos like cutoff backtests =
    Latest.latest BacktestRow.path BacktestRow.completedAt (eligible like cutoff backtests) := by
  rw [Latest.latest, latestOos]
  conv_rhs => rw [eligible, List.filter_filter, ← eligible]
  apply List.filter_congr
  intro row hrow
  rw [Bool.eq_iff_iff, Bool.and_eq_true, decide_eq_true_eq, Bool.and_eq_true, decide_eq_true_eq]
  constructor
  · intro h
    obtain ⟨⟨newest, hmem, hpath, hstamp⟩, _⟩ := Latest.newest_eq_some.mp h
    obtain ⟨_, hlike, hcutoff⟩ := mem_eligible.mp hmem
    have hfile : newest.filePath = row.filePath := congrArg Prod.snd hpath
    exact ⟨h, hfile ▸ hlike, hstamp ▸ hcutoff⟩
  · exact And.left

lemma colon_cancel {a b x y : List Char} (ha : ':' ∉ a) (hb : ':' ∉ b) (h : a ++ ':' :: x = b ++ ':' :: y) :
    a = b ∧ x = y := by
  have hsplit := congrArg (List.splitOn ':') h
  rw [List.splitOn_append_cons_self_of_not_mem ha, List.splitOn_append_cons_self_of_not_mem hb] at hsplit
  obtain rfl := (List.cons.inj hsplit).1
  exact ⟨rfl, (List.cons.inj (List.append_cancel_left h)).2⟩

lemma oosFilePath_toList (provider timeframe symbol : String) :
    (oosFilePath provider timeframe symbol suffix).toList =
      provider.toList ++ ':' :: (timeframe.toList ++ ':' :: (symbol.toList ++ suffix.toList)) := by
  simp [oosFilePath, String.toList_append]

lemma symbol_of_filePath (a b : OosRun) (h : (a.row suffix).filePath = (b.row suffix).filePath) :
    a.symbol = b.symbol := by
  have hpath := congrArg String.toList h
  rw [OosRun.row, OosRun.row, oosFilePath_toList, oosFilePath_toList] at hpath
  have hrest := (colon_cancel a.provider_plain b.provider_plain hpath).2
  have hsymbol := (colon_cancel a.timeframe_plain b.timeframe_plain hrest).2
  exact String.toList_inj.mp (List.append_cancel_right hsymbol)

lemma Stored.result_of_path (h : Stored like suffix backtests) :
    ∀ a ∈ eligible like cutoff backtests, ∀ b ∈ eligible like cutoff backtests, a.path = b.path →
      a.result = b.result := by
  intro a ha b hb hpath
  obtain ⟨hmemA, hlikeA, _⟩ := mem_eligible.mp ha
  obtain ⟨hmemB, hlikeB, _⟩ := mem_eligible.mp hb
  obtain ⟨runA, rfl⟩ := h.written a hmemA hlikeA
  obtain ⟨runB, rfl⟩ := h.written b hmemB hlikeB
  obtain ⟨hstrategy, hfile⟩ := Prod.ext_iff.mp hpath
  have hsymbol : (runA.row suffix).symbol = (runB.row suffix).symbol :=
    congrArg String.toUpper (symbol_of_filePath runA runB hfile)
  exact Prod.ext hstrategy (Prod.ext (congrArg timeframeOf hfile) hsymbol)

lemma Stored.eligible_nodup (h : Stored like suffix backtests) : (eligible like cutoff backtests).Nodup :=
  h.ids.of_map.filter _

def bucketOf (metrics : List OosMetrics) : Option Bucket :=
  if metrics = [] then none else some (metrics.foldl Bucket.add {})

def pooledMetrics (rows : List BacktestRow) (key : String) : List OosMetrics :=
  (rows.filter (·.key = key)).filterMap BacktestRow.metrics

lemma pooledMetrics_cons (row : BacktestRow) (rest : List BacktestRow) (key : String) :
    pooledMetrics (row :: rest) key =
      (if row.key = key then row.metrics.toList else []) ++ pooledMetrics rest key := by
  by_cases hkey : row.key = key
  · cases hmetrics : row.metrics <;> simp [pooledMetrics, hkey, hmetrics]
  · simp [pooledMetrics, hkey]

lemma lookup_poolRow (pooled : Records.Dict String Bucket) (row : BacktestRow) (key : String) :
    (poolRow pooled row).lookup key =
      if row.key = key then
        row.metrics.elim (pooled.lookup key) fun m => some (((pooled.lookup key).getD {}).add m)
      else pooled.lookup key := by
  rw [poolRow]
  by_cases hkey : row.key = key
  · subst hkey
    cases row.metrics <;> simp
  · cases row.metrics with
    | none => simp
    | some metrics => rw [if_neg hkey, AList.lookup_insert_ne (Ne.symm hkey)]

lemma lookup_foldl_poolRow (rows : List BacktestRow) (pooled : Records.Dict String Bucket) (key : String) :
    (rows.foldl poolRow pooled).lookup key =
      if pooledMetrics rows key = [] then pooled.lookup key
      else some ((pooledMetrics rows key).foldl Bucket.add ((pooled.lookup key).getD {})) := by
  induction rows generalizing pooled with
  | nil => rfl
  | cons row rest ih =>
    rw [List.foldl_cons, ih, lookup_poolRow, pooledMetrics_cons]
    by_cases hkey : row.key = key
    · cases row.metrics with
      | none => simp
      | some metrics => by_cases hrest : pooledMetrics rest key = [] <;> simp [hkey, hrest]
    · simp [hkey]

lemma lookup_pools (rows : List BacktestRow) (key : String) :
    (pools rows).lookup key = bucketOf (pooledMetrics rows key) := by
  rw [pools, lookup_foldl_poolRow, bucketOf]
  rfl

/-- The rows pooled under the key are some, and the pool meets every threshold. -/
def EvidenceRead.Earned (like : String → Bool) (t : Thresholds) (key : String) (read : EvidenceRead) : Prop :=
  ∃ bucket, bucketOf (pooledMetrics (latestOos like read.cutoff read.backtests) key) = some bucket ∧
    judge t bucket.toPool = []

lemma refresh_passes_iff (like : String → Bool) (t : Thresholds) (read : EvidenceRead) (key : String) :
    (read.refresh like t).Passes key ↔ read.Earned like t key := by
  rw [Refresh.Passes, EvidenceRead.refresh, EvidenceRead.Earned, Records.lookup_rewrite, computeVerdicts,
    Records.lookup_rewrite, lookup_pools]
  cases bucketOf (pooledMetrics (latestOos like read.cutoff read.backtests) key) with
  | none => exact iff_of_false nofun (fun ⟨_, hnone, _⟩ => nomatch hnone)
  | some bucket =>
    have hpassed : (verdictOf t key bucket).passed = true ↔ judge t bucket.toPool = [] := List.isEmpty_iff
    simp [PooledVerdict.verdict, hpassed]

theorem earned_of_passingHours (like : String → Bool) (t : Thresholds) {reads : List EvidenceRead} {strategy : String}
    {timeframe : Option String} {now : Timestamp} {hours : ℚ}
    (h : passingHours (Runs.run refreshVerdicts {} (reads.map (·.refresh like t))) strategy timeframe now = some hours)
    (hpos : 0 < hours) :
    ∃ first rest, first :: rest <:+ reads ∧
      (∀ read ∈ first :: rest, read.Earned like t (verdictKey strategy timeframe)) ∧
      ∃ last, reads.getLast? = some last ∧ hours * microsPerHour ≤ (last.now - first.now : ℤ) := by
  obtain ⟨last, hlast⟩ : ∃ last, (reads.map (·.refresh like t)).getLast? = some last := by
    refine Option.isSome_iff_exists.mp (List.getLast?_isSome.mpr fun hnil => ?_)
    rw [hnil] at h
    cases h
  obtain ⟨first, rest, hstreak, hspan⟩ := streak_of_passingHours rfl hlast h hpos
  obtain ⟨before, hreads⟩ := hstreak.suffix
  obtain ⟨earlier, later, rfl, -, hlater⟩ := List.map_eq_append_iff.mp hreads.symm
  obtain ⟨firstRead, restReads, rfl, rfl, rfl⟩ := List.map_eq_cons_iff.mp hlater
  refine ⟨firstRead, restReads, List.suffix_append _ _, fun read hread => ?_, ?_⟩
  · exact (refresh_passes_iff like t read _).mp (hstreak.all_good _ (List.mem_map_of_mem hread))
  · rw [List.getLast?_map] at hlast
    obtain ⟨lastRead, hlastRead, rfl⟩ := Option.map_eq_some_iff.mp hlast
    exact ⟨lastRead, hlastRead, hspan⟩

lemma not_mem_of_mem_splitOn {c : Char} {text part : List Char} (h : part ∈ text.splitOn c) : c ∉ part := by
  induction text generalizing part with
  | nil =>
    rw [List.splitOn_nil, List.mem_singleton] at h
    simp [h]
  | cons first rest ih =>
    rw [List.splitOn_cons_eq_if_modifyHead] at h
    cases hrest : rest.splitOn c with
    | nil => exact absurd hrest (List.splitOn_ne_nil _ _)
    | cons head tail =>
      rw [hrest] at h ih
      by_cases hfirst : first == c
      · rw [if_pos hfirst] at h
        rcases List.mem_cons.mp h with rfl | hmem
        · exact List.not_mem_nil
        · exact ih hmem
      · rw [if_neg hfirst, List.modifyHead_cons] at h
        rcases List.mem_cons.mp h with rfl | hmem
        · intro hc
          rcases List.mem_cons.mp hc with rfl | hin
          · exact hfirst (beq_self_eq_true _)
          · exact ih List.mem_cons_self hin
        · exact ih (List.mem_cons_of_mem _ hmem)

lemma toLower_ne_colon {c : Char} (h : c ≠ ':') : c.toLower ≠ ':' := by
  unfold Char.toLower
  split_ifs with hupper
  · intro heq
    have hval := congrArg (fun c : Char => c.val.toNat) heq
    have hge : 65 ≤ c.val.toNat := hupper.1
    have hle : c.val.toNat ≤ 90 := hupper.2
    change (c.val + 32).toNat = 58 at hval
    rw [UInt32.toNat_add] at hval
    change (c.val.toNat + 32) % 4294967296 = 58 at hval
    omega
  · exact h

lemma colon_not_mem_timeframeOf (filePath : String) : ':' ∉ (timeframeOf filePath).toList := by
  rw [timeframeOf]
  split
  · rename_i parts first second third rest hparts
    have hsecond : second ∈ filePath.toList.splitOn ':' := by
      rw [hparts]
      exact List.mem_cons_of_mem _ List.mem_cons_self
    have hplain := not_mem_of_mem_splitOn hsecond
    change ':' ∉ ((String.ofList second).map Char.toLower).toList
    rw [String.toList_map, String.toList_ofList]
    intro hmem
    obtain ⟨c, hc, heq⟩ := List.mem_map.mp hmem
    exact toLower_ne_colon (fun h => hplain (h ▸ hc)) heq
  · exact List.not_mem_nil

lemma poolKey_inj {strategy strategy' timeframe timeframe' : String} (h : ':' ∉ timeframe.toList)
    (h' : ':' ∉ timeframe'.toList) (heq : poolKey strategy timeframe = poolKey strategy' timeframe') :
    strategy = strategy' ∧ timeframe = timeframe' := by
  have hback : timeframe.toList.reverse ++ ':' :: strategy.toList.reverse =
      timeframe'.toList.reverse ++ ':' :: strategy'.toList.reverse := by
    simpa [poolKey, String.toList_append] using congrArg (fun s : String => s.toList.reverse) heq
  obtain ⟨htimeframe, hstrategy⟩ := colon_cancel (by simpa using h) (by simpa using h') hback
  exact ⟨String.toList_inj.mp (List.reverse_inj.mp hstrategy), String.toList_inj.mp (List.reverse_inj.mp htimeframe)⟩

lemma key_eq_iff {strategy timeframe : String} (h : ':' ∉ timeframe.toList) :
    row.key = poolKey strategy timeframe ↔ row.strategyName = strategy ∧ timeframeOf row.filePath = timeframe := by
  constructor
  · exact poolKey_inj (colon_not_mem_timeframeOf _) h
  · rintro ⟨rfl, rfl⟩
    rfl

/-- The rows whose numbers are summed: the query's, less those whose metrics do not parse. -/
def pooledRows (like : String → Bool) (cutoff : Timestamp) (backtests : List BacktestRow) : List BacktestRow :=
  (latestOos like cutoff backtests).filter (·.metrics.isSome)

lemma Stored.pooledRows_eq (h : Stored like suffix backtests) : pooledRows like cutoff backtests =
    Latest.latest BacktestRow.path BacktestRow.completedAt (eligible like cutoff backtests) := by
  rw [pooledRows, latestOos_eq]
  apply List.filter_eq_self.mpr
  intro row hrow
  obtain ⟨hmem, hlike, _⟩ := mem_eligible.mp (List.mem_of_mem_filter hrow)
  obtain ⟨run, rfl⟩ := h.written row hmem hlike
  rfl

lemma pooledMetrics_latestOos {strategy timeframe : String} (h : ':' ∉ timeframe.toList) :
    pooledMetrics (latestOos like cutoff backtests) (poolKey strategy timeframe) =
      ((pooledRows like cutoff backtests).filter fun row =>
        row.strategyName = strategy ∧ timeframeOf row.filePath = timeframe).filterMap BacktestRow.metrics := by
  rw [pooledMetrics, pooledRows]
  induction latestOos like cutoff backtests with
  | nil => rfl
  | cons row rest ih =>
    simp only [List.filter_cons, key_eq_iff h] at ih ⊢
    cases hmetrics : row.metrics <;> split_ifs <;> simp_all

/-- For every result a run has stored within the lookback, the rows summed hold exactly one of its
strategy, timeframe and symbol, and none of these completed later. -/
def PooledOnce (like : String → Bool) (cutoff : Timestamp) (backtests : List BacktestRow) : Prop :=
  ∀ row ∈ eligible like cutoff backtests,
    ∃ last, (pooledRows like cutoff backtests).filter (·.result = row.result) = [last] ∧
      Latest.IsNewest BacktestRow.result BacktestRow.completedAt (eligible like cutoff backtests) last

def OnePath (rows : List BacktestRow) : Prop :=
  ∀ a ∈ rows, ∀ b ∈ rows, a.result = b.result → a.filePath = b.filePath

def OneNewest (rows : List BacktestRow) : Prop :=
  ∀ a b, Latest.IsNewest BacktestRow.path BacktestRow.completedAt rows a →
    Latest.IsNewest BacktestRow.path BacktestRow.completedAt rows b → a.path = b.path → a = b

/-- The pool of a strategy and timeframe sums the pooled rows of that strategy and timeframe; these hold
each symbol's newest result once exactly when every symbol is stored under one path and no two newest
rows of a path completed at the same instant. -/
theorem pooledOnce_iff (hstored : Stored like suffix backtests) (cutoff : Timestamp) :
    (∀ strategy timeframe : String, ':' ∉ timeframe.toList →
      (pools (latestOos like cutoff backtests)).lookup (poolKey strategy timeframe) =
        bucketOf (((pooledRows like cutoff backtests).filter fun row =>
          row.strategyName = strategy ∧ timeframeOf row.filePath = timeframe).filterMap BacktestRow.metrics)) ∧
    (PooledOnce like cutoff backtests ↔
      OnePath (eligible like cutoff backtests) ∧ OneNewest (eligible like cutoff backtests)) := by
  refine ⟨fun strategy timeframe h => by rw [lookup_pools, pooledMetrics_latestOos h], ?_⟩
  have honce : Latest.Once BacktestRow.path BacktestRow.result BacktestRow.completedAt
      (eligible like cutoff backtests) ↔ _ := Latest.once_iff hstored.eligible_nodup hstored.result_of_path
  rw [Latest.Once, ← hstored.pooledRows_eq] at honce
  rw [PooledOnce, honce]
  apply and_congr_left
  intro _
  constructor
  · intro hpath a ha b hb hresult
    exact congrArg Prod.snd (hpath a ha b hb hresult)
  · intro hpath a ha b hb hresult
    have hstrategy : a.strategyName = b.strategyName := congrArg Prod.fst hresult
    exact Prod.ext hstrategy (hpath a ha b hb hresult)

end Pooling

def oosSuffix : String := ":walk_forward_oos"

def likeOos (filePath : String) : Bool := oosSuffix.toList.isSuffixOf filePath.toList

def oosRow (id provider : String) (completedAt : Timestamp) (metrics : OosMetrics) : BacktestRow :=
  { id := id
    symbol := "NVDA"
    strategyName := "breakout"
    filePath := oosFilePath provider "1d" "NVDA" oosSuffix
    completedAt := completedAt
    metrics := some metrics }

-- A week-old losing run through one provider, and this morning's through another.
def twoProviders : List BacktestRow :=
  [oosRow "bt_1" "yfinance" 0 { numberOfTrades := 30, expectancyUsd := -20 },
   oosRow "bt_2" "alpaca" (5 * microsPerDay) { numberOfTrades := 30, expectancyUsd := 12 }]

lemma stored_twoProviders : Stored likeOos oosSuffix twoProviders where
  ids := by decide +kernel
  written := by
    intro row hrow _
    rcases List.mem_cons.mp hrow with rfl | hrow
    · exact ⟨⟨"bt_1", "yfinance", "1d", "NVDA", "breakout", 0, { numberOfTrades := 30, expectancyUsd := -20 },
        by decide +kernel, by decide +kernel⟩, by decide +kernel⟩
    · obtain rfl := List.mem_singleton.mp hrow
      exact ⟨⟨"bt_2", "alpaca", "1d", "NVDA", "breakout", 5 * microsPerDay,
        { numberOfTrades := 30, expectancyUsd := 12 }, by decide +kernel, by decide +kernel⟩, by decide +kernel⟩

-- Both rows are summed: sixty trades of one symbol, and a verdict the stale run decides.
theorem pooled_twice :
    Stored likeOos oosSuffix twoProviders ∧ ¬ PooledOnce likeOos 0 twoProviders ∧
      ((pools (latestOos likeOos 0 twoProviders)).lookup "breakout:1d").map (fun b => (b.symbols, b.trades)) =
        some (2, 60) ∧
      ((computeVerdicts likeOos {} 0 twoProviders).lookup "breakout:1d").map (·.reasons) =
        some [.oosExpectancyNotPositive, .tooFewHoldoutTrades] := by
  refine ⟨stored_twoProviders, ?_, by decide +kernel, by decide +kernel⟩
  intro honce
  have hrow : oosRow "bt_1" "yfinance" 0 { numberOfTrades := 30, expectancyUsd := -20 } ∈
      eligible likeOos 0 twoProviders := by decide +kernel
  obtain ⟨last, hlast, _⟩ := honce _ hrow
  have htwo : (pooledRows likeOos 0 twoProviders).filter
      (·.result = (oosRow "bt_1" "yfinance" 0 { numberOfTrades := 30, expectancyUsd := -20 }).result) =
        twoProviders := by decide +kernel
  cases htwo.symm.trans hlast

theorem pooledOnce_iff_providers :
    PooledOnce likeOos 0 twoProviders ↔
      OnePath (eligible likeOos 0 twoProviders) ∧ OneNewest (eligible likeOos 0 twoProviders) :=
  (pooledOnce_iff stored_twoProviders 0).2

end AlgoTrader.Performance
