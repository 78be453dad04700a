import AlgoTrader.StrategyLab.Promotion
import Mathlib.Algebra.Order.BigOperators.Group.List
import Mathlib.Data.List.Basic

/-! What a generated strategy has behind it when it may trade on paper, over any run of backtests and promotions
side by side. -/

namespace AlgoTrader.StrategyLab

section Gates

variable {env : LabEnv} {settings : LabSettings} {dsl : StrategyLabDsl} {pnl : List ℚ}
  {fetched : List (String × Option Backtesting.Frame)}

def tradesOf (env : LabEnv) (settings : LabSettings) (dsl : StrategyLabDsl)
    (fetched : List (String × Option Backtesting.Frame)) : List ℚ :=
  fetched.flatMap fun entry => ((symbolRun env settings dsl entry.2).map pnlOf).getD []

/-- The engine ran the rules over every history without an error, and its trades meet the gates. -/
structure GatesMet (env : LabEnv) (settings : LabSettings) (dsl : StrategyLabDsl)
    (fetched : List (String × Option Backtesting.Frame)) : Prop where
  ran : ∀ entry ∈ fetched, ∃ data run, entry.2 = some data ∧ (engineInput env settings dsl data).run = .ok run ∧
    run.metrics.maxDrawdownPct ≤ settings.gateMaxDrawdownPct ∧
      (summarize entry.1 run).leakageTripwireTriggered = false
  trades : settings.gateMinBacktestTrades ≤ (tradesOf env settings dsl fetched).length
  expectancy : 0 < (tradesOf env settings dsl fetched).sum
  profit : settings.gateMinProfitFactor * grossLoss (tradesOf env settings dsl fetched) ≤
    grossProfit (tradesOf env settings dsl fetched)

def errorsOf (env : LabEnv) (settings : LabSettings) (dsl : StrategyLabDsl)
    (entry : String × Option Backtesting.Frame) : List LabError :=
  match symbolRun env settings dsl entry.2 with
  | some run => if (summarize entry.1 run).leakageTripwireTriggered then [.leakageTripwire entry.1] else []
  | none => [.failed entry.1]

lemma foldl_addSymbol (found : LabResults) : fetched.foldl (addSymbol env settings dsl) found =
    { results := found.results ++
        fetched.filterMap fun entry => (symbolRun env settings dsl entry.2).map (summarize entry.1)
      allTrades := found.allTrades ++ tradesOf env settings dsl fetched
      errors := found.errors ++ fetched.flatMap (errorsOf env settings dsl) } := by
  induction fetched generalizing found with
  | nil =>
    rw [List.foldl_nil, List.filterMap_nil, tradesOf, List.flatMap_nil, List.flatMap_nil, List.append_nil,
      List.append_nil, List.append_nil]
  | cons entry fetched ih =>
    rw [List.foldl_cons, ih, addSymbol, tradesOf, tradesOf, List.filterMap_cons, List.flatMap_cons, List.flatMap_cons,
      errorsOf]
    cases symbolRun env settings dsl entry.2 with
    | none => rw [Option.map_none, Option.map_none, Option.getD_none, List.nil_append, List.append_assoc]
    | some run =>
      rw [Option.map_some, Option.map_some, Option.getD_some]
      simp only [List.append_assoc, List.singleton_append]

lemma of_backtestBlockers_eq_nil {metrics : LabMetrics} (h : backtestBlockers settings metrics = []) :
    settings.gateMinBacktestTrades ≤ metrics.numberOfTrades ∧ 0 < metrics.expectancyUsd ∧
      settings.gateMinProfitFactor ≤ metrics.profitFactor ∧
        metrics.maxDrawdownPct ≤ settings.gateMaxDrawdownPct ∧ metrics.dataErrorCount = 0 := by
  rw [backtestBlockers, List.append_eq_nil_iff, List.append_eq_nil_iff, List.append_eq_nil_iff,
    List.append_eq_nil_iff, List.append_eq_nil_iff] at h
  obtain ⟨⟨⟨⟨⟨htrades, hexpectancy⟩, hprofit⟩, hdrawdown⟩, herrors⟩, -⟩ := h
  split_ifs at htrades hexpectancy hprofit hdrawdown herrors
  exact ⟨not_lt.mp ‹_›, not_le.mp ‹_›, not_lt.mp ‹_›, not_lt.mp ‹_›, Nat.eq_zero_of_not_pos ‹_›⟩

lemma grossProfit_nonneg (pnl : List ℚ) : 0 ≤ grossProfit pnl :=
  List.sum_nonneg fun _ hmem => (of_decide_eq_true (List.mem_filter.mp hmem).2).le

lemma wins_of_profitFactor {least : ℚ} (h : least ≤ profitFactor pnl) : least * grossLoss pnl ≤ grossProfit pnl := by
  rw [profitFactor] at h
  by_cases hloss : 0 < grossLoss pnl
  · rwa [if_pos hloss, le_div_iff₀ hloss] at h
  · have hzero : grossLoss pnl = 0 := le_antisymm (not_lt.mp hloss) (abs_nonneg _)
    rw [hzero, mul_zero]
    exact grossProfit_nonneg pnl

lemma le_greatest {l : List ℚ} {x : ℚ} (h : x ∈ l) : x ≤ l.max?.getD 0 := by
  cases hmax : l.max? with
  | none => exact absurd h ((List.max?_eq_none_iff.mp hmax).symm ▸ List.not_mem_nil)
  | some greatest => exact (List.max?_eq_some_iff.mp hmax).2 x h

lemma gatesMet_of_blockers
    (h : backtestBlockers settings (runSymbols env settings dsl fetched).aggregateTradeMetrics = []) :
    GatesMet env settings dsl fetched := by
  obtain ⟨htrades, hexpectancy, hprofit, hdrawdown, herrors⟩ := of_backtestBlockers_eq_nil h
  rw [runSymbols, foldl_addSymbol] at htrades hexpectancy hprofit hdrawdown herrors
  refine ⟨fun entry hentry => ?_, htrades, ?_, wins_of_profitFactor hprofit⟩
  · have hclean : errorsOf env settings dsl entry = [] :=
      List.flatMap_eq_nil_iff.mp (List.eq_nil_of_length_eq_zero herrors) entry hentry
    rw [errorsOf] at hclean
    cases hrun : symbolRun env settings dsl entry.2 with
    | none => rw [hrun] at hclean; exact absurd hclean (List.cons_ne_nil _ _)
    | some run =>
      rw [hrun] at hclean
      obtain ⟨data, hdata, hok⟩ := Option.bind_eq_some_iff.mp hrun
      refine ⟨data, run, hdata, ?_, ?_, ?_⟩
      · cases hengine : (engineInput env settings dsl data).run with
        | error _ => rw [hengine] at hok; exact absurd hok (by simp [Except.toOption])
        | ok other => rw [hengine] at hok; exact congrArg _ (Option.some.inj hok)
      · refine le_trans (le_greatest ?_) hdrawdown
        exact List.mem_map.mpr ⟨summarize entry.1 run, List.mem_filterMap.mpr ⟨entry, hentry, by rw [hrun]; rfl⟩, rfl⟩
      · by_contra htrip
        rw [Bool.not_eq_false] at htrip
        dsimp only at hclean
        rw [if_pos htrip] at hclean
        exact List.cons_ne_nil _ _ hclean
  · by_contra hsum
    refine absurd hexpectancy (not_lt.mpr ?_)
    dsimp only [LabResults.aggregateTradeMetrics]
    rw [List.nil_append]
    split_ifs
    · exact le_rfl
    · exact div_nonpos_of_nonpos_of_nonneg (not_lt.mp hsum) (Nat.cast_nonneg _)

end Gates

section Run

variable {env : LabEnv} {s : PromotionState} {t t' : LabTables} {item row : GeneratedStrategy} {backtest : LabBacktest}
  {actions : List PromotionAction}

/-- A row is never written but in its status, its backtest and its time. -/
def SameRules (row item : GeneratedStrategy) : Prop := row.id = item.id ∧ row.name = item.name ∧ row.dsl = item.dsl

def VersionOf (version : StrategyVersion) (item : GeneratedStrategy) (backtest : LabBacktest) : Prop :=
  version.strategyName = item.name ∧ version.generatedStrategyId = item.id ∧ version.dsl = item.dsl ∧
    version.datasetVersion = "strategy_lab_backtest:" ++ backtest.id

def Promotable (t : LabTables) (item : GeneratedStrategy) (backtest : LabBacktest) : Prop :=
  backtest ∈ t.backtests ∧ backtest.generatedStrategyId = item.id ∧ backtest.blockers = []

/-- The papers of a promotion: a backtest of the strategy without blockers, a version with its rules, and an
approval of that version on that backtest. -/
def Papers (t : LabTables) (item : GeneratedStrategy) : Prop :=
  ∃ backtest, Promotable t item backtest ∧ ∃ version ∈ t.versions, VersionOf version item backtest ∧
    ∃ decision ∈ t.decisions, decision.strategyVersionId = version.id ∧ decision.approved = true ∧
      decision.backtestId = backtest.id ∧ decision.metrics = backtest.metrics

def Known (t : LabTables) (item : GeneratedStrategy) : Prop :=
  (∃ row ∈ t.generated, SameRules row item) ∧ (item.status = .paperGenerated → Papers t item)

/-- The row's rules, run with the settings that a call of the run began with on the histories it fetched. -/
def Backtested (env : LabEnv) (actions : List PromotionAction) (row : GeneratedStrategy) (backtest : LabBacktest)
    (settings : LabSettings) (fetched : List (String × Option Backtesting.Frame)) : Prop :=
  (∃ call, .beginBacktest call settings row.id ∈ actions ∧
    .record call fetched backtest.id backtest.createdAt ∈ actions) ∧
  backtest = backtestRecord env settings row fetched backtest.id backtest.createdAt

def CallSound (actions : List PromotionAction) (t : LabTables) (call : ℕ) : LabCall → Prop
  | .backtesting item settings => Known t item ∧ .beginBacktest call settings item.id ∈ actions
  | .recorded item _ => Known t item
  | .promoting item => Known t item
  | .checked item backtest => Known t item ∧ Promotable t item backtest
  | .versioned item backtest version =>
    Known t item ∧ Promotable t item backtest ∧ version ∈ t.versions ∧ VersionOf version item backtest
  | .decided item _ => Known t item ∧ Papers t item

structure PromotionSound (env : LabEnv) (actions : List PromotionAction) (s : PromotionState) : Prop where
  ids : (s.tables.generated.map GeneratedStrategy.id).Nodup
  rows : ∀ row ∈ s.tables.generated, row.status = .paperGenerated → Papers s.tables row
  genuine : ∀ backtest ∈ s.tables.backtests, ∃ row ∈ s.tables.generated, ∃ settings fetched,
    Backtested env actions row backtest settings fetched
  calls : ∀ call c, s.calls call = some c → CallSound actions s.tables call c

structure Grows (t t' : LabTables) : Prop where
  generated : ∀ row ∈ t.generated, ∃ row' ∈ t'.generated, SameRules row' row
  backtests : t.backtests ⊆ t'.backtests
  versions : t.versions ⊆ t'.versions
  decisions : t.decisions ⊆ t'.decisions

lemma SameRules.trans {other : GeneratedStrategy} (h : SameRules other row) (h' : SameRules row item) :
    SameRules other item := ⟨h.1.trans h'.1, h.2.1.trans h'.2.1, h.2.2.trans h'.2.2⟩

lemma Promotable.mono (h : Promotable t item backtest) (hgrows : Grows t t') : Promotable t' item backtest :=
  ⟨hgrows.backtests h.1, h.2⟩

lemma Papers.mono (h : Papers t item) (hgrows : Grows t t') : Papers t' item := by
  obtain ⟨backtest, hbacktest, version, hversion, hof, decision, hdecision, happroved⟩ := h
  exact ⟨backtest, hbacktest.mono hgrows, version, hgrows.versions hversion, hof, decision,
    hgrows.decisions hdecision, happroved⟩

lemma Papers.of_sameRules (h : Papers t item) (hsame : SameRules row item) : Papers t row := by
  obtain ⟨backtest, ⟨hmem, hid, hblockers⟩, version, hversion, ⟨hname, hgenerated, hdsl, hdata⟩, hdecision⟩ := h
  exact ⟨backtest, ⟨hmem, hid.trans hsame.1.symm, hblockers⟩, version, hversion,
    ⟨hname.trans hsame.2.1.symm, hgenerated.trans hsame.1.symm, hdsl.trans hsame.2.2.symm, hdata⟩, hdecision⟩

lemma Known.mono (h : Known t item) (hgrows : Grows t t') : Known t' item := by
  obtain ⟨⟨row, hrow, hsame⟩, hpapers⟩ := h
  obtain ⟨row', hrow', hsame'⟩ := hgrows.generated row hrow
  exact ⟨⟨row', hrow', hsame'.trans hsame⟩, fun hstatus => (hpapers hstatus).mono hgrows⟩

lemma CallSound.mono {call : ℕ} {c : LabCall} (h : CallSound actions t call c) (hgrows : Grows t t') :
    CallSound actions t' call c := by
  cases c with
  | backtesting item settings => exact ⟨h.1.mono hgrows, h.2⟩
  | recorded item backtest => exact Known.mono h hgrows
  | promoting item => exact Known.mono h hgrows
  | checked item backtest => exact ⟨h.1.mono hgrows, h.2.mono hgrows⟩
  | versioned item backtest version =>
    exact ⟨h.1.mono hgrows, h.2.1.mono hgrows, hgrows.versions h.2.2.1, h.2.2.2⟩
  | decided item backtest => exact ⟨h.1.mono hgrows, h.2.mono hgrows⟩

lemma backtestRecord_congr (hsame : SameRules row item) (env : LabEnv) (settings : LabSettings)
    (fetched : List (String × Option Backtesting.Frame)) (id : String) (createdAt : ℕ) :
    backtestRecord env settings row fetched id createdAt = backtestRecord env settings item fetched id createdAt := by
  rw [backtestRecord, backtestRecord, hsame.1, hsame.2.2]

lemma Backtested.of_sameRules {settings : LabSettings} {fetched : List (String × Option Backtesting.Frame)}
    (h : Backtested env actions item backtest settings fetched) (hsame : SameRules row item) :
    Backtested env actions row backtest settings fetched := by
  obtain ⟨⟨call, hbegun, hrecorded⟩, hrecord⟩ := h
  exact ⟨⟨call, hsame.1 ▸ hbegun, hrecorded⟩,
    hrecord.trans (backtestRecord_congr hsame env settings fetched _ _).symm⟩

lemma promotionSound_start (env : LabEnv) (actions : List PromotionAction) : PromotionSound env actions {} where
  ids := List.nodup_nil
  rows := fun _ hrow => absurd hrow List.not_mem_nil
  genuine := fun _ hbacktest => absurd hbacktest List.not_mem_nil
  calls := fun _ _ hcall => nomatch hcall

lemma PromotionSound.goTo (h : PromotionSound env actions s) (call : ℕ) {next : Option LabCall}
    (hnext : ∀ c, next = some c → CallSound actions s.tables call c) :
    PromotionSound env actions (s.goTo call next) where
  ids := h.ids
  rows := h.rows
  genuine := h.genuine
  calls := fun other c hc => by
    rw [PromotionState.goTo] at hc
    dsimp only at hc
    by_cases hother : other = call
    · rw [hother, Function.update_self] at hc
      exact hother ▸ hnext c hc
    · rw [Function.update_of_ne hother] at hc
      exact h.calls other c hc

lemma PromotionSound.finish (h : PromotionSound env actions s) (call : ℕ) :
    PromotionSound env actions (s.goTo call none) :=
  h.goTo call fun _ hc => nomatch hc

lemma PromotionSound.append (h : PromotionSound env actions s) (hgrows : Grows s.tables t)
    (hsame : t.generated = s.tables.generated) (hgenuine : ∀ backtest ∈ t.backtests, backtest ∉ s.tables.backtests →
      ∃ row ∈ s.tables.generated, ∃ settings fetched, Backtested env actions row backtest settings fetched) :
    PromotionSound env actions { s with tables := t } where
  ids := by
    dsimp only
    rw [hsame]
    exact h.ids
  rows := fun row hrow hstatus => (h.rows row (hsame ▸ hrow) hstatus).mono hgrows
  genuine := fun backtest hbacktest => by
    dsimp only
    rw [hsame]
    by_cases hold : backtest ∈ s.tables.backtests
    · exact h.genuine backtest hold
    · exact hgenuine backtest hbacktest hold
  calls := fun call c hc => (h.calls call c hc).mono hgrows

lemma grows_updateGeneratedStatus (t : LabTables) (id : String) (status : GeneratedStatus) (backtestId : String)
    (now : ℕ) : Grows t (t.updateGeneratedStatus id status backtestId now) := by
  refine ⟨fun row hrow => ⟨_, List.mem_map_of_mem hrow, ?_⟩, fun _ h => h, fun _ h => h, fun _ h => h⟩
  split_ifs <;> exact ⟨rfl, rfl, rfl⟩

lemma PromotionSound.updateStatus (h : PromotionSound env actions s)
    (hknown : ∃ row ∈ s.tables.generated, SameRules row item)
    {status : GeneratedStatus} (hpapers : status = .paperGenerated → Papers s.tables item) (backtestId : String)
    (now : ℕ) :
    PromotionSound env actions { s with tables := s.tables.updateGeneratedStatus item.id status backtestId now } := by
  have hgrows := grows_updateGeneratedStatus s.tables item.id status backtestId now
  refine ⟨?_, fun row' hrow' hstatus => ?_, fun backtest hbacktest => ?_,
    fun call c hc => (h.calls call c hc).mono hgrows⟩
  · have hids : (s.tables.updateGeneratedStatus item.id status backtestId now).generated.map GeneratedStrategy.id =
        s.tables.generated.map GeneratedStrategy.id := by
      rw [LabTables.updateGeneratedStatus, List.map_map]
      refine List.map_congr_left fun row _ => ?_
      rw [Function.comp_apply]
      split_ifs <;> rfl
    rw [hids]
    exact h.ids
  · obtain ⟨row, hrow, rfl⟩ := List.mem_map.mp hrow'
    by_cases hid : row.id = item.id
    · rw [if_pos hid] at hstatus ⊢
      obtain ⟨known, hmem, hsame⟩ := hknown
      obtain rfl := List.inj_on_of_nodup_map h.ids hrow hmem (hid.trans hsame.1.symm)
      exact ((hpapers hstatus).mono hgrows).of_sameRules hsame
    · rw [if_neg hid] at hstatus ⊢
      exact (h.rows row hrow hstatus).mono hgrows
  · obtain ⟨row, hrow, settings, fetched, hrecord⟩ := h.genuine backtest hbacktest
    obtain ⟨row', hrow', hsame⟩ := hgrows.generated row hrow
    exact ⟨row', hrow', settings, fetched, hrecord.of_sameRules hsame⟩

lemma id_of_getGenerated {id : String} (hitem : t.getGenerated id = some item) : item.id = id := by
  rw [LabTables.getGenerated] at hitem
  exact of_decide_eq_true (List.find?_some (p := fun row : GeneratedStrategy => decide (row.id = id)) hitem)

lemma PromotionSound.known (h : PromotionSound env actions s) {id : String}
    (hitem : s.tables.getGenerated id = some item) : Known s.tables item :=
  have hmem : item ∈ s.tables.generated := List.mem_of_find?_eq_some hitem
  ⟨⟨item, hmem, rfl, rfl, rfl⟩, h.rows item hmem⟩

lemma promotable_latest (hlatest : t.latestBacktest item.id = some backtest) (hblockers : backtest.blockers = []) :
    Promotable t item backtest := by
  have hmem := List.mem_filter.mp (List.argmax_mem (Option.mem_def.mpr hlatest))
  exact ⟨hmem.1, of_decide_eq_true hmem.2, hblockers⟩

lemma PromotionSound.create (h : PromotionSound env actions s) (item : GeneratedStrategy) :
    PromotionSound env actions (s.create item) := by
  rw [PromotionState.create]
  split_ifs with hnew
  · obtain ⟨hshadow, hfresh⟩ := hnew
    have hgrows : Grows s.tables { s.tables with generated := s.tables.generated ++ [item] } :=
      ⟨fun row hrow => ⟨row, List.mem_append_left _ hrow, rfl, rfl, rfl⟩, fun _ h => h, fun _ h => h, fun _ h => h⟩
    refine ⟨?_, fun row hrow hstatus => ?_, fun backtest hbacktest => ?_,
      fun call c hc => (h.calls call c hc).mono hgrows⟩
    · rw [List.map_append, List.map_singleton]
      refine h.ids.append (List.nodup_singleton _) ?_
      rw [List.disjoint_singleton]
      intro hmem
      obtain ⟨row, hrow, hid⟩ := List.mem_map.mp hmem
      exact (hfresh row hrow).1 hid
    · rcases List.mem_append.mp hrow with hold | hlast
      · exact (h.rows row hold hstatus).mono hgrows
      · rw [List.mem_singleton.mp hlast, hshadow] at hstatus
        exact nomatch hstatus
    · obtain ⟨row, hrow, hrecord⟩ := h.genuine backtest hbacktest
      exact ⟨row, List.mem_append_left _ hrow, hrecord⟩
  · exact h

lemma PromotionSound.step (h : PromotionSound env actions s) {action : PromotionAction} (haction : action ∈ actions) :
    PromotionSound env actions (promotionStep env s action) := by
  unfold promotionStep
  cases action with
  | create item => exact h.create item
  | beginBacktest call settings id =>
    dsimp only
    split
    · rename_i item _ hitem
      split_ifs
      · refine h.goTo call fun c hc => ?_
        obtain rfl := Option.some.inj hc
        exact ⟨h.known hitem, id_of_getGenerated hitem ▸ haction⟩
      · exact h
    · exact h
  | record call fetched id now =>
    dsimp only
    split
    · rename_i item settings hcall
      obtain ⟨hknown, hbegun⟩ : Known s.tables item ∧ PromotionAction.beginBacktest call settings item.id ∈ actions :=
        h.calls call _ hcall
      split_ifs with hfresh
      · obtain ⟨row, hrow, hsame⟩ := hknown.1
        have hgrows : Grows s.tables
            { s.tables with backtests := s.tables.backtests ++ [backtestRecord env settings item fetched id now] } :=
          ⟨fun row hrow => ⟨row, hrow, rfl, rfl, rfl⟩, List.subset_append_left _ _, fun _ h => h, fun _ h => h⟩
        refine (h.append hgrows rfl fun backtest hbacktest hold => ?_).goTo call fun c hc => ?_
        · obtain rfl := List.mem_singleton.mp ((List.mem_append.mp hbacktest).resolve_left hold)
          have hbacktested : Backtested env actions item (backtestRecord env settings item fetched id now) settings
              fetched := ⟨⟨call, hbegun, haction⟩, rfl⟩
          exact ⟨row, hrow, settings, fetched, hbacktested.of_sameRules hsame⟩
        · obtain rfl := Option.some.inj hc
          exact hknown.mono hgrows
      · exact h.finish call
    · exact h
  | writeBack call now =>
    dsimp only
    split
    · rename_i item saved hcall
      have hknown : Known s.tables item := h.calls call _ hcall
      exact (h.updateStatus hknown.1 hknown.2 saved.id now).finish call
    · exact h
  | beginPromotion call settings id =>
    dsimp only
    split
    · rename_i item _ hitem
      split_ifs
      · refine h.goTo call fun c hc => ?_
        obtain rfl := Option.some.inj hc
        exact h.known hitem
      · exact h
    · exact h
  | check call =>
    dsimp only
    split
    · rename_i item hcall
      have hknown : Known s.tables item := h.calls call _ hcall
      split
      · rename_i backtest hlatest
        split_ifs with hpassed
        · refine h.goTo call fun c hc => ?_
          obtain rfl := Option.some.inj hc
          exact ⟨hknown, promotable_latest hlatest hpassed.2⟩
        · exact h.finish call
      · exact h.finish call
    · exact h
  | createVersion call id =>
    dsimp only
    split
    · rename_i item backtest hcall
      obtain ⟨hknown, hpromotable⟩ : Known s.tables item ∧ Promotable s.tables item backtest := h.calls call _ hcall
      split_ifs
      · have hgrows : Grows s.tables
            { s.tables with versions := s.tables.versions ++ [promotedVersion item backtest id] } :=
          ⟨fun row hrow => ⟨row, hrow, rfl, rfl, rfl⟩, fun _ h => h, List.subset_append_left _ _, fun _ h => h⟩
        refine (h.append hgrows rfl fun backtest hbacktest hold => absurd hbacktest hold).goTo call fun c hc => ?_
        obtain rfl := Option.some.inj hc
        exact ⟨hknown.mono hgrows, hpromotable.mono hgrows, List.mem_append_right _ (List.mem_singleton_self _),
          rfl, rfl, rfl, rfl⟩
      · exact h.finish call
    · exact h
  | recordDecision call id decidedBy =>
    dsimp only
    split
    · rename_i item backtest version hcall
      obtain ⟨hknown, hpromotable, hversion, hof⟩ : Known s.tables item ∧ Promotable s.tables item backtest ∧
        version ∈ s.tables.versions ∧ VersionOf version item backtest := h.calls call _ hcall
      split_ifs
      · have hgrows : Grows s.tables { s.tables with
            decisions := s.tables.decisions ++ [promotionDecision version backtest id decidedBy] } :=
          ⟨fun row hrow => ⟨row, hrow, rfl, rfl, rfl⟩, fun _ h => h, fun _ h => h, List.subset_append_left _ _⟩
        refine (h.append hgrows rfl fun backtest hbacktest hold => absurd hbacktest hold).goTo call fun c hc => ?_
        obtain rfl := Option.some.inj hc
        exact ⟨hknown.mono hgrows, backtest, hpromotable.mono hgrows, version, hversion, hof, _,
          List.mem_append_right _ (List.mem_singleton_self _), rfl, rfl, rfl, rfl⟩
      · exact h.finish call
    · exact h
  | promote call now =>
    dsimp only
    split
    · rename_i item backtest hcall
      obtain ⟨hknown, hpapers⟩ : Known s.tables item ∧ Papers s.tables item := h.calls call _ hcall
      exact (h.updateStatus hknown.1 (fun _ => hpapers) backtest.id now).finish call
    · exact h
  | fail call => exact h.finish call

lemma promotionSound_run (env : LabEnv) (actions : List PromotionAction) :
    PromotionSound env actions (promotionRun env actions) :=
  Runs.invariant (fun _ _ h haction => h.step haction) (promotionSound_start env actions)
    (Runs.allowed_of_forall fun _ haction => haction)

end Run

/-- However backtests and promotions overlap, what may trade on paper was backtested with the very rules it trades
by: the engine ran them over every history without an error, the trades met the gates of the settings it was run
with, and a version with these rules was approved on that backtest. -/
theorem paperGenerated_earned (env : LabEnv) (actions : List PromotionAction) (row : GeneratedStrategy)
    (hrow : row ∈ (promotionRun env actions).tables.generated) (hstatus : row.status = .paperGenerated) :
    ∃ backtest ∈ (promotionRun env actions).tables.backtests, backtest.generatedStrategyId = row.id ∧
      backtest.blockers = [] ∧
      (∃ version ∈ (promotionRun env actions).tables.versions, VersionOf version row backtest ∧
        ∃ decision ∈ (promotionRun env actions).tables.decisions, decision.strategyVersionId = version.id ∧
          decision.approved = true ∧ decision.backtestId = backtest.id ∧ decision.metrics = backtest.metrics) ∧
        ∃ settings fetched, Backtested env actions row backtest settings fetched ∧
          GatesMet env settings row.dsl fetched := by
  have hsound := promotionSound_run env actions
  obtain ⟨backtest, ⟨hbacktest, hid, hblockers⟩, hversion⟩ := hsound.rows row hrow hstatus
  obtain ⟨origin, horigin, settings, fetched, hbacktested⟩ := hsound.genuine backtest hbacktest
  have hsame : origin = row := by
    refine List.inj_on_of_nodup_map hsound.ids horigin hrow ?_
    rw [← hid, hbacktested.2]
    rfl
  rw [hsame] at hbacktested
  refine ⟨backtest, hbacktest, hid, hblockers, hversion, settings, fetched, hbacktested, gatesMet_of_blockers ?_⟩
  rw [hbacktested.2] at hblockers
  exact hblockers

-- ``alwaysLong``, on prices that rise by three a day, is backtested and promoted while
-- a second backtest of it is on its way.
def risingDays : Backtesting.Frame :=
  (List.range 26).map fun (day : ℕ) =>
    ⟨day * Utils.Time.microsPerDay, 100 + 3 * day, 104 + 3 * day, 99 + 3 * day, 103 + 3 * day, 1000⟩

def smallLab : LabSettings where
  strategyLabEnabled := true
  paperTradingEnabled := true
  minBacktestTrades := 1

def labEnv : LabEnv := ⟨Utils.Time.easternStandard, squareRoot⟩

def promotedBetween : List PromotionAction :=
  [.create ⟨"genstrat_1", "generated_always_long", .generatedShadow, alwaysLong, none, 0⟩,
    .beginBacktest 0 smallLab "genstrat_1", .record 0 [("NVDA", some risingDays)] "genbt_1" 1,
    .beginBacktest 1 smallLab "genstrat_1", .writeBack 0 2, .beginPromotion 2 smallLab "genstrat_1", .check 2,
    .record 1 [] "genbt_2" 3, .writeBack 1 4, .createVersion 2 "version_1", .recordDecision 2 "promotion_1" "operator",
    .promote 2 5]

theorem paperGenerated_earned_promotedBetween :
    ∃ row ∈ (promotionRun labEnv promotedBetween).tables.generated,
      ∃ backtest ∈ (promotionRun labEnv promotedBetween).tables.backtests, backtest.generatedStrategyId = row.id ∧
        backtest.blockers = [] ∧
        (∃ version ∈ (promotionRun labEnv promotedBetween).tables.versions, VersionOf version row backtest ∧
          ∃ decision ∈ (promotionRun labEnv promotedBetween).tables.decisions, decision.strategyVersionId = version.id ∧
            decision.approved = true ∧ decision.backtestId = backtest.id ∧ decision.metrics = backtest.metrics) ∧
          ∃ settings fetched, Backtested labEnv promotedBetween row backtest settings fetched ∧
            GatesMet labEnv settings row.dsl fetched := by
  have hpromoted : ∃ row ∈ (promotionRun labEnv promotedBetween).tables.generated, row.status = .paperGenerated := by
    decide +kernel
  obtain ⟨row, hrow, hstatus⟩ := hpromoted
  exact ⟨row, hrow, paperGenerated_earned labEnv promotedBetween row hrow hstatus⟩

end AlgoTrader.StrategyLab
