import AlgoTrader.Lib.GuardedCache
import AlgoTrader.StrategyLab.Dsl

/-! The generated strategies as a scan looks them up by name (``build_strategy_for_spec`` of
``app/strategy_lab/service.py``), through the cached list of those that may trade on paper. -/

namespace AlgoTrader.StrategyLab

open History (Seen Version)

inductive GeneratedStatus
  | generatedShadow
  | paperGenerated
  | rejected
  | retired
  deriving DecidableEq, Repr

structure GeneratedStrategy where
  id : String
  name : String
  status : GeneratedStatus := .generatedShadow
  dsl : StrategyLabDsl
  latestBacktestId : Option String := none
  updatedAt : ℕ

abbrev GeneratedTable := List GeneratedStrategy

def listGenerated (status : GeneratedStatus) (limit : ℕ) (table : GeneratedTable) : List GeneratedStrategy :=
  ((table.filter (·.status = status)).insertionSort (·.updatedAt ≥ ·.updatedAt)).take (max 1 limit)

def getGeneratedByName (name : String) (table : GeneratedTable) : Option GeneratedStrategy :=
  table.find? (·.name = name)

def paperGeneratedLimit : ℕ := 500

-- In nanoseconds.
def paperGeneratedTtl : ℕ := 60_000_000_000

def paperGenerated (table : GeneratedTable) : List GeneratedStrategy :=
  listGenerated .paperGenerated paperGeneratedLimit table

def buildable (item : Option GeneratedStrategy) : Option StrategyLabDsl :=
  (item.filter (·.status = .paperGenerated)).map GeneratedStrategy.dsl

/-- What a lookup by name returns from the cached list, none where it could not be read, and the row that it
reads by name unless the list shows that there is none to build. -/
def buildFrom (name : String) (cached : Option (List GeneratedStrategy)) (row : Option GeneratedStrategy) :
    Option StrategyLabDsl :=
  if cached.any fun items => items.length < paperGeneratedLimit ∧ name ∉ items.map GeneratedStrategy.name then none
  else buildable row

def buildByName (name : String) (table : GeneratedTable) : Option StrategyLabDsl :=
  buildable (getGeneratedByName name table)

abbrev LabState := GuardedCache.State ℕ GeneratedTable (List GeneratedStrategy)

abbrev LabAction := GuardedCache.Action ℕ GeneratedTable

def labRun (table : GeneratedTable) (actions : List LabAction) : LabState :=
  GuardedCache.run paperGeneratedTtl paperGenerated table actions

section Lookup

variable {name : String} {table : GeneratedTable}

lemma mem_paperGenerated (hfew : (paperGenerated table).length < paperGeneratedLimit) {item : GeneratedStrategy}
    (hitem : item ∈ table) (hstatus : item.status = .paperGenerated) : item ∈ paperGenerated table := by
  rw [paperGenerated, listGenerated] at hfew ⊢
  rw [List.length_take] at hfew
  rw [List.take_of_length_le]
  · exact (List.mem_insertionSort _).mpr (List.mem_filter.mpr ⟨hitem, decide_eq_true hstatus⟩)
  · have hlimit : max 1 paperGeneratedLimit = paperGeneratedLimit := rfl
    omega

lemma buildByName_eq_none (hfew : (paperGenerated table).length < paperGeneratedLimit)
    (hname : name ∉ (paperGenerated table).map GeneratedStrategy.name) : buildByName name table = none := by
  rw [buildByName, buildable, Option.map_eq_none_iff, Option.filter_eq_none_iff]
  intro item hitem hstatus
  rw [getGeneratedByName] at hitem
  have hfound := List.find?_some hitem
  exact hname (List.mem_map.mpr ⟨item, mem_paperGenerated hfew (List.mem_of_find?_eq_some hitem)
    (of_decide_eq_true hstatus), of_decide_eq_true hfound⟩)

lemma seen_of_view {β γ : Type*} {history : List (Version GeneratedTable)} {view : GeneratedTable → β}
    {other : GeneratedTable → γ} {floor time : ℕ} {seen : β} {value : γ} (h : Seen history view floor time seen)
    (hview : ∀ table, view table = seen → other table = value) : Seen history other floor time value := by
  obtain ⟨v, ⟨version, hversion, hseen⟩, hfloor, hlater⟩ := h
  exact ⟨v, ⟨version, hversion, hview _ hseen⟩, hfloor, hlater⟩

end Lookup

/-- What a scan builds by name through the cached list is what a plain lookup finds in some version of the table:
no older than any write of this process that had returned when the list was asked for, and not replaced longer
before than an entry is kept. -/
theorem buildFrom_seen (table : GeneratedTable) (actions later : List LabAction) (name : String)
    (answer : GuardedCache.Answer (List GeneratedStrategy)) (h : answer ∈ (labRun table actions).answers) :
    Seen (labRun table (actions ++ later)).history (buildByName name) answer.floor (answer.time - paperGeneratedTtl)
      (buildFrom name (some answer.value) (getGeneratedByName name (labRun table (actions ++ later)).table)) := by
  have hsound : GuardedCache.Sound paperGeneratedTtl paperGenerated (labRun table (actions ++ later)) :=
    GuardedCache.sound_run paperGeneratedTtl paperGenerated table (actions ++ later)
  obtain ⟨-, hfloor, hseen⟩ := hsound.answers answer (GuardedCache.mem_answers_run h later)
  have hseen := hseen.anti le_rfl (Nat.sub_le_sub_left (Nat.sub_le _ 1) answer.time)
  rw [buildFrom]
  split_ifs with hlist
  · rw [Option.any_some, decide_eq_true_eq] at hlist
    refine seen_of_view hseen fun version hversion => ?_
    rw [← hversion] at hlist
    exact buildByName_eq_none hlist.1 hlist.2
  · -- The row is read from the table as it is now, which no version has replaced.
    exact hsound.seen_table hfloor (buildByName name)

/-- A scan has found the list empty when another process promotes a strategy. -/
def asked : List LabAction :=
  [.tick (2 * paperGeneratedTtl), .ask 0, .look 0 false, .judge 0, .note 0, .read 0, .keep 0]

def promotedElsewhere : List LabAction :=
  [.commit fun _ => [⟨"gen_1", "generated_pullback", .paperGenerated, pullback, some "bt_1", 1⟩]]

theorem buildFrom_seen_asked :
    Seen (labRun [] (asked ++ promotedElsewhere)).history (buildByName "generated_pullback") 0
      (2 * paperGeneratedTtl - paperGeneratedTtl)
      (buildFrom "generated_pullback" (some [])
        (getGeneratedByName "generated_pullback" (labRun [] (asked ++ promotedElsewhere)).table)) :=
  have hanswers : (labRun [] asked).answers = [⟨2 * paperGeneratedTtl, 0, []⟩] := rfl
  buildFrom_seen [] asked promotedElsewhere "generated_pullback" ⟨2 * paperGeneratedTtl, 0, []⟩
    (hanswers ▸ List.mem_singleton_self _)

end AlgoTrader.StrategyLab
