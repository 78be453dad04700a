import AlgoTrader.Broker.EtoroLiveGates
import Mathlib.Data.List.Sort
import Mathlib.Data.Prod.Lex
import Mathlib.Data.String.Basic

/-! The ranking of the open shadow (``app/workflow/open_shadow.py``): the setups that passed, best
first, and the eToro slots handed out among them against the stored account. -/

namespace AlgoTrader.Workflow.OpenShadow

open Broker.Etoro

inductive Slot
  | duplicateSymbol
  | etoro
  | paperOnly
  deriving DecidableEq, Repr

/-- A setup that was checked at the open. An amount is unknown where the equity is. -/
structure Row where
  symbol : String
  strategy : String
  specKey : String
  kind : String
  entryAtQuote : ℚ
  entryDriftBps : ℚ
  stop : ℚ
  target : ℚ
  rrAtQuote : Option ℚ
  oosExpectancyR : Option ℚ
  etoroAmountUsd : Option ℚ
  etoroCopyRulesOk : Bool
  driftFromSignalOk : Bool
  deriving DecidableEq, Repr

structure Mark where
  rank : ℕ
  slot : Slot
  roomHints : List String
  deriving DecidableEq, Repr

structure Account where
  equity : Option ℚ
  cash : Option ℚ
  openSymbols : List String
  liveCopiesToday : List String
  tradesToday : ℕ
  accountHints : List String
  deriving DecidableEq, Repr

abbrev RankKey := ℕ ×ₗ ℕ ×ₗ ℚ ×ₗ ℚ ×ₗ String ×ₗ String

def rankKey (row : Row) : RankKey :=
  toLex (if row.etoroCopyRulesOk then 0 else 1,
    toLex (if row.etoroCopyRulesOk then (if row.kind = "strict" then 0 else 1) else 0,
      toLex (row.oosExpectancyR.elim 9 fun expectancy => -expectancy,
        toLex (-(row.rrAtQuote.getD 0), toLex (row.symbol, row.specKey)))))

def ranked (rows : List Row) : List Row := rows.insertionSort fun a b => rankKey a ≤ rankKey b

structure Room where
  held : List String
  cash : Option ℚ
  slots : ℕ
  taken : List String

def Room.start (account : Account) : Room where
  held := account.openSymbols.dedup
  cash := account.cash
  slots := hardMaxTradesPerDay
  taken := []

-- ``if amount and ...``: an amount of zero is no amount.
def cashHint (room : Room) (row : Row) : List String :=
  match row.etoroAmountUsd, room.cash with
  | some amount, some cash =>
    if amount ≠ 0 ∧ cash - cashReserveUsd < amount then ["etoro_live_insufficient_cash"] else []
  | _, _ => []

def roomHints (settings : Settings) (room : Room) (row : Row) : List String :=
  (if row.symbol ∈ room.held then ["etoro_live_symbol_already_open"] else []) ++
    (if hardMaxOpenPositions ≤ room.held.length then ["etoro_live_open_position_cap"] else []) ++
    bucketBlockers settings row.symbol room.held ++ cashHint room row

def copies (settings : Settings) (room : Room) (row : Row) : Prop :=
  row.etoroCopyRulesOk = true ∧ roomHints settings room row = []

instance (settings : Settings) (room : Room) (row : Row) : Decidable (copies settings room row) :=
  inferInstanceAs (Decidable (_ ∧ _))

def Room.take (room : Room) (row : Row) : Room := { room with taken := row.symbol :: room.taken }

def Room.book (room : Room) (row : Row) : Room :=
  { held := room.held ++ [row.symbol]
    cash := Option.map₂ (· - ·) room.cash row.etoroAmountUsd
    slots := room.slots - 1
    taken := row.symbol :: room.taken }

def refusalHints (settings : Settings) (room : Room) (row : Row) : List String :=
  if copies settings room row then ["etoro_daily_slots_taken"] else roomHints settings room row

def handOut (settings : Settings) : Room → ℕ → List Row → List (Row × Mark)
  | _, _, [] => []
  | room, rank, row :: rest =>
    if row.symbol ∈ room.taken then
      (row, ⟨rank, .duplicateSymbol, []⟩) :: handOut settings room (rank + 1) rest
    else if copies settings room row ∧ 0 < room.slots then
      (row, ⟨rank, .etoro, []⟩) :: handOut settings (room.book row) (rank + 1) rest
    else
      (row, ⟨rank, .paperOnly, refusalHints settings room row⟩) :: handOut settings (room.take row) (rank + 1) rest

def slots (settings : Settings) (rows : List Row) (account : Account) : List (Row × Mark) :=
  handOut settings (Room.start account) 1 (ranked rows)

def withSlot (slot : Slot) (marked : List (Row × Mark)) : List Row :=
  (marked.filter fun entry => entry.2.slot = slot).map Prod.fst

def entries (marked : List (Row × Mark)) : List (Row × Mark) :=
  marked.filter fun entry => entry.2.slot ≠ .duplicateSymbol

section HandOut

variable {settings : Settings} {room : Room} {rank : ℕ} {row : Row} {rows given : List Row}

inductive Handed (settings : Settings) : Room → List Row → List Row → Prop
  | done (room : Room) : Handed settings room [] []
  | duplicate {room : Room} {row : Row} {rest given : List Row} (hrow : row.symbol ∈ room.taken)
      (h : Handed settings room rest given) : Handed settings room (row :: rest) given
  | slot {room : Room} {row : Row} {rest given : List Row} (hrow : row.symbol ∉ room.taken)
      (hcopies : copies settings room row) (hslots : 0 < room.slots)
      (h : Handed settings (room.book row) rest given) : Handed settings room (row :: rest) (row :: given)
  | past {room : Room} {row : Row} {rest given : List Row} (hrow : row.symbol ∉ room.taken)
      (hrefused : ¬ (copies settings room row ∧ 0 < room.slots))
      (h : Handed settings (room.take row) rest given) : Handed settings room (row :: rest) given

lemma handed_handOut (settings : Settings) (room : Room) (rank : ℕ) (rows : List Row) :
    Handed settings room rows (withSlot .etoro (handOut settings room rank rows)) := by
  induction rows generalizing room rank with
  | nil => exact .done room
  | cons row rest ih =>
    rw [handOut]
    split_ifs with htaken hslot
    · exact .duplicate htaken (ih room (rank + 1))
    · exact .slot htaken hslot.1 hslot.2 (ih (room.book row) (rank + 1))
    · exact .past htaken hslot (ih (room.take row) (rank + 1))

lemma roomHints_eq_nil : roomHints settings room row = [] ↔
    row.symbol ∉ room.held ∧ room.held.length < hardMaxOpenPositions ∧
      bucketBlockers settings row.symbol room.held = [] ∧ cashHint room row = [] := by
  simp only [roomHints, List.append_eq_nil_iff, ite_eq_right_iff, List.cons_ne_nil, imp_false, not_le, and_assoc]

lemma Handed.length_le (h : Handed settings room rows given) : given.length ≤ room.slots := by
  induction h with
  | done room => exact Nat.zero_le _
  | duplicate hrow h ih => exact ih
  | slot hrow hcopies hslots h ih =>
    simp only [Room.book] at ih
    rw [List.length_cons]
    omega
  | past hrow hrefused h ih => exact ih

lemma Handed.not_mem_taken (h : Handed settings room rows given) (hrow : row ∈ given) : row.symbol ∉ room.taken := by
  induction h with
  | done room => exact absurd hrow List.not_mem_nil
  | duplicate _ h ih => exact ih hrow
  | slot hfirst hcopies hslots h ih =>
    rcases List.mem_cons.mp hrow with rfl | hrest
    · exact hfirst
    · exact fun hmem => ih hrest (List.mem_cons_of_mem _ hmem)
  | past _ _ h ih => exact fun hmem => ih hrow (List.mem_cons_of_mem _ hmem)

lemma Handed.not_held (h : Handed settings room rows given) (hrow : row ∈ given) :
    row.symbol ∉ room.held ∧ row.etoroCopyRulesOk = true := by
  induction h with
  | done room => exact absurd hrow List.not_mem_nil
  | duplicate _ h ih => exact ih hrow
  | slot hfirst hcopies hslots h ih =>
    rcases List.mem_cons.mp hrow with rfl | hrest
    · exact ⟨(roomHints_eq_nil.mp hcopies.2).1, hcopies.1⟩
    · obtain ⟨hheld, hok⟩ := ih hrest
      exact ⟨fun hmem => hheld (List.mem_append_left _ hmem), hok⟩
  | past _ _ h ih => exact ih hrow

lemma Handed.nodup (h : Handed settings room rows given) : (given.map Row.symbol).Nodup := by
  induction h with
  | done room => exact List.nodup_nil
  | duplicate _ h ih => exact ih
  | slot hfirst hcopies hslots h ih =>
    rw [List.map_cons, List.nodup_cons]
    refine ⟨fun hmem => ?_, ih⟩
    obtain ⟨other, hother, hsymbol⟩ := List.mem_map.mp hmem
    exact h.not_mem_taken hother (hsymbol ▸ List.mem_cons_self)
  | past _ _ h ih => exact ih

lemma Handed.held_le (h : Handed settings room rows given) (hgiven : given ≠ []) :
    room.held.length + given.length ≤ hardMaxOpenPositions := by
  induction h with
  | done room => exact absurd rfl hgiven
  | duplicate _ h ih => exact ih hgiven
  | @slot room row rest given hfirst hcopies hslots h ih =>
    have hlt := (roomHints_eq_nil.mp hcopies.2).2.1
    by_cases hrest : given = []
    · rw [hrest]
      exact hlt
    · have hbook := ih hrest
      simp only [Room.book, List.length_append, List.length_singleton] at hbook
      rw [List.length_cons]
      omega
  | past _ _ h ih => exact ih hgiven

def inBucket (settings : Settings) (bucket : String) (symbols : List String) : ℕ :=
  symbols.countP (settings.correlationBucketForSymbol · = bucket)

lemma inBucket_append (bucket : String) (l l' : List String) :
    inBucket settings bucket (l ++ l') = inBucket settings bucket l + inBucket settings bucket l' :=
  List.countP_append

lemma inBucket_lt_of_blockers (h : bucketBlockers settings row.symbol room.held = [])
    (hknown : settings.correlationBucketForSymbol row.symbol ≠ unknownBucket) :
    inBucket settings (settings.correlationBucketForSymbol row.symbol) room.held < hardMaxOpenPerBucket := by
  rw [bucketBlockers, if_neg hknown] at h
  split_ifs at h with hfull
  exact not_le.mp hfull

lemma Handed.bucket_le (h : Handed settings room rows given) {bucket : String} (hknown : bucket ≠ unknownBucket)
    (hsome : 0 < inBucket settings bucket (given.map Row.symbol)) :
    inBucket settings bucket (room.held ++ given.map Row.symbol) ≤ hardMaxOpenPerBucket := by
  induction h with
  | done room => exact absurd hsome (Nat.lt_irrefl 0)
  | duplicate _ h ih => exact ih hsome
  | @slot room row rest given hfirst hcopies hslots h ih =>
    simp only [Room.book] at ih
    rw [List.map_cons, ← List.singleton_append, ← List.append_assoc]
    by_cases hrest : 0 < inBucket settings bucket (given.map Row.symbol)
    · exact ih hrest
    · have hzero := Nat.eq_zero_of_not_pos hrest
      rw [List.map_cons, ← List.singleton_append, inBucket_append, hzero, Nat.add_zero] at hsome
      have hbucket : settings.correlationBucketForSymbol row.symbol = bucket := by
        by_contra hne
        simp [inBucket, hne] at hsome
      have hlt := inBucket_lt_of_blockers (roomHints_eq_nil.mp hcopies.2).2.2.1 (hbucket ▸ hknown)
      rw [hbucket] at hlt
      have hone : inBucket settings bucket [row.symbol] ≤ 1 := List.countP_le_length
      rw [inBucket_append, inBucket_append, hzero]
      omega
  | past _ _ h ih => exact ih hsome

lemma Handed.cash_le (h : Handed settings room rows given) {cash : ℚ} (hcash : room.cash = some cash)
    {amounts : List ℚ} (hamounts : given.map Row.etoroAmountUsd = amounts.map some) (hpos : ∀ amount ∈ amounts, 0 < amount)
    (hgiven : given ≠ []) : cashReserveUsd + amounts.sum ≤ cash := by
  induction h generalizing cash amounts with
  | done room => exact absurd rfl hgiven
  | duplicate _ h ih => exact ih hcash hamounts hpos hgiven
  | @slot room row rest given hfirst hcopies hslots h ih =>
    cases amounts with
    | nil => exact absurd hamounts (List.cons_ne_nil _ _)
    | cons amount amounts =>
      obtain ⟨hamount, hrest⟩ := List.cons.inj hamounts
      have hfits : amount ≤ cash - cashReserveUsd := by
        have hhint := (roomHints_eq_nil.mp hcopies.2).2.2.2
        rw [cashHint, hamount, hcash] at hhint
        dsimp only at hhint
        split_ifs at hhint with hshort
        exact not_lt.mp fun hlt => hshort ⟨(hpos amount List.mem_cons_self).ne', hlt⟩
      rw [List.sum_cons]
      by_cases hnone : given = []
      · have hnil : amounts = [] := by
          rw [hnone] at hrest
          exact List.map_eq_nil_iff.mp hrest.symm
        rw [hnil, List.sum_nil]
        linarith
      · have hbooked : (room.book row).cash = some (cash - amount) := by
          rw [Room.book, hamount, hcash]
          rfl
        have := ih hbooked hrest (fun other hother => hpos other (List.mem_cons_of_mem _ hother)) hnone
        linarith
  | past _ _ h ih => exact ih hcash hamounts hpos hgiven

end HandOut

/-- The account after the copies: within the open positions, the correlation groups and the free cash. -/
structure WithinAccount (settings : Settings) (account : Account) (given : List Row) : Prop where
  slots : given.length ≤ hardMaxTradesPerDay
  symbols : (given.map Row.symbol).Nodup
  free : ∀ row ∈ given, row.symbol ∉ account.openSymbols ∧ row.etoroCopyRulesOk = true
  positions : given ≠ [] → account.openSymbols.dedup.length + given.length ≤ hardMaxOpenPositions
  groups : ∀ bucket ≠ unknownBucket, 0 < inBucket settings bucket (given.map Row.symbol) →
    inBucket settings bucket (account.openSymbols.dedup ++ given.map Row.symbol) ≤ hardMaxOpenPerBucket
  cash : ∀ (cash : ℚ) (amounts : List ℚ), account.cash = some cash → given.map Row.etoroAmountUsd = amounts.map some →
    (∀ amount ∈ amounts, 0 < amount) → given ≠ [] → cashReserveUsd + amounts.sum ≤ cash

theorem slots_withinAccount (settings : Settings) (rows : List Row) (account : Account) :
    WithinAccount settings account (withSlot .etoro (slots settings rows account)) := by
  have h := handed_handOut settings (Room.start account) 1 (ranked rows)
  exact {
    slots := h.length_le
    symbols := h.nodup
    free := fun row hrow => by
      obtain ⟨hheld, hok⟩ := h.not_held hrow
      exact ⟨fun hmem => hheld (List.mem_dedup.mpr hmem), hok⟩
    positions := h.held_le
    groups := fun bucket hknown hsome => h.bucket_le hknown hsome
    cash := fun cash amounts hcash hamounts hpos hgiven => h.cash_le hcash hamounts hpos hgiven }

section Best

variable {settings : Settings} {room : Room} {rank : ℕ} {rows : List Row}

lemma map_fst_handOut (settings : Settings) (room : Room) (rank : ℕ) (rows : List Row) :
    (handOut settings room rank rows).map Prod.fst = rows := by
  induction rows generalizing room rank with
  | nil => rfl
  | cons row rest ih =>
    rw [handOut]
    split_ifs <;> rw [List.map_cons, ih]

/-- No setup is passed over for lack of a slot that a setup ranked after it gets. -/
def NotPassedOver (earlier later : Row × Mark) : Prop :=
  later.2.slot = .etoro → earlier.2.slot = .paperOnly → earlier.1.etoroCopyRulesOk = true →
    earlier.2.roomHints ≠ [] ∧ earlier.2.roomHints ≠ ["etoro_daily_slots_taken"]

lemma no_etoro_of_no_slots {entry : Row × Mark} (hslots : room.slots = 0)
    (h : entry ∈ handOut settings room rank rows) : entry.2.slot ≠ .etoro := by
  intro hslot
  have hle := (handed_handOut settings room rank rows).length_le
  have hmem : entry.1 ∈ withSlot .etoro (handOut settings room rank rows) :=
    List.mem_map_of_mem (List.mem_filter.mpr ⟨h, by simpa using hslot⟩)
  exact absurd (List.length_pos_of_mem hmem) (by omega)

lemma taken_hint_not_room (row : Row) : roomHints settings room row ≠ ["etoro_daily_slots_taken"] := by
  intro h
  have hmem : "etoro_daily_slots_taken" ∈ roomHints settings room row := h ▸ List.mem_singleton_self _
  simp only [roomHints, List.mem_append] at hmem
  rcases hmem with ((hmem | hmem) | hmem) | hmem
  · split_ifs at hmem <;> simp at hmem
  · split_ifs at hmem <;> simp at hmem
  · rw [bucketBlockers] at hmem
    split_ifs at hmem <;> simp at hmem
  · rw [cashHint] at hmem
    split at hmem
    · split_ifs at hmem <;> simp at hmem
    · simp at hmem

lemma pairwise_handOut (settings : Settings) (room : Room) (rank : ℕ) (rows : List Row) :
    (handOut settings room rank rows).Pairwise NotPassedOver := by
  induction rows generalizing room rank with
  | nil => exact List.Pairwise.nil
  | cons row rest ih =>
    rw [handOut]
    split_ifs with htaken hslot
    · exact List.Pairwise.cons (fun later _ _ hpaper => nomatch hpaper) (ih room (rank + 1))
    · exact List.Pairwise.cons (fun later _ _ hpaper => nomatch hpaper) (ih (room.book row) (rank + 1))
    · refine List.Pairwise.cons (fun later hlater hetoro _ hok => ?_) (ih (room.take row) (rank + 1))
      dsimp only at hok ⊢
      rw [refusalHints]
      split_ifs with hcopies
      · have hnone : room.slots = 0 := Nat.eq_zero_of_not_pos fun hpos => hslot ⟨hcopies, hpos⟩
        have hfull : (room.take row).slots = 0 := hnone
        exact absurd hetoro (no_etoro_of_no_slots hfull hlater)
      · exact ⟨fun hnil => hcopies ⟨hok, hnil⟩, taken_hint_not_room row⟩

lemma symbol_of_entry {entry : Row × Mark} (h : entry ∈ entries (handOut settings room rank rows)) :
    entry.1.symbol ∉ room.taken := by
  induction rows generalizing room rank with
  | nil => exact absurd h List.not_mem_nil
  | cons row rest ih =>
    rw [handOut] at h
    split_ifs at h with htaken hslot
    · exact ih h
    · rcases List.mem_cons.mp h with rfl | hrest
      · exact htaken
      · have hfree : entry.1.symbol ∉ (room.book row).taken := ih hrest
        exact fun hmem => hfree (List.mem_cons_of_mem _ hmem)
    · rcases List.mem_cons.mp h with rfl | hrest
      · exact htaken
      · have hfree : entry.1.symbol ∉ (room.take row).taken := ih hrest
        exact fun hmem => hfree (List.mem_cons_of_mem _ hmem)

lemma nodup_entries (settings : Settings) (room : Room) (rank : ℕ) (rows : List Row) :
    ((entries (handOut settings room rank rows)).map fun entry => entry.1.symbol).Nodup := by
  induction rows generalizing room rank with
  | nil => exact List.nodup_nil
  | cons row rest ih =>
    rw [handOut]
    split_ifs with htaken hslot
    · exact ih room (rank + 1)
    · refine List.nodup_cons.mpr ⟨fun hmem => ?_, ih (room.book row) (rank + 1)⟩
      obtain ⟨entry, hentry, hsymbol⟩ := List.mem_map.mp hmem
      exact symbol_of_entry hentry (hsymbol ▸ List.mem_cons_self)
    · refine List.nodup_cons.mpr ⟨fun hmem => ?_, ih (room.take row) (rank + 1)⟩
      obtain ⟨entry, hentry, hsymbol⟩ := List.mem_map.mp hmem
      exact symbol_of_entry hentry (hsymbol ▸ List.mem_cons_self)

lemma exists_entry {row : Row} (hsorted : rows.Pairwise fun a b => rankKey a ≤ rankKey b) (hrow : row ∈ rows)
    (hfree : row.symbol ∉ room.taken) : ∃ entry ∈ entries (handOut settings room rank rows),
      entry.1.symbol = row.symbol ∧ rankKey entry.1 ≤ rankKey row := by
  induction rows generalizing room rank with
  | nil => exact absurd hrow List.not_mem_nil
  | cons first rest ih =>
    obtain ⟨hfirst, hrest⟩ := List.pairwise_cons.mp hsorted
    rw [handOut]
    have hlater (room' : Room) (hroom : room'.taken = first.symbol :: room.taken) (mark : Mark)
        (hmark : mark.slot ≠ .duplicateSymbol) :
        ∃ entry ∈ entries ((first, mark) :: handOut settings room' (rank + 1) rest),
          entry.1.symbol = row.symbol ∧ rankKey entry.1 ≤ rankKey row := by
      have hcons : entries ((first, mark) :: handOut settings room' (rank + 1) rest) =
          (first, mark) :: entries (handOut settings room' (rank + 1) rest) :=
        List.filter_cons_of_pos (by simpa using hmark)
      rw [hcons]
      by_cases hsame : first.symbol = row.symbol
      · refine ⟨(first, mark), List.mem_cons_self, hsame, ?_⟩
        rcases List.mem_cons.mp hrow with rfl | hmem
        · exact le_rfl
        · exact hfirst row hmem
      · have hmem : row ∈ rest := (List.mem_cons.mp hrow).resolve_left fun heq => hsame (congrArg Row.symbol heq).symm
        have hfree' : row.symbol ∉ room'.taken := by
          rw [hroom, List.mem_cons, not_or]
          exact ⟨fun heq => hsame heq.symm, hfree⟩
        obtain ⟨entry, hentry, hspec⟩ : ∃ entry ∈ entries (handOut settings room' (rank + 1) rest),
            entry.1.symbol = row.symbol ∧ rankKey entry.1 ≤ rankKey row := ih hrest hmem hfree'
        exact ⟨entry, List.mem_cons_of_mem _ hentry, hspec⟩
    split_ifs with htaken hslot
    · have hne : row ≠ first := fun heq => hfree (heq ▸ htaken)
      exact ih hrest ((List.mem_cons.mp hrow).resolve_left hne) hfree
    · exact hlater (room.book first) rfl _ (fun h => nomatch h)
    · exact hlater (room.take first) rfl _ (fun h => nomatch h)

/-- The setups that are not duplicates are the best one of each symbol, and a copyable setup without a
slot, ranked before one that got a slot, found no room in the account. -/
theorem slots_best (settings : Settings) (rows : List Row) (account : Account) :
    (slots settings rows account).map Prod.fst = ranked rows ∧
    ((entries (slots settings rows account)).map fun entry => entry.1.symbol).Nodup ∧
    (∀ row ∈ rows, ∃ entry ∈ entries (slots settings rows account),
      entry.1.symbol = row.symbol ∧ rankKey entry.1 ≤ rankKey row) ∧
    (slots settings rows account).Pairwise NotPassedOver := by
  refine ⟨map_fst_handOut _ _ _ _, nodup_entries _ _ _ _, fun row hrow => ?_, pairwise_handOut _ _ _ _⟩
  have hsorted : (ranked rows).Pairwise fun a b => rankKey a ≤ rankKey b := List.pairwise_insertionSort _ rows
  exact exists_entry hsorted ((List.mem_insertionSort _).mpr hrow) List.not_mem_nil

end Best

end AlgoTrader.Workflow.OpenShadow
