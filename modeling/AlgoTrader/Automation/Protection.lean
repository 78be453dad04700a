import AlgoTrader.Automation.Reconciliation
import AlgoTrader.Lib.Collect

/-! Which unprotected positions a sweep reports. What protects a position is stated on the
orders as the broker holds them, with their types and quantities; the sweep judges by symbol and
side. -/

namespace AlgoTrader.Automation

open Broker Text

section Broker

variable (orders : List BrokerOrder)

def workingOrders : List BrokerLeg :=
  (orders.flatMap fun order => order.toBrokerLeg :: order.legs).filter (legIsLive ·.status)

def reducing (position : PortfolioPosition) : List BrokerLeg :=
  (workingOrders orders).filter fun order =>
    order.symbol.toUpper = position.symbol.toUpper ∧ order.side.toLower = closingSide position

def stopQuantity (position : PortfolioPosition) : ℚ :=
  (((reducing orders position).filter (isStopType ·.type)).map
    fun order => max (order.qty - order.filledQty) 0).sum

def StopCovered (position : PortfolioPosition) : Prop :=
  |position.quantity| ≤ stopQuantity orders position

-- Of any quantity: a close is sent for all that is held, and what of it is left is what its order works off.
def ClosingInFlight (position : PortfolioPosition) : Prop :=
  ∃ order ∈ reducing orders position, order.type.toLower = "market"

def Bare (position : PortfolioPosition) : Prop :=
  ¬StopCovered orders position ∧ ¬ClosingInFlight orders position

instance (position : PortfolioPosition) : Decidable (StopCovered orders position) :=
  inferInstanceAs (Decidable (_ ≤ _))

instance (position : PortfolioPosition) : Decidable (ClosingInFlight orders position) :=
  inferInstanceAs (Decidable (∃ _ ∈ _, _))

instance (position : PortfolioPosition) : Decidable (Bare orders position) :=
  inferInstanceAs (Decidable (_ ∧ _))

end Broker

def closesSymbol (symbol : String) : SweepLog → Bool
  | .flattened closed _ => closed = symbol
  | .alreadyFlat closed _ => closed = symbol
  | _ => false

section Snapshot

variable (snapshot : Snapshot)

def Ours (order : BrokerOrder) : Prop := (executionByOrder snapshot order.id).isSome = true

def Owned (symbol : String) : Prop :=
  ∃ order ∈ snapshot.orders, Ours snapshot order ∧ order.symbol.toUpper = symbol

def OwnBracketStop (symbol : String) : Prop :=
  ∃ order ∈ snapshot.orders, Ours snapshot order ∧ order.symbol.toUpper = symbol ∧
    order.orderClass = "bracket" ∧
    ∃ leg ∈ order.legs, legIsLive leg.status = true ∧ isStopType leg.type = true

def LiveReducingOrder (symbol side : String) : Prop :=
  ∃ order ∈ snapshot.orders, symbol ≠ "" ∧ order.symbol.toUpper = symbol ∧
    order.side.toLower = side ∧ legIsLive order.status = true

instance (symbol side : String) : Decidable (LiveReducingOrder snapshot symbol side) :=
  inferInstanceAs (Decidable (∃ _ ∈ _, _))

def closeAnswer (symbol : String) : Option (Except String Unit) :=
  if snapshot.settings.flattenUnprotectedPositions = true ∧
      snapshot.settings.executionMode = "paper" ∧ snapshot.settings.enableRealTrading = false then
    snapshot.closePosition.map (· symbol)
  else none

def Closes (symbol : String) : Prop :=
  closeAnswer snapshot symbol = some (.ok ()) ∨
    ∃ message, closeAnswer snapshot symbol = some (.error message) ∧
      mentions alreadyFlatMarkers message = true

def Defers (symbol : String) : Prop :=
  ∃ message, closeAnswer snapshot symbol = some (.error message) ∧
    mentions alreadyFlatMarkers message = false ∧ mentions qtyHeldMarkers message = true

/-- The sweep asked for the position to be closed and was told that it is closing or gone. -/
def ClosedBySweep (symbol : String) : Prop :=
  ∃ entry ∈ (reconcile snapshot).logs, closesSymbol symbol entry = true

def Flagged (symbol : String) : Prop :=
  missingBracketProtection symbol ∈ (reconcile snapshot).issues

def ProtectionReported : Prop :=
  ∀ position ∈ snapshot.positions, ¬Flagged snapshot position.symbol.toUpper →
    StopCovered snapshot.orders position ∨ ClosingInFlight snapshot.orders position ∨
      ClosedBySweep snapshot position.symbol.toUpper

/-- What the sweep takes for protection or for a close in flight, whatever the orders' types
and quantities. -/
def Shielded (position : PortfolioPosition) : Prop :=
  OwnBracketStop snapshot position.symbol.toUpper ∨
    LiveReducingOrder snapshot position.symbol.toUpper (closingSide position)

def PassedOver (position : PortfolioPosition) : Prop :=
  Shielded snapshot position ∨
    Owned snapshot position.symbol.toUpper ∧ Defers snapshot position.symbol.toUpper

end Snapshot

section Scan

lemma mem_insert_if {α : Type} [DecidableEq α] {new old : α} {s : Finset α} {due : Prop}
    [Decidable due] : old ∈ (if due then insert new s else s) ↔ old ∈ s ∨ due ∧ new = old := by
  split_ifs with hdue
  · rw [Finset.mem_insert, or_comm, eq_comm]
    simp [hdue]
  · simp [hdue]

variable {snapshot : Snapshot} {symbol side : String} (scan : OrderScan) (order : BrokerOrder)

lemma scanOrder_owned :
    symbol ∈ (scanOrder snapshot scan (executionRecord order)).ownedSymbols ↔
      symbol ∈ scan.ownedSymbols ∨ Ours snapshot order ∧ order.symbol.toUpper = symbol := by
  apply mem_insert_if.trans
  simp only [executionRecord, toUpper_toUpper, Ours]

lemma liveLegs_ne_nil :
    liveLegs (executionRecord order).responsePayload ≠ [] ↔
      ∃ leg ∈ order.legs, legIsLive leg.status = true ∧ isStopType leg.type = true := by
  simp [liveLegs, executionRecord, List.filter_eq_nil_iff]

lemma scanOrder_protected :
    symbol ∈ (scanOrder snapshot scan (executionRecord order)).protectedSymbols ↔
      symbol ∈ scan.protectedSymbols ∨ Ours snapshot order ∧ order.symbol.toUpper = symbol ∧
        order.orderClass = "bracket" ∧
        ∃ leg ∈ order.legs, legIsLive leg.status = true ∧ isStopType leg.type = true := by
  apply mem_insert_if.trans
  rw [liveLegs_ne_nil]
  simp only [executionRecord, toUpper_toUpper, Ours]
  tauto

/-- Whatever its type, a live order of the closing side puts its symbol on one of the two lists. -/
lemma scanOrder_live :
    ((symbol, side) ∈ (scanOrder snapshot scan (executionRecord order)).liveProtectiveSides ∨
      (symbol, side) ∈ (scanOrder snapshot scan (executionRecord order)).liveCloseSides) ↔
      ((symbol, side) ∈ scan.liveProtectiveSides ∨ (symbol, side) ∈ scan.liveCloseSides) ∨
        symbol ≠ "" ∧ order.symbol.toUpper = symbol ∧ order.side.toLower = side ∧
          legIsLive order.status = true := by
  apply (or_congr mem_insert_if mem_insert_if).trans
  simp only [executionRecord, toUpper_toUpper, decide_eq_true_eq, Prod.mk.injEq]
  constructor
  · rintro ((h | ⟨⟨⟨hne, hlive⟩, -⟩, hsymbol, hside⟩) | h | ⟨⟨⟨hne, hlive⟩, -⟩, hsymbol, hside⟩)
    · exact .inl (.inl h)
    · exact .inr ⟨hsymbol ▸ hne, hsymbol, hside, hlive⟩
    · exact .inl (.inr h)
    · exact .inr ⟨hsymbol ▸ hne, hsymbol, hside, hlive⟩
  · rintro ((h | h) | ⟨hne, hsymbol, hside, hlive⟩)
    · exact .inl (.inl h)
    · exact .inr (.inl h)
    · have hlive' : order.symbol.toUpper ≠ "" ∧ legIsLive order.status = true :=
        ⟨hsymbol.symm ▸ hne, hlive⟩
      by_cases htype : (orText none (orText none "")).toLower ∈ protectiveOrderTypes
      · exact .inl (.inr ⟨⟨hlive', htype⟩, hsymbol, hside⟩)
      · exact .inr (.inr ⟨⟨hlive', htype⟩, hsymbol, hside⟩)

omit scan order in
lemma mem_ownedSymbols : symbol ∈ (scanOrders snapshot).ownedSymbols ↔ Owned snapshot symbol := by
  rw [scanOrders, List.foldl_map]
  apply (Collect.foldl_iff (fun scan : OrderScan => symbol ∈ scan.ownedSymbols) scanOrder_owned _ _).trans
  simp [Owned]

omit scan order in
lemma mem_protectedSymbols :
    symbol ∈ (scanOrders snapshot).protectedSymbols ↔ OwnBracketStop snapshot symbol := by
  rw [scanOrders, List.foldl_map]
  apply (Collect.foldl_iff (fun scan : OrderScan => symbol ∈ scan.protectedSymbols)
    scanOrder_protected _ _).trans
  simp [OwnBracketStop]

omit scan order in
lemma mem_liveSides :
    ((symbol, side) ∈ (scanOrders snapshot).liveProtectiveSides ∨
      (symbol, side) ∈ (scanOrders snapshot).liveCloseSides) ↔
      LiveReducingOrder snapshot symbol side := by
  rw [scanOrders, List.foldl_map]
  apply (Collect.foldl_iff
    (fun scan : OrderScan =>
      (symbol, side) ∈ scan.liveProtectiveSides ∨ (symbol, side) ∈ scan.liveCloseSides)
    scanOrder_live _ _).trans
  simp [LiveReducingOrder]

end Scan

section Texts

variable {symbol other : String}

lemma eq_of_missing_eq
    (h : missingBracketProtection other = missingBracketProtection symbol) : other = symbol := by
  unfold missingBracketProtection at h
  have hlist := congrArg String.toList h
  rw [String.toList_append, String.toList_append] at hlist
  exact String.toList_inj.mp (List.append_cancel_left hlist)

lemma head?_append_text {text : String} {c : Char} (h : text.toList.head? = some c) (rest : String) :
    (text ++ rest).toList.head? = some c := by
  rw [String.toList_append, List.head?_append, h, Option.some_or]

lemma head_missing (symbol : String) : (missingBracketProtection symbol).toList.head? = some 'm' :=
  head?_append_text (by decide +kernel) symbol

lemma missing_ne_of_head {text : String} {c : Char} (hc : c ≠ 'm') (h : text.toList.head? = some c) :
    missingBracketProtection symbol ≠ text := by
  intro heq
  rw [← heq, head_missing] at h
  exact hc (Option.some.inj h).symm

lemma missing_ne_unknown : missingBracketProtection symbol ≠ unknownPosition other :=
  missing_ne_of_head (c := 'u') (by decide) (head?_append_text (by decide +kernel) other)

lemma missing_not_account (snapshot : Snapshot) :
    missingBracketProtection symbol ∉ accountIssues snapshot := by
  have hne : ∀ rest, missingBracketProtection symbol ≠ "account_mismatch:expected=" ++ rest := by
    intro rest
    exact missing_ne_of_head (c := 'a') (by decide) (head?_append_text (by decide +kernel) rest)
  have hne' : missingBracketProtection symbol ≠ "alpaca_trading_blocked" :=
    missing_ne_of_head (c := 'a') (by decide) (by decide +kernel)
  intro h
  simp only [accountIssues, List.mem_append, String.append_assoc] at h
  rcases h with h | h
  · split_ifs at h
    · exact absurd h List.not_mem_nil
    · exact hne _ (List.mem_singleton.mp h)
  · split_ifs at h
    · exact hne' (List.mem_singleton.mp h)
    · exact absurd h List.not_mem_nil

end Texts

section Review

variable {snapshot : Snapshot} {symbol other : String}
variable (review : Review) (position : PortfolioPosition)

lemma flattenUnprotected_eq :
    flattenUnprotected snapshot symbol position =
      match closeAnswer snapshot symbol with
      | none => (false, [])
      | some (.ok ()) => (true, [.flattened symbol position.quantity])
      | some (.error message) =>
        if mentions alreadyFlatMarkers message then (true, [.alreadyFlat symbol message])
        else if mentions qtyHeldMarkers message then (true, [.flattenDeferred symbol message])
        else (false, [.flattenFailed symbol message]) := by
  rw [flattenUnprotected, closeAnswer]
  by_cases hoff : snapshot.settings.flattenUnprotectedPositions = false
  · simp [hoff]
  by_cases hmode : snapshot.settings.executionMode ≠ "paper"
  · simp [hmode]
  by_cases hreal : snapshot.settings.enableRealTrading = true
  · simp [hreal]
  rw [if_neg hoff, if_neg hmode, if_neg hreal, if_pos]
  · cases snapshot.closePosition with
    | none => rfl
    | some close =>
      cases hanswer : close symbol <;> simp [hanswer]
  · simp_all

lemma flattenUnprotected_dealtWith :
    (flattenUnprotected snapshot symbol position).1 = true ↔
      Closes snapshot symbol ∨ Defers snapshot symbol := by
  rw [flattenUnprotected_eq, Closes, Defers]
  cases closeAnswer snapshot symbol with
  | none => simp
  | some answer =>
    cases answer with
    | ok => simp
    | error message =>
      by_cases hflat : mentions alreadyFlatMarkers message = true
      · simp [hflat]
      · by_cases hheld : mentions qtyHeldMarkers message = true <;> simp [hflat, hheld]

lemma flattenUnprotected_closes :
    (∃ entry ∈ (flattenUnprotected snapshot other position).2, closesSymbol symbol entry = true) ↔
      other = symbol ∧ Closes snapshot other := by
  rw [flattenUnprotected_eq, Closes]
  cases closeAnswer snapshot other with
  | none => simp
  | some answer =>
    cases answer with
    | ok => simp [closesSymbol]
    | error message =>
      by_cases hflat : mentions alreadyFlatMarkers message = true
      · simp [hflat, closesSymbol]
      · by_cases hheld : mentions qtyHeldMarkers message = true <;>
          simp [hflat, hheld, closesSymbol]

lemma missing_mem_noteUnknown (scan : OrderScan) :
    missingBracketProtection symbol ∈ (noteUnknown scan review other).issues ↔
      missingBracketProtection symbol ∈ review.issues := by
  rw [noteUnknown]
  split_ifs
  · rfl
  · rw [List.mem_append, List.mem_singleton]
    simp [missing_ne_unknown]

lemma noteUnknown_logs (scan : OrderScan) :
    (noteUnknown scan review symbol).logs = review.logs := by
  rw [noteUnknown]
  split_ifs <;> rfl

lemma reviewPosition_shielded (h : Shielded snapshot position) :
    let noted := noteUnknown (scanOrders snapshot) review position.symbol.toUpper
    let after := reviewPosition snapshot (scanOrders snapshot) review position
    after = noted ∨ after =
      { noted with
        logs := noted.logs ++ [.closingInFlight position.symbol.toUpper position.quantity] } := by
  rw [reviewPosition]
  by_cases hbracket : position.symbol.toUpper ∈ (scanOrders snapshot).protectedSymbols
  · exact .inl (if_pos hbracket)
  simp only [if_neg hbracket]
  by_cases hprotective :
      (position.symbol.toUpper, closingSide position) ∈ (scanOrders snapshot).liveProtectiveSides
  · exact .inl (if_pos hprotective)
  simp only [if_neg hprotective]
  by_cases hclose :
      (position.symbol.toUpper, closingSide position) ∈ (scanOrders snapshot).liveCloseSides
  · exact .inr (if_pos hclose)
  rcases h with h | h
  · exact absurd (mem_protectedSymbols.mpr h) hbracket
  · exact ((mem_liveSides.mpr h).elim hprotective hclose).elim

lemma reviewPosition_exposed (h : ¬Shielded snapshot position) :
    let noted := noteUnknown (scanOrders snapshot) review position.symbol.toUpper
    reviewPosition snapshot (scanOrders snapshot) review position =
      if position.symbol.toUpper ∈ (scanOrders snapshot).ownedSymbols then
        let (dealtWith, logs) := flattenUnprotected snapshot position.symbol.toUpper position
        if dealtWith then { noted with logs := noted.logs ++ logs }
        else
          { issues := noted.issues ++ [missingBracketProtection position.symbol.toUpper]
            logs := noted.logs ++ logs }
      else
        { noted with
          issues := noted.issues ++ [missingBracketProtection position.symbol.toUpper] } := by
  have hbracket : position.symbol.toUpper ∉ (scanOrders snapshot).protectedSymbols :=
    fun hmem => h (.inl (mem_protectedSymbols.mp hmem))
  have hprotective :
      (position.symbol.toUpper, closingSide position) ∉ (scanOrders snapshot).liveProtectiveSides :=
    fun hmem => h (.inr (mem_liveSides.mp (.inl hmem)))
  have hclose :
      (position.symbol.toUpper, closingSide position) ∉ (scanOrders snapshot).liveCloseSides :=
    fun hmem => h (.inr (mem_liveSides.mp (.inr hmem)))
  rw [reviewPosition]
  simp only [if_neg hbracket, if_neg hprotective, if_neg hclose]

lemma reviewPosition_missing :
    missingBracketProtection symbol ∈
        (reviewPosition snapshot (scanOrders snapshot) review position).issues ↔
      missingBracketProtection symbol ∈ review.issues ∨
        position.symbol.toUpper = symbol ∧ ¬Shielded snapshot position ∧
          ¬(Owned snapshot symbol ∧ (Closes snapshot symbol ∨ Defers snapshot symbol)) := by
  have happend (issues : List String) :
      missingBracketProtection symbol ∈
          issues ++ [missingBracketProtection position.symbol.toUpper] ↔
        missingBracketProtection symbol ∈ issues ∨ position.symbol.toUpper = symbol := by
    rw [List.mem_append, List.mem_singleton]
    exact or_congr_right ⟨fun h => (eq_of_missing_eq h).symm, fun h => h ▸ rfl⟩
  by_cases hshield : Shielded snapshot position
  · have hsame : (reviewPosition snapshot (scanOrders snapshot) review position).issues =
        (noteUnknown (scanOrders snapshot) review position.symbol.toUpper).issues := by
      rcases reviewPosition_shielded review position hshield with h | h <;> rw [h]
    rw [hsame, missing_mem_noteUnknown]
    simp [hshield]
  rw [reviewPosition_exposed review position hshield]
  by_cases howned : position.symbol.toUpper ∈ (scanOrders snapshot).ownedSymbols
  · simp only [if_pos howned]
    rw [mem_ownedSymbols] at howned
    cases hdealt : (flattenUnprotected snapshot position.symbol.toUpper position).1 with
    | true =>
      rw [flattenUnprotected_dealtWith] at hdealt
      simp only [if_true]
      rw [missing_mem_noteUnknown]
      apply (or_iff_left _).symm
      rintro ⟨rfl, -, hopen⟩
      exact hopen ⟨howned, hdealt⟩
    | false =>
      rw [← Bool.not_eq_true, flattenUnprotected_dealtWith] at hdealt
      simp only [Bool.false_eq_true, if_false]
      rw [happend, missing_mem_noteUnknown]
      apply or_congr_right
      apply Iff.intro _ And.left
      rintro rfl
      exact ⟨rfl, hshield, fun h => hdealt h.2⟩
  · simp only [if_neg howned]
    rw [happend, missing_mem_noteUnknown]
    rw [mem_ownedSymbols] at howned
    apply or_congr_right
    apply Iff.intro _ And.left
    rintro rfl
    exact ⟨rfl, hshield, fun h => howned h.1⟩

lemma reviewPosition_closes :
    (∃ entry ∈ (reviewPosition snapshot (scanOrders snapshot) review position).logs,
        closesSymbol symbol entry = true) ↔
      (∃ entry ∈ review.logs, closesSymbol symbol entry = true) ∨
        position.symbol.toUpper = symbol ∧ ¬Shielded snapshot position ∧
          Owned snapshot symbol ∧ Closes snapshot symbol := by
  by_cases hshield : Shielded snapshot position
  · simp only [hshield, not_true_eq_false, false_and, and_false, or_false]
    rcases reviewPosition_shielded review position hshield with h | h
    · rw [h, noteUnknown_logs]
    · rw [h, noteUnknown_logs]
      simp [closesSymbol, or_and_right, exists_or]
  rw [reviewPosition_exposed review position hshield]
  by_cases howned : position.symbol.toUpper ∈ (scanOrders snapshot).ownedSymbols
  · simp only [if_pos howned]
    rw [mem_ownedSymbols] at howned
    have hlogs : (∃ entry ∈ review.logs ++
          (flattenUnprotected snapshot position.symbol.toUpper position).2,
        closesSymbol symbol entry = true) ↔
        (∃ entry ∈ review.logs, closesSymbol symbol entry = true) ∨
          position.symbol.toUpper = symbol ∧ Closes snapshot position.symbol.toUpper := by
      simp only [List.mem_append, or_and_right, exists_or]
      rw [flattenUnprotected_closes]
    have hafter : (position.symbol.toUpper = symbol ∧ Closes snapshot position.symbol.toUpper) ↔
        position.symbol.toUpper = symbol ∧ ¬Shielded snapshot position ∧
          Owned snapshot symbol ∧ Closes snapshot symbol := by
      constructor
      · rintro ⟨rfl, hcloses⟩
        exact ⟨rfl, hshield, howned, hcloses⟩
      · rintro ⟨rfl, -, -, hcloses⟩
        exact ⟨rfl, hcloses⟩
    rw [← hafter, ← hlogs]
    split_ifs <;> simp only [noteUnknown_logs]
  · simp only [if_neg howned]
    rw [mem_ownedSymbols] at howned
    rw [noteUnknown_logs]
    apply (or_iff_left _).symm
    rintro ⟨rfl, -, hin, -⟩
    exact howned hin

end Review

section Sweep

variable {snapshot : Snapshot} {symbol : String}

lemma flagged_iff :
    Flagged snapshot symbol ↔ ∃ position ∈ snapshot.positions,
      position.symbol.toUpper = symbol ∧ ¬Shielded snapshot position ∧
        ¬(Owned snapshot symbol ∧ (Closes snapshot symbol ∨ Defers snapshot symbol)) := by
  have hlist : Flagged snapshot symbol ↔
      missingBracketProtection symbol ∈ (reviewPositions snapshot).issues := by
    simp [Flagged, reconcile]
  rw [hlist, reviewPositions]
  apply (Collect.foldl_iff (fun review : Review => missingBracketProtection symbol ∈ review.issues)
    reviewPosition_missing _ _).trans
  exact or_iff_right (missing_not_account snapshot)

lemma closedBySweep_iff :
    ClosedBySweep snapshot symbol ↔ ∃ position ∈ snapshot.positions,
      position.symbol.toUpper = symbol ∧ ¬Shielded snapshot position ∧
        Owned snapshot symbol ∧ Closes snapshot symbol := by
  rw [ClosedBySweep, reconcile, reviewPositions]
  apply (Collect.foldl_iff
    (fun review : Review => ∃ entry ∈ review.logs, closesSymbol symbol entry = true)
    reviewPosition_closes _ _).trans
  simp

lemma not_defers_of_closes (h : Closes snapshot symbol) : ¬Defers snapshot symbol := by
  rintro ⟨message, hanswer, hflat, -⟩
  rcases h with h | ⟨other, h, hother⟩
  · rw [hanswer] at h
    cases h
  · rw [hanswer] at h
    cases h
    rw [hflat] at hother
    cases hother

/-- A sweep reports every unprotected position exactly when it passes none of them over. A
symbol is reported once for all its positions, so one of them that is not passed over is enough. -/
theorem protection_reported_iff (snapshot : Snapshot) :
    ProtectionReported snapshot ↔
      ∀ position ∈ snapshot.positions, Bare snapshot.orders position →
        ∃ other ∈ snapshot.positions, other.symbol.toUpper = position.symbol.toUpper ∧
          ¬PassedOver snapshot other := by
  rw [ProtectionReported]
  apply forall₂_congr
  intro position hposition
  rw [flagged_iff, closedBySweep_iff]
  constructor
  · intro hreported hbare
    by_cases hflag : ∃ other ∈ snapshot.positions,
        other.symbol.toUpper = position.symbol.toUpper ∧ ¬Shielded snapshot other ∧
          ¬(Owned snapshot position.symbol.toUpper ∧
            (Closes snapshot position.symbol.toUpper ∨ Defers snapshot position.symbol.toUpper))
    · obtain ⟨other, hmem, hsymbol, hshield, hopen⟩ := hflag
      refine ⟨other, hmem, hsymbol, ?_⟩
      rintro (h | ⟨howned, hdefers⟩)
      · exact hshield h
      · rw [hsymbol] at howned hdefers
        exact hopen ⟨howned, .inr hdefers⟩
    · have hclosed := ((hreported hflag).resolve_left hbare.1).resolve_left hbare.2
      obtain ⟨other, hmem, hsymbol, hshield, howned, hcloses⟩ := hclosed
      refine ⟨other, hmem, hsymbol, ?_⟩
      rintro (h | ⟨-, hdefers⟩)
      · exact hshield h
      · rw [hsymbol] at hdefers
        exact not_defers_of_closes hcloses hdefers
  · intro hcondition hsilent
    by_cases hbare : Bare snapshot.orders position
    · obtain ⟨other, hmem, hsymbol, hpassed⟩ := hcondition hbare
      have hshield : ¬Shielded snapshot other := fun h => hpassed (.inl h)
      have hdealt : Owned snapshot position.symbol.toUpper ∧
          (Closes snapshot position.symbol.toUpper ∨ Defers snapshot position.symbol.toUpper) := by
        by_contra hopen
        exact hsilent ⟨other, hmem, hsymbol, hshield, hopen⟩
      have hdefers : ¬Defers snapshot position.symbol.toUpper := by
        intro h
        rw [← hsymbol] at h hdealt
        exact hpassed (.inr ⟨hdealt.1, h⟩)
      exact .inr (.inr ⟨other, hmem, hsymbol, hshield, hdealt.1, hdealt.2.resolve_right hdefers⟩)
    · by_cases hcovered : StopCovered snapshot.orders position
      · exact .inl hcovered
      · exact .inr (.inl (by_contra fun h => hbare ⟨hcovered, h⟩))

def leftWith (standing : BrokerOrder) : Snapshot where
  account := { accountNumber := "PAPER-1" }
  orders :=
    [{ id := "entry", symbol := "GOOGL", side := "buy", type := "market", status := "filled"
       qty := 10, filledQty := 10, orderClass := "bracket"
       legs :=
        [{ id := "tp", symbol := "GOOGL", side := "sell", type := "limit", status := "expired"
           qty := 10 },
         { id := "stop", symbol := "GOOGL", side := "sell", type := "stop", status := "canceled"
           qty := 10 }] },
     standing]
  positions := [{ symbol := "GOOGL", quantity := 10 }]
  executions := [{ id := "exec", brokerOrderId := "entry" }]
  closePosition := some fun _ => .ok ()

def takeProfit : BrokerOrder where
  id := "limit"
  symbol := "GOOGL"
  side := "sell"
  type := "limit"
  status := "new"
  qty := 10

def halfStop : BrokerOrder where
  id := "half"
  symbol := "GOOGL"
  side := "sell"
  type := "stop"
  status := "new"
  qty := 5

lemma leftWith_silent {standing : BrokerOrder}
    (hshield : Shielded (leftWith standing) { symbol := "GOOGL", quantity := 10 })
    (hbare : Bare (leftWith standing).orders { symbol := "GOOGL", quantity := 10 }) :
    ¬ProtectionReported (leftWith standing) := by
  intro hreported
  have hnone (other : PortfolioPosition) (hmem : other ∈ (leftWith standing).positions) :
      Shielded (leftWith standing) other := by
    rw [List.mem_singleton.mp hmem]
    exact hshield
  have hsilent : ¬Flagged (leftWith standing) "GOOGL".toUpper := by
    rw [flagged_iff]
    rintro ⟨other, hmem, -, hexposed, -⟩
    exact hexposed (hnone other hmem)
  have hunclosed : ¬ClosedBySweep (leftWith standing) "GOOGL".toUpper := by
    rw [closedBySweep_iff]
    rintro ⟨other, hmem, -, hexposed, -⟩
    exact hexposed (hnone other hmem)
  have hclaim := hreported _ List.mem_cons_self hsilent
  exact hunclosed ((hclaim.resolve_left hbare.1).resolve_left hbare.2)

theorem take_profit_or_half_stop_passes :
    ¬ProtectionReported (leftWith takeProfit) ∧ ¬ProtectionReported (leftWith halfStop) := by
  constructor
  · apply leftWith_silent
    · exact .inr (by decide +kernel)
    · decide +kernel
  · apply leftWith_silent
    · exact .inr (by decide +kernel)
    · decide +kernel

end Sweep

end AlgoTrader.Automation
