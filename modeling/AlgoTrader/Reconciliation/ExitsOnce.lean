import AlgoTrader.Reconciliation.Attribution
import AlgoTrader.Lib.Shares

/-! When every exit fill is attributed once. -/

namespace AlgoTrader.Reconciliation

open Automation

section Listing

variable {book : Book}

lemma mem_brokerOrders {order : Payload} (h : order ∈ book.orders) :
    order.toLeg ∈ brokerOrders book.orders ∧ ∀ leg ∈ order.legs, leg ∈ brokerOrders book.orders := by
  refine ⟨List.mem_flatMap_of_mem h List.mem_cons_self, ?_⟩
  intro leg hleg
  exact List.mem_flatMap_of_mem h (List.mem_cons_of_mem _ hleg)

lemma brokerOrders_disjoint (book : Book) :
    book.orders.Pairwise (Function.onFun List.Disjoint fun order => order.toLeg :: order.legs) :=
  (List.nodup_flatMap.mp (List.Nodup.of_map _ book.ids_nodup)).2

lemma orders_nodup (book : Book) : book.orders.Nodup := by
  refine (brokerOrders_disjoint book).imp ?_
  rintro order other hdisjoint rfl
  exact hdisjoint List.mem_cons_self List.mem_cons_self

lemma order_unique {order other : Payload} {leg : Leg} (horder : order ∈ book.orders)
    (hother : other ∈ book.orders) (hleg : leg ∈ order.toLeg :: order.legs)
    (hleg' : leg ∈ other.toLeg :: other.legs) : order = other := by
  by_contra hne
  have hsymm : Std.Symm (Function.onFun List.Disjoint fun order : Payload => order.toLeg :: order.legs) :=
    ⟨fun _ _ h => h.symm⟩
  exact (brokerOrders_disjoint book).forall horder hother hne hleg hleg'

lemma eq_of_id {order other : Leg} (horder : order ∈ brokerOrders book.orders)
    (hother : other ∈ brokerOrders book.orders) (hid : order.brokerOrderId = other.brokerOrderId) :
    order = other :=
  List.inj_on_of_nodup_map book.ids_nodup horder hother hid

end Listing

section Exits

variable {book : Book} {entry : Entry} {leg : Leg} {payload sell : Payload}

lemma of_bracketExit (h : bracketExit payload = some leg) :
    0 < payload.filledQty ∧ leg ∈ payload.legs := by
  rw [bracketExit] at h
  split_ifs at h with hpriced
  push Not at hpriced
  exact ⟨hpriced.2, List.mem_of_find?_eq_some h⟩

lemma realizedPnl_of_bracket (h : bracketExit payload = some leg) :
    realizedPnl payload = exitPnl payload leg := by
  rw [realizedPnl, h]

lemma realizedPnl_of_none (h : bracketExit payload = none) : realizedPnl payload = 0 := by
  rw [realizedPnl, h]

lemma of_laterSells (h : sell ∈ laterSells book payload) :
    sell ∈ book.orders ∧ isStandaloneExit book sell = true ∧ ClosesAfter payload sell := by
  obtain ⟨hsell, hafter⟩ := List.mem_filter.mp h
  obtain ⟨horder, hstandalone⟩ := List.mem_filter.mp hsell
  exact ⟨horder, (of_decide_eq_true hstandalone).1, of_decide_eq_true hafter⟩

lemma legs_of_standalone (h : isStandaloneExit book sell = true) : sell.legs = [] :=
  (of_decide_eq_true h).2.2.2.1

lemma exitFill_row (entry : Entry) :
    (row book entry).exitFill =
      if realizedPnl entry.payload ≠ 0 then none
      else (laterSells book entry.payload).argmin (·.filledAt) := by
  rw [← standaloneExit_eq]
  rfl

lemma of_exitFill (h : (row book entry).exitFill = some sell) :
    realizedPnl entry.payload = 0 ∧ Earliest (laterSells book entry.payload) sell := by
  rw [exitFill_row] at h
  split_ifs at h with hrealized
  exact ⟨not_not.mp hrealized, List.mem_argmin_iff.mp h⟩

lemma exitFill_of_earliest (hrealized : realizedPnl entry.payload = 0)
    (h : Earliest (laterSells book entry.payload) sell) : (row book entry).exitFill = some sell := by
  rw [exitFill_row, if_neg (not_not.mpr hrealized)]
  exact List.mem_argmin_iff.mpr h

lemma exits_eq_bracket (h : bracketExit entry.payload = some leg) (hnone : (row book entry).exitFill = none) :
    (row book entry).exits = [leg] := by
  change (bracketExit entry.payload).toList ++ _ = _
  rw [h, hnone]
  rfl

lemma exits_eq_standalone (h : bracketExit entry.payload = none) :
    (row book entry).exits = ((row book entry).exitFill.map (·.toLeg)).toList := by
  change (bracketExit entry.payload).toList ++ _ = _
  rw [h]
  rfl

lemma mem_exits (h : leg ∈ (row book entry).exits) :
    bracketExit entry.payload = some leg ∨
      ∃ sell, (row book entry).exitFill = some sell ∧ sell.toLeg = leg := by
  rcases List.mem_append.mp h with hbracket | hstandalone
  · exact Or.inl (Option.mem_toList.mp hbracket)
  · exact Or.inr (Option.map_eq_some_iff.mp (Option.mem_toList.mp hstandalone))

lemma exits_listed (hentry : entry ∈ entries book) (h : leg ∈ (row book entry).exits) :
    leg ∈ brokerOrders book.orders ∧ 0 < entry.payload.filledQty := by
  rcases mem_exits h with hbracket | ⟨sell, hsell, rfl⟩
  · obtain ⟨hqty, hleg⟩ := of_bracketExit hbracket
    exact ⟨(mem_brokerOrders (mem_entries hentry).1).2 leg hleg, hqty⟩
  · obtain ⟨horder, -, -, hqty, -⟩ := of_laterSells (of_exitFill hsell).2.1
    exact ⟨(mem_brokerOrders horder).1, hqty⟩

lemma bracket_ne_standalone (hentry : entry ∈ entries book) (hbracket : bracketExit entry.payload = some leg)
    (horder : sell ∈ book.orders) (hstandalone : isStandaloneExit book sell = true) : leg ≠ sell.toLeg := by
  rintro rfl
  have hleg := (of_bracketExit hbracket).2
  have hsame := order_unique (mem_entries hentry).1 horder (List.mem_cons_of_mem _ hleg) List.mem_cons_self
  rw [hsame, legs_of_standalone hstandalone] at hleg
  exact List.not_mem_nil hleg

lemma realizedPnl_row (entry : Entry) :
    (row book entry).realizedPnl = ((row book entry).exits.map (exitPnl entry.payload)).sum := by
  have hrow : (row book entry).realizedPnl = (row book entry).exitFill.elim (realizedPnl entry.payload)
      fun exit => exitPnl entry.payload exit.toLeg := by
    rw [row, updateExecution]
    cases exitFill entry.payload (standaloneExits book entry.payload.symbol.toUpper) <;> rfl
  rw [hrow]
  cases hbracket : bracketExit entry.payload with
  | none =>
    rw [exits_eq_standalone hbracket]
    cases (row book entry).exitFill with
    | none => exact realizedPnl_of_none hbracket
    | some sell => exact (List.sum_singleton).symm
  | some leg =>
    have hrealized := realizedPnl_of_bracket hbracket
    cases hexit : (row book entry).exitFill with
    | none =>
      rw [exits_eq_bracket hbracket hexit, List.map_singleton, List.sum_singleton]
      exact hrealized
    | some sell =>
      -- a break-even bracket exit adds nothing to the sum
      have hexits : (row book entry).exits = [leg, sell.toLeg] := by
        change (bracketExit entry.payload).toList ++ _ = _
        rw [hbracket, hexit]
        rfl
      have hzero := hrealized.symm.trans (of_exitFill hexit).1
      rw [hexits, List.map_cons, List.map_singleton, List.sum_cons, List.sum_singleton, hzero, zero_add,
        Option.elim_some]

end Exits

def BracketAlone (book : Book) : Prop :=
  ∀ entry ∈ entries book, (bracketExit entry.payload).isSome = true → (row book entry).exitFill = none

lemma break_even_iff {book : Book} :
    BracketAlone book ↔ ∀ entry ∈ entries book, ∀ leg ∈ bracketExit entry.payload,
      exitPnl entry.payload leg = 0 → laterSells book entry.payload = [] := by
  constructor
  · intro h entry hentry leg hleg hzero
    have hnone := h entry hentry (Option.isSome_of_mem hleg)
    rw [exitFill_row, realizedPnl_of_bracket hleg, if_neg (not_not.mpr hzero)] at hnone
    exact List.argmin_eq_none.mp hnone
  · intro h entry hentry hsome
    obtain ⟨leg, hleg⟩ := Option.isSome_iff_exists.mp hsome
    rw [exitFill_row, realizedPnl_of_bracket hleg]
    split_ifs with hzero
    · rfl
    · rw [h entry hentry leg hleg (not_not.mp hzero)]
      rfl

section Claims

variable {book : Book} {entry : Entry} {order : Leg} {payload sell : Payload}

def claimants (book : Book) (order : Leg) : List Entry :=
  (entries book).filter fun entry => order ∈ (row book entry).exits

lemma exits_at_most_one (halone : BracketAlone book) (hentry : entry ∈ entries book) :
    (row book entry).exits = [] ∨ ∃ exit, (row book entry).exits = [exit] := by
  cases hbracket : bracketExit entry.payload with
  | some leg =>
    have hnone := halone entry hentry (by rw [hbracket]; rfl)
    exact Or.inr ⟨leg, exits_eq_bracket hbracket hnone⟩
  | none =>
    rw [exits_eq_standalone hbracket]
    cases (row book entry).exitFill with
    | none => exact Or.inl rfl
    | some sell => exact Or.inr ⟨sell.toLeg, rfl⟩

lemma exitQtyFrom_eq (halone : BracketAlone book) (hentry : entry ∈ entries book)
    (horder : order ∈ brokerOrders book.orders) :
    (row book entry).exitQtyFrom order =
      if order ∈ (row book entry).exits then Shares.share order.filledQty entry.payload.filledQty else 0 := by
  rw [Row.exitQtyFrom]
  rcases exits_at_most_one halone hentry with hnone | ⟨exit, hexit⟩
  · rw [hnone, if_neg List.not_mem_nil]
    rfl
  · have hlisted := (exits_listed hentry (hexit ▸ List.mem_singleton_self exit)).1
    rw [hexit]
    by_cases hsame : exit = order
    · subst hsame
      rw [List.filter_cons_of_pos (by exact decide_eq_true rfl), if_pos (List.mem_singleton_self exit)]
      exact List.sum_singleton
    · have hid : exit.brokerOrderId ≠ order.brokerOrderId := fun hid => hsame (eq_of_id hlisted horder hid)
      rw [List.filter_cons_of_neg (by simpa using hid), if_neg (by simpa using Ne.symm hsame)]
      rfl

lemma attributedQty_eq (halone : BracketAlone book) (horder : order ∈ brokerOrders book.orders) :
    attributedQty book order =
      (((claimants book order).map (·.payload.filledQty)).map (Shares.share order.filledQty)).sum := by
  rw [attributedQty, reconcile, claimants, List.map_map, List.map_map]
  exact Shares.sum_eq_sum_filter fun entry hentry => exitQtyFrom_eq halone hentry horder

lemma claimants_pos {qty : ℚ} (h : qty ∈ (claimants book order).map (·.payload.filledQty)) : 0 < qty := by
  obtain ⟨entry, hentry, rfl⟩ := List.mem_map.mp h
  obtain ⟨hentry, hdraws⟩ := List.mem_filter.mp hentry
  exact (exits_listed hentry (of_decide_eq_true hdraws)).2

lemma per_order_iff (halone : BracketAlone book) (horder : order ∈ brokerOrders book.orders) :
    attributedQty book order ≤ order.filledQty ↔
      order.filledQty = 0 ∨ (claimants book order).length ≤ 1 ∨
        ((claimants book order).map (·.payload.filledQty)).sum ≤ order.filledQty := by
  rw [attributedQty_eq halone horder,
    Shares.sum_share_le_iff (fun _ => claimants_pos) (book.filled_nonneg order horder), List.length_map]

lemma claimants_standalone (halone : BracketAlone book) (horder : sell ∈ book.orders)
    (hstandalone : isStandaloneExit book sell = true) :
    claimants book sell.toLeg = contenders book sell := by
  apply List.filter_congr
  intro entry hentry
  rw [decide_eq_decide]
  constructor
  · intro h
    rcases mem_exits h with hbracket | ⟨other, hother, hleg⟩
    · exact absurd rfl (bracket_ne_standalone hentry hbracket horder hstandalone)
    · have hearliest := (of_exitFill hother).2
      have hlisted := (of_laterSells hearliest.1).1
      obtain rfl := order_unique hlisted horder List.mem_cons_self (hleg ▸ List.mem_cons_self)
      refine ⟨?_, hearliest⟩
      by_contra hbracket
      have hnone := halone entry hentry (Option.isSome_iff_ne_none.mpr hbracket)
      exact Option.some_ne_none other (hother.symm.trans hnone)
  · rintro ⟨hbracket, hearliest⟩
    rw [exits_eq_standalone hbracket, exitFill_of_earliest (realizedPnl_of_none hbracket) hearliest]
    exact List.mem_singleton_self _

/-- A broker order that is no standalone sell closes the one execution it belongs to. -/
lemma claimants_own (horder : payload ∈ book.orders) (hleg : order ∈ payload.toLeg :: payload.legs)
    (hnot : order = payload.toLeg → isStandaloneExit book payload = false)
    (hentry : entry ∈ claimants book order) : entry.payload = payload := by
  obtain ⟨hentry, hdraws⟩ := List.mem_filter.mp hentry
  rcases mem_exits (of_decide_eq_true hdraws) with hbracket | ⟨sell, hsell, rfl⟩
  · have hown := (of_bracketExit hbracket).2
    exact order_unique (mem_entries hentry).1 horder (List.mem_cons_of_mem _ hown) hleg
  · obtain ⟨hlisted, hstandalone, -⟩ := of_laterSells (of_exitFill hsell).2.1
    obtain rfl := order_unique hlisted horder List.mem_cons_self hleg
    exact absurd hstandalone (by rw [hnot rfl]; exact Bool.false_ne_true)

lemma claimants_length_le_one (h : ∀ entry ∈ claimants book order, entry.payload = payload) :
    (claimants book order).length ≤ 1 := by
  have hnodup : ((claimants book order).map (·.payload)).Nodup :=
    List.Nodup.sublist (List.filter_sublist.map _) (payloads_nodup (orders_nodup book))
  have hall : ∀ other ∈ (claimants book order).map (·.payload), other = payload := by
    intro other hother
    obtain ⟨entry, hentry, rfl⟩ := List.mem_map.mp hother
    exact h entry hentry
  rw [List.eq_replicate_of_mem hall, List.nodup_replicate, List.length_map] at hnodup
  exact hnodup

end Claims

lemma per_order_all_iff {book : Book} (halone : BracketAlone book) :
    (∀ order ∈ brokerOrders book.orders, attributedQty book order ≤ order.filledQty) ↔
      ∀ sell ∈ book.orders, isStandaloneExit book sell = true →
        sell.filledQty = 0 ∨ (contenders book sell).length ≤ 1 ∨
          ((contenders book sell).map (·.payload.filledQty)).sum ≤ sell.filledQty := by
  constructor
  · intro h sell hsell hstandalone
    have hlisted := (mem_brokerOrders hsell).1
    rw [← claimants_standalone halone hsell hstandalone]
    exact (per_order_iff halone hlisted).mp (h sell.toLeg hlisted)
  · intro h order horder
    obtain ⟨payload, hpayload, hleg⟩ := List.mem_flatMap.mp horder
    rw [per_order_iff halone horder]
    by_cases hstandalone : order = payload.toLeg ∧ isStandaloneExit book payload = true
    · obtain ⟨rfl, hstandalone⟩ := hstandalone
      rw [claimants_standalone halone hpayload hstandalone]
      exact h payload hpayload hstandalone
    · have hown : ∀ entry ∈ claimants book order, entry.payload = payload := by
        intro entry hentry
        exact claimants_own hpayload hleg (fun hself => by simpa [hself] using hstandalone) hentry
      exact Or.inr (Or.inl (claimants_length_le_one hown))

lemma per_execution_of_alone {book : Book} (halone : BracketAlone book) {entry : Entry}
    (hentry : entry ∈ entries book) :
    ((row book entry).exits.map (exitQty entry.payload)).sum ≤ entry.payload.filledQty := by
  rcases exits_at_most_one halone hentry with hnone | ⟨exit, hexit⟩
  · rw [hnone]
    exact book.filled_nonneg _ (mem_brokerOrders (mem_entries hentry).1).1
  · rw [hexit, List.map_singleton, List.sum_singleton]
    exact min_le_left _ _

/-- Exit fills are attributed once exactly when no execution with a break-even bracket exit is followed
by a standalone sell, and no standalone sell is too small for all the executions it closes. -/
theorem attributedOnce_iff (book : Book) : AttributedOnce book ↔ ExitsOnce book := by
  constructor
  · intro h
    have halone : BracketAlone book := by
      intro entry hentry hsome
      exact h.bracket_alone (row book entry) (List.mem_map_of_mem hentry) hsome
    exact ⟨break_even_iff.mp halone, (per_order_all_iff halone).mp h.per_order⟩
  · intro h
    have halone := break_even_iff.mpr h.break_even
    refine ⟨(per_order_all_iff halone).mpr h.shared, ?_, ?_, ?_⟩
    · intro row hrow
      obtain ⟨entry, hentry, rfl⟩ := List.mem_map.mp hrow
      exact per_execution_of_alone halone hentry
    · intro row hrow
      obtain ⟨entry, hentry, rfl⟩ := List.mem_map.mp hrow
      exact halone entry hentry
    · intro row hrow
      obtain ⟨entry, -, rfl⟩ := List.mem_map.mp hrow
      exact realizedPnl_row entry

def boughtTen (brokerOrderId : String) (legs : List Leg) : Payload where
  brokerOrderId
  symbol := "AAPL"
  side := "buy"
  status := "filled"
  filledQty := 10
  filledAvgPrice := 100
  filledAt := "2026-10-05T14:00:00+00:00"
  legs

def soldTen : Payload where
  brokerOrderId := "sell"
  symbol := "AAPL"
  side := "sell"
  status := "filled"
  filledQty := 10
  filledAvgPrice := 90
  filledAt := "2026-10-06T14:00:00+00:00"

def stoppedAtEntry : Leg where
  brokerOrderId := "stop-1"
  status := "filled"
  filledQty := 10
  filledAvgPrice := 100

def sharedSell : Book where
  executions := [⟨"exec-1", "buy-1"⟩, ⟨"exec-2", "buy-2"⟩]
  orders := [soldTen, boughtTen "buy-2" [], boughtTen "buy-1" []]
  execution_ids_nodup := by decide
  ids_ne := by decide +kernel
  ids_nodup := by decide
  filled_nonneg := by decide +kernel

/-- An execution whose stop was filled at the entry price, and a later sell of other shares. -/
def breakEven : Book where
  executions := [⟨"exec-1", "buy-1"⟩]
  orders := [soldTen, boughtTen "buy-1" [stoppedAtEntry]]
  execution_ids_nodup := by decide
  ids_ne := by decide +kernel
  ids_nodup := by decide
  filled_nonneg := by decide +kernel

theorem exit_attributed_twice : ¬ AttributedOnce sharedSell ∧ ¬ AttributedOnce breakEven := by
  constructor
  · intro h
    exact absurd h.per_order (by decide +kernel)
  · intro h
    exact absurd h.bracket_alone (by decide +kernel)

end AlgoTrader.Reconciliation
