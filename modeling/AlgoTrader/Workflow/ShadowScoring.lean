import AlgoTrader.Workflow.ShadowTrades

/-! The ledger's scoring takes setups one at a time: after the setups of the first bars its
busy-until rule blocks exactly while the desk is occupied. -/

namespace AlgoTrader.Workflow

open Utils.Time Models Backtesting BoundedLoop OneAtATime

def ledgerEntry (f : DailyFrame) (spec : String) (setupAt : ℕ → Option Setup) (index : ℕ) : Option Entry :=
  (setupAt index).map fun setup =>
    { signalBar := f.dayAt index, specKey := spec, stop := setup.stop, target := setup.target }

def ledgerEntries (f : DailyFrame) (spec : String) (setupAt : ℕ → Option Setup) (n : ℕ) : List Entry :=
  (List.range n).filterMap (ledgerEntry f spec setupAt)

def Entry.view (entry : Entry) : Option TradeView :=
  match entry.entryDate, entry.entryPrice, entry.stopTarget with
  | some entryDay, some entryPrice, some leg =>
    if entry.taken then
      some ⟨entryDay, leg.exitDate, entryPrice, leg.exitPrice, leg.reason, entry.status = .stillOpen⟩
    else none
  | _, _, _ => none

def ledgerTrades (scored : List Entry) : List TradeView := scored.filterMap Entry.view

section Leg

variable {f : DailyFrame} {entry : Entry} {first index : ℕ} {fill risk raw : ℚ} {reason : LegReason}

lemma cost_entryFill (h : 0 < raw) : cost.entryFillPrice raw .buy false = .ok (raw * (1 + halfSpread)) := by
  simp only [CostModel.entryFillPrice, if_neg (not_le.mpr h)]
  rfl

lemma cost_exitFill (h : 0 < raw) : cost.exitFillPrice raw .buy false = .ok (raw * (1 - halfSpread)) := by
  simp only [CostModel.exitFillPrice, if_neg (not_le.mpr h)]
  rfl

def legOf (f : DailyFrame) (first : ℕ) (fill risk : ℚ) (index : ℕ) (raw : ℚ) (reason : LegReason) : Leg where
  status := .closed
  reason := reason
  exitDate := f.dayAt index
  exitPrice := Rounding.toDigits 4 (raw * (1 - halfSpread))
  r := Rounding.toDigits 3 ((raw * (1 - halfSpread) - fill) / risk)
  bars := index - first + 1

lemma leg_eq (hlong : entry.short = false) (h : 0 < raw) :
    leg entry f.rows first fill risk index raw reason = .ok (legOf f first fill risk index raw reason) := by
  have hside : entry.side = .buy := by simp [Entry.side, hlong]
  rw [leg, hside, cost_exitFill h]
  rfl

lemma closeOf_pos (h : index < f.rows.length) : 0 < closeOf f.rows index := by
  have hbar := List.getElem?_eq_getElem h
  rw [closeOf, hbar]
  exact (row_positive hbar).2.2.2

lemma timeLeg_ok (first : ℕ) (fill risk : ℚ) (hlong : entry.short = false) (h : index < f.rows.length)
    (due : Bool) (timed : Option Leg) :
    ∃ timed', timeLeg entry f.rows first fill risk due index timed = .ok timed' ∧
      (timed.isSome → timed'.isSome) := by
  rw [timeLeg]
  split_ifs
  · rw [leg_eq hlong (closeOf_pos h)]
    exact ⟨_, rfl, fun _ => rfl⟩
  · exact ⟨timed, rfl, id⟩

def hitLeg (f : DailyFrame) (first : ℕ) (fill risk : ℚ) (hit : ℕ × ℚ × LegReason) : Leg :=
  legOf f first fill risk hit.1 hit.2.1 hit.2.2

lemma follow_eq (first : ℕ) (fill risk : ℚ) (hlong : entry.short = false) (hstop : 0 < entry.stop)
    (htarget : 0 < entry.target) (horizon : ℤ) (rest : List Row) (hrest : rest = f.rows.drop index) (timed : Option Leg) :
    ∃ timed', follow entry f.rows first fill risk horizon index rest timed =
      .ok ((firstHit entry.stop entry.target index rest).map (hitLeg f first fill risk), timed') ∧
      ((firstHit entry.stop entry.target index rest).isSome → timed'.isSome) := by
  induction rest generalizing index timed with
  | nil => exact ⟨timed, rfl, by simp [firstHit]⟩
  | cons bar rest ih =>
    have hlt : index < f.rows.length := by
      have hlength := congrArg List.length hrest
      simp only [List.length_cons, List.length_drop] at hlength
      omega
    have hbar : f.rows[index]? = some bar := by
      have hhead := congrArg List.head? hrest
      rw [List.head?_drop] at hhead
      exact hhead.symm
    have htail : rest = f.rows.drop (index + 1) := by
      rw [drop_rows hbar] at hrest
      exact (List.cons.inj hrest).2
    obtain ⟨timed₁, htimed, _⟩ := timeLeg_ok first fill risk hlong
      (show index - 1 < f.rows.length by omega) (horizon ≤ bar.day) timed
    rw [follow, htimed, hlong]
    cases hcross : crossed false entry.stop entry.target bar with
    | some level =>
      obtain ⟨raw, reason⟩ := level
      have hraw := crossed_pos hstop htarget (row_positive hbar).1 hcross
      rw [firstHit_crossed hcross]
      refine ⟨timed₁.or (some (legOf f first fill risk index raw reason)), ?_, by simp⟩
      simp only [ok_bind, leg_eq hlong hraw]
      rfl
    | none =>
      rw [firstHit_missed hcross]
      exact ih htail timed₁

lemma hitOrMark_eq (fill risk : ℚ) (hlong : entry.short = false) (hfirst : first < f.rows.length)
    (hit : Option (ℕ × ℚ × LegReason)) :
    ∃ l, hitOrMark entry f.rows first fill risk (hit.map (hitLeg f first fill risk)) = .ok l ∧
      l.exitDate = f.dayAt (exitOrMark f hit).1 ∧
      l.exitPrice = Rounding.toDigits 4 ((exitOrMark f hit).2.1 * (1 - halfSpread)) ∧
      l.reason = (exitOrMark f hit).2.2 ∧
      l.status = if hit.isNone then .stillOpen else .closed := by
  cases hit with
  | some hit => exact ⟨hitLeg f first fill risk hit, rfl, rfl, rfl, rfl, rfl⟩
  | none =>
    have hlast : f.rows.length - 1 < f.rows.length := by omega
    refine ⟨{ legOf f first fill risk (f.rows.length - 1) (closeOf f.rows (f.rows.length - 1)) .marked with
      status := .stillOpen }, ?_, rfl, rfl, rfl, rfl⟩
    unfold hitOrMark
    rw [Option.map_none]
    dsimp only
    rw [leg_eq hlong (closeOf_pos hlast)]
    rfl

lemma lastBefore_lt (hfirst : first < f.rows.length) (horizon : ℤ) :
    lastBefore f.rows first horizon < f.rows.length := by
  rw [lastBefore]
  cases hlast : ((List.range f.rows.length).filter fun i => first ≤ i ∧
    (f.rows[i]?).any fun bar => bar.day < horizon).getLast? with
  | none => exact hfirst
  | some last =>
    have hmem := List.mem_of_getLast? hlast
    exact List.mem_range.mp (List.mem_filter.mp hmem).1

end Leg

section Entry

variable {f : DailyFrame} {setupAt : ℕ → Option Setup} {spec : String} {index : ℕ} {setup : Setup} {today : ℤ}

structure TakenAs (f : DailyFrame) (spec : String) (t : SetupTrade) (entry : Entry) : Prop where
  view : entry.view = some (t.view f)
  specKey : entry.specKey = spec
  taken : entry.taken = true
  exitDate : (entry.stopTarget.filter (·.status = .closed)).map (·.exitDate) = t.freeAt.map f.dayAt

lemma scoreFilled_eq (entry : Entry) (fill risk : ℚ) (today : ℤ) {first : ℕ} (hlong : entry.short = false)
    (hstop : 0 < entry.stop) (htarget : 0 < entry.target) (hfirst : first < f.rows.length) :
    ∃ scored, scoreFilled entry f.rows first fill risk (f.dayAt first) today = .ok scored ∧
      TakenAs f entry.specKey ⟨first, fill, entry.stop, entry.target,
        firstHit entry.stop entry.target first (f.rows.drop first)⟩ scored := by
  obtain ⟨timed, hfollow, htimed⟩ := follow_eq first fill risk
    hlong hstop htarget (f.dayAt first + timeExitDays) (f.rows.drop first) rfl none
  obtain ⟨timed', htimed', hkept⟩ := timeLeg_ok first fill risk hlong
    (lastBefore_lt hfirst (f.dayAt first + timeExitDays)) (f.dayAt first + timeExitDays ≤ today) timed
  obtain ⟨l, hmark, hdate, hprice, hreason, hstatus⟩ := hitOrMark_eq fill risk hlong hfirst
    (firstHit entry.stop entry.target first (f.rows.drop first))
  have hscored : scoreFilled entry f.rows first fill risk (f.dayAt first) today = .ok { entry with
      entryDate := some (f.dayAt first)
      entryPrice := some (Rounding.toDigits 4 fill)
      stopTarget := some l
      time14d := some timed'
      status := if l.status = .closed ∧ timed'.isSome then .closed else .stillOpen } := by
    simp only [scoreFilled, hfollow, ok_bind, htimed', hmark]
    rfl
  have hclosed : (l.status = .closed ∧ timed'.isSome) ↔
      (firstHit entry.stop entry.target first (f.rows.drop first)).isSome := by
    rw [hstatus]
    cases hhit : firstHit entry.stop entry.target first (f.rows.drop first) with
    | none => simp
    | some hit =>
      rw [hhit] at htimed
      simpa using hkept (htimed rfl)
  refine ⟨_, hscored, ?_, rfl, ?_, ?_⟩
  · cases hhit : firstHit entry.stop entry.target first (f.rows.drop first) with
    | none =>
      simp [Entry.view, Entry.taken, hclosed, hhit, SetupTrade.view, hdate, hprice, hreason]
    | some hit =>
      simp [Entry.view, Entry.taken, hclosed, hhit, SetupTrade.view, hdate, hprice, hreason]
  · simp only [Entry.taken]
    split_ifs <;> rfl
  · simp only [SetupTrade.freeAt]
    cases hhit : firstHit entry.stop entry.target first (f.rows.drop first) with
    | none => simp [hstatus, hhit]
    | some hit => simp [hstatus, hhit, hdate, exitOrMark]

lemma findIdx_after (hindex : index < f.rows.length) :
    f.rows.findIdx? (fun bar => f.dayAt index < bar.day) =
      if index + 1 < f.rows.length then some (index + 1) else none := by
  split_ifs with hnext
  · rw [List.findIdx?_eq_some_iff_getElem]
    refine ⟨hnext, ?_, ?_⟩
    · rw [decide_eq_true_eq, ← dayAt_eq (List.getElem?_eq_getElem hnext), dayAt_lt_iff hindex hnext]
      omega
    · intro j hj
      have hlt : j < f.rows.length := by omega
      rw [decide_eq_true_eq, ← dayAt_eq (List.getElem?_eq_getElem hlt), dayAt_lt_iff hindex hlt]
      omega
  · rw [List.findIdx?_eq_none_iff]
    intro bar hbar
    obtain ⟨j, hj⟩ := List.mem_iff_getElem?.mp hbar
    have hlt : j < f.rows.length := (List.getElem?_eq_some_iff.mp hj).1
    rw [decide_eq_false_iff_not, ← dayAt_eq hj, dayAt_lt_iff hindex hlt]
    omega

lemma scoreEntry_offer (today : ℤ) {entry : Entry} {t : SetupTrade} (hindex : index < f.rows.length)
    (hentry : ledgerEntry f spec setupAt index = some entry) (hoffer : tradeOffer f setupAt index = some t) :
    ∃ scored, scoreEntry entry f.rows today = .ok scored ∧ TakenAs f spec t scored := by
  rw [tradeOffer] at hoffer
  obtain ⟨setup, hsetup, rfl⟩ := Option.map_eq_some_iff.mp hentry
  obtain ⟨hstop, hprice, htarget⟩ := setup.plan
  cases hnext : f.rows[index + 1]? with
  | none => simp [hsetup, hnext] at hoffer
  | some next =>
    simp only [hsetup, hnext] at hoffer
    split_ifs at hoffer with hfill
    obtain rfl := Option.some.inj hoffer
    have hlt := (List.getElem?_eq_some_iff.mp hnext).1
    let fill := next.openPrice * (1 + halfSpread)
    let entry : Entry :=
      { signalBar := f.dayAt index, specKey := spec, stop := setup.stop, target := setup.target }
    obtain ⟨scored, hscored, htaken⟩ := scoreFilled_eq entry fill |fill - setup.stop| today rfl hstop
      (show 0 < entry.target by simp only [entry]; linarith) hlt
    refine ⟨scored, ?_, htaken⟩
    have hside : cost.entryFillPrice next.openPrice entry.side false = .ok fill :=
      cost_entryFill (row_positive hnext).1
    have hrisk : ¬ |fill - setup.stop| ≤ 0 := by
      rw [not_le, abs_pos]
      exact sub_ne_zero.mpr hfill
    rw [dayAt_eq hnext] at hscored
    simp only [scoreEntry, findIdx_after hindex, if_pos hlt, hnext]
    change (cost.entryFillPrice next.openPrice entry.side false >>= _) = _
    rw [hside, ok_bind, ← hscored]
    exact if_neg hrisk

lemma scoreEntry_noOffer (today : ℤ) {entry : Entry} (hindex : index < f.rows.length)
    (hentry : ledgerEntry f spec setupAt index = some entry) (hoffer : tradeOffer f setupAt index = none) :
    ∃ scored, scoreEntry entry f.rows today = .ok scored ∧ scored.taken = false ∧
      (index + 1 < f.rows.length → scored.status = .noRisk) := by
  rw [tradeOffer] at hoffer
  obtain ⟨setup, hsetup, rfl⟩ := Option.map_eq_some_iff.mp hentry
  by_cases hlt : index + 1 < f.rows.length
  · have hnext := List.getElem?_eq_getElem hlt
    simp only [hsetup, hnext, ite_eq_left_iff, reduceCtorEq, imp_false, not_not] at hoffer
    simp only [scoreEntry, findIdx_after hindex, if_pos hlt, hnext]
    have hfill := cost_entryFill (row_positive hnext).1
    change ∃ scored, (cost.entryFillPrice (f.rows[index + 1]).openPrice .buy false >>= _) = .ok scored ∧ _
    rw [hfill, ok_bind, hoffer]
    refine ⟨_, if_pos (by simp), rfl, fun _ => rfl⟩
  · simp only [scoreEntry, findIdx_after hindex, if_neg hlt]
    exact ⟨_, rfl, rfl, fun h => absurd h hlt⟩

end Entry

section Ledger

variable (f : DailyFrame) (spec : String) (setupAt : ℕ → Option Setup) (today : ℤ)

def ledgerState (n : ℕ) : Except EngineError (BusyUntil × List Entry) :=
  (ledgerEntries f spec setupAt n).foldlM (scoreNext f.rows today) (fun _ => none, [])

structure LedgerTracks (n : ℕ) (acc : BusyUntil × List Entry) (d : Desk SetupTrade) : Prop where
  trades : ledgerTrades acc.2 = d.taken.map (·.view f)
  busy : n < f.rows.length → acc.1 spec = if d.taken = [] then none else some (d.free.map f.dayAt)
  idle : d.taken = [] → d.free = some 0
  inFrame : d.taken ≠ [] → ∀ j, d.free = some j → j < f.rows.length

variable {f spec setupAt today} {n : ℕ} {acc : BusyUntil × List Entry} {d : Desk SetupTrade}

lemma ledgerState_succ : ledgerState f spec setupAt today (n + 1) =
    (ledgerState f spec setupAt today n >>= fun acc =>
      (ledgerEntry f spec setupAt n).elim (pure acc) (scoreNext f.rows today acc)) := by
  rw [ledgerState, ledgerEntries, List.range_succ, List.filterMap_append, List.foldlM_append]
  congr 1
  funext acc
  cases h : ledgerEntry f spec setupAt n with
  | none => simp [h]
  | some entry => simp [h]

lemma tradeOffer_isSome (spec : String) {t : SetupTrade} (h : tradeOffer f setupAt n = some t) :
    ∃ entry, ledgerEntry f spec setupAt n = some entry := by
  rw [tradeOffer] at h
  cases hsetup : setupAt n with
  | none => simp [hsetup] at h
  | some setup => exact ⟨_, by rw [ledgerEntry, hsetup]; rfl⟩

lemma firstHit_lt {stop target : ℚ} {bars : List Row} {index e : ℕ} {level : ℚ × LegReason}
    (h : firstHit stop target index bars = some (e, level)) : e < index + bars.length := by
  induction bars generalizing index with
  | nil => simp [firstHit] at h
  | cons bar rest ih =>
    rw [firstHit] at h
    cases hcross : crossed false stop target bar with
    | some found =>
      simp only [hcross, Option.some.injEq, Prod.mk.injEq] at h
      simp only [List.length_cons]
      omega
    | none =>
      simp only [hcross] at h
      have := ih h
      simp only [List.length_cons]
      omega

lemma freeAt_lt {t : SetupTrade} (h : tradeOffer f setupAt n = some t) {j : ℕ} (hj : t.freeAt = some j) :
    j < f.rows.length := by
  rw [tradeOffer] at h
  cases hsetup : setupAt n with
  | none => simp [hsetup] at h
  | some setup =>
    cases hnext : f.rows[n + 1]? with
    | none => simp [hsetup, hnext] at h
    | some next =>
      simp only [hsetup, hnext] at h
      split_ifs at h
      obtain rfl := Option.some.inj h
      obtain ⟨⟨e, level⟩, hhit, rfl⟩ := Option.map_eq_some_iff.mp hj
      have hlt := firstHit_lt hhit
      have hin := (List.getElem?_eq_some_iff.mp hnext).1
      rw [List.length_drop] at hlt
      dsimp only
      omega

lemma blocked_iff (hn : n < f.rows.length) (h : LedgerTracks f spec n acc d) {entry : Entry}
    (hentry : ledgerEntry f spec setupAt n = some entry) : blocked acc.1 entry = !d.isFree n := by
  obtain ⟨setup, _, rfl⟩ := Option.map_eq_some_iff.mp hentry
  simp only [blocked, h.busy hn]
  by_cases htaken : d.taken = []
  · simp [htaken, Desk.isFree, h.idle htaken]
  · rw [if_neg htaken]
    cases hfree : d.free with
    | none => simp [Desk.isFree, hfree]
    | some j =>
      have hj := h.inFrame htaken j hfree
      simp only [Option.map_some, Desk.isFree, hfree, Option.any_some, dayAt_lt_iff hn hj]
      by_cases hlt : n < j <;> simp [hlt, not_le.mpr, not_lt.mp]

lemma ledgerTrades_append (scored : List Entry) (entry : Entry) :
    ledgerTrades (scored ++ [entry]) = ledgerTrades scored ++ entry.view.toList := by
  rw [ledgerTrades, List.filterMap_append]
  cases h : entry.view <;> simp [ledgerTrades, h]

lemma ledgerTrades_append_none {scored : List Entry} {entry : Entry} (h : entry.view = none) :
    ledgerTrades (scored ++ [entry]) = ledgerTrades scored := by
  rw [ledgerTrades_append, h]
  simp

lemma view_of_not_taken {entry : Entry} (h : entry.taken = false) : entry.view = none := by
  rw [Entry.view, h]
  split <;> simp

lemma ledgerTracks_untouched (h : LedgerTracks f spec n acc d) : LedgerTracks f spec (n + 1) acc d :=
  ⟨h.trades, fun hn => h.busy (by omega), h.idle, h.inFrame⟩

lemma ledgerTracks_step (hn : n < f.rows.length) (h : LedgerTracks f spec n acc d) :
    ∃ acc', (ledgerEntry f spec setupAt n).elim (pure acc) (scoreNext f.rows today acc) = .ok acc' ∧
      LedgerTracks f spec (n + 1) acc' (step SetupTrade.freeAt (tradeOffer f setupAt) n d) := by
  cases hentry : ledgerEntry f spec setupAt n with
  | none =>
    have hoffer : tradeOffer f setupAt n = none := by
      by_contra hsome
      obtain ⟨t, ht⟩ := Option.ne_none_iff_exists'.mp hsome
      obtain ⟨entry, he⟩ := tradeOffer_isSome spec ht
      simp [hentry] at he
    rw [step_idle hoffer]
    exact ⟨acc, rfl, ledgerTracks_untouched h⟩
  | some entry =>
    have hblocked := blocked_iff hn h hentry
    simp only [Option.elim_some, scoreNext, hblocked]
    cases hfree : d.isFree n with
    | false =>
      rw [step_busy hfree]
      refine ⟨_, rfl, ?_, (ledgerTracks_untouched h).busy, h.idle, h.inFrame⟩
      exact (ledgerTrades_append_none rfl).trans h.trades
    | true =>
      have hspec : entry.specKey = spec := by
        obtain ⟨setup, _, rfl⟩ := Option.map_eq_some_iff.mp hentry
        rfl
      cases hoffer : tradeOffer f setupAt n with
      | none =>
        obtain ⟨scored, hscored, htaken, hrisk⟩ := scoreEntry_noOffer today hn hentry hoffer
        rw [step_idle hoffer, hscored]
        refine ⟨_, rfl, ?_, ?_, h.idle, h.inFrame⟩
        · exact (ledgerTrades_append_none (view_of_not_taken htaken)).trans h.trades
        · intro hlt
          have hsame : occupy acc.1 scored = acc.1 := by simp [occupy, htaken, hrisk hlt]
          rw [hsame]
          exact h.busy hn
      | some t =>
        obtain ⟨scored, hscored, htaken⟩ := scoreEntry_offer today hn hentry hoffer
        rw [step_take hfree hoffer, hscored]
        refine ⟨_, rfl, ?_, ?_, by simp, ?_⟩
        · rw [ledgerTrades_append, h.trades, htaken.view]
          simp
        · intro _
          simp [occupy, htaken.taken, htaken.specKey, htaken.exitDate]
        · intro _ j hj
          exact freeAt_lt hoffer hj

theorem ledger_trades (f : DailyFrame) (spec : String) (setupAt : ℕ → Option Setup) (today : ℤ) :
    ∃ scored, scoreSymbol (ledgerEntries f spec setupAt f.rows.length) f.rows today = .ok scored ∧
      ledgerTrades scored = (tradeDesk f setupAt f.rows.length).taken.map (·.view f) := by
  have hrun : ∀ n ≤ f.rows.length, ∃ acc, ledgerState f spec setupAt today n = .ok acc ∧
      LedgerTracks f spec n acc (tradeDesk f setupAt n) := by
    intro n hn
    induction n with
    | zero => exact ⟨_, rfl, rfl, fun _ => rfl, fun _ => rfl, fun h => absurd rfl h⟩
    | succ n ih =>
      obtain ⟨acc, hacc, htracks⟩ := ih (Nat.le_of_succ_le hn)
      obtain ⟨acc', hacc', htracks'⟩ := ledgerTracks_step hn htracks
      exact ⟨acc', by rw [ledgerState_succ, hacc]; exact hacc', htracks'⟩
  obtain ⟨acc, hacc, htracks⟩ := hrun f.rows.length le_rfl
  refine ⟨acc.2, ?_, htracks.trades⟩
  rw [scoreSymbol]
  rw [ledgerState] at hacc
  rw [hacc]
  rfl

end Ledger

end AlgoTrader.Workflow
