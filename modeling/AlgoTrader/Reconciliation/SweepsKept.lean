import AlgoTrader.Reconciliation.Sweeps

/-! What a sweep leaves of the rows it reports: each is reported once, and is either written or, in an
unknown state and over the budget, left for a later sweep. -/

namespace AlgoTrader.Reconciliation

open Automation

section Keys

variable {book : Book} {order other : Payload}

def orderKeys (order : Payload) : List Key :=
  .order order.brokerOrderId :: order.legs.map fun leg => .order leg.brokerOrderId

def executionKey (book : Book) (order : Payload) : Option Key := (executionId book order).map Key.execution

lemma keys_orderRows (horder : order ∈ book.orders) :
    (orderRows book order).map (·.key) = (executionKey book order).toList ++ orderKeys order := by
  have hne : order.brokerOrderId ≠ "" := book.ids_ne _ (mem_brokerOrders horder).1
  rw [orderRows, executionKey, orderKeys, if_neg hne, List.map_append, List.map_append, List.map_map,
    List.append_assoc]
  cases executionId book order <;> rfl

lemma order_ids (order : Payload) :
    orderKeys order = ((order.toLeg :: order.legs).map (·.brokerOrderId)).map Key.order := by
  rw [List.map_cons, List.map_cons, List.map_map]
  rfl

lemma order_injective : Function.Injective Key.order := fun _ _ h => Key.order.inj h

lemma ids_flatMap (book : Book) : (book.orders.flatMap fun order =>
    (order.toLeg :: order.legs).map (·.brokerOrderId)).Nodup := by
  have h := book.ids_nodup
  rwa [brokerOrders, List.map_flatMap] at h

lemma of_executionKey {key : Key} (h : executionKey book order = some key) :
    ∃ execution ∈ book.executions, execution.brokerOrderId = order.brokerOrderId ∧ .execution execution.id = key := by
  obtain ⟨id, hid, rfl⟩ := Option.map_eq_some_iff.mp h
  obtain ⟨execution, hfound, rfl⟩ := Option.map_eq_some_iff.mp hid
  obtain ⟨hmem, hbroker⟩ := of_executionByOrder hfound
  exact ⟨execution, hmem, hbroker, rfl⟩

lemma executionKey_unique (horder : order ∈ book.orders) (hother : other ∈ book.orders) {key : Key}
    (h : executionKey book order = some key) (h' : executionKey book other = some key) : order = other := by
  obtain ⟨execution, hmem, hid, rfl⟩ := of_executionKey h
  obtain ⟨execution', hmem', hid', hexec⟩ := of_executionKey h'
  have hsame := List.inj_on_of_nodup_map book.execution_ids_nodup hmem' hmem (Key.execution.inj hexec)
  have hbroker : order.brokerOrderId = other.brokerOrderId := by rw [← hid, ← hid', hsame]
  have hleg := eq_of_id (mem_brokerOrders horder).1 (mem_brokerOrders hother).1 hbroker
  have hown : order.toLeg ∈ order.toLeg :: order.legs := List.mem_cons_self
  exact order_unique horder hother hown (hleg ▸ List.mem_cons_self)

lemma executionKey_notMem {key : Key} (h : executionKey book order = some key) : key ∉ orderKeys other := by
  obtain ⟨execution, -, -, rfl⟩ := of_executionKey h
  rw [order_ids]
  intro hmem
  obtain ⟨id, -, hid⟩ := List.mem_map.mp hmem
  cases hid

lemma orderRows_keys_nodup (horder : order ∈ book.orders) : ((orderRows book order).map (·.key)).Nodup := by
  have horders : (orderKeys order).Nodup := by
    rw [order_ids]
    exact ((List.nodup_flatMap.mp (ids_flatMap book)).1 order horder).map order_injective
  rw [keys_orderRows horder]
  cases hkey : executionKey book order with
  | none => exact horders
  | some key => exact List.nodup_cons.mpr ⟨executionKey_notMem hkey, horders⟩

lemma orderRows_disjoint (horder : order ∈ book.orders) (hother : other ∈ book.orders)
    (hne : order ≠ other) (hids : List.Disjoint ((order.toLeg :: order.legs).map (·.brokerOrderId))
      ((other.toLeg :: other.legs).map (·.brokerOrderId))) :
    List.Disjoint ((orderRows book order).map (·.key)) ((orderRows book other).map (·.key)) := by
  have horders : List.Disjoint (orderKeys order) (orderKeys other) := by
    rw [order_ids, order_ids]
    exact List.disjoint_map order_injective hids
  rw [keys_orderRows horder, keys_orderRows hother]
  intro key hkey hkey'
  rcases List.mem_append.mp hkey with hexec | hkey
  · rw [Option.mem_toList] at hexec
    rcases List.mem_append.mp hkey' with hexec' | hkey'
    · rw [Option.mem_toList] at hexec'
      exact hne (executionKey_unique horder hother hexec hexec')
    · exact executionKey_notMem hexec hkey'
  · rcases List.mem_append.mp hkey' with hexec' | hkey'
    · rw [Option.mem_toList] at hexec'
      exact executionKey_notMem hexec' hkey
    · exact horders hkey hkey'

lemma keys_nodup (book : Book) : ((reportedRows book).map (·.key)).Nodup := by
  rw [reportedRows, List.map_flatMap]
  refine List.nodup_flatMap.mpr ⟨fun order horder => orderRows_keys_nodup horder, ?_⟩
  refine ((orders_nodup book).and (List.nodup_flatMap.mp (ids_flatMap book)).2).imp_of_mem ?_
  rintro order other horder hother ⟨hne, hids⟩
  exact orderRows_disjoint horder hother hne hids

end Keys

def State.knows (s : State) (key : Key) : Bool := (s.written key).isSome

def State.Recorded (s : State) : Prop := ∀ key parts, s.written key = some parts → s.store key = some parts

inductive Visit (s : State) (row : Reported) : State → Prop
  | unchanged (h : s.written row.key = some row.parts) : Visit s row s
  | changed (last : Parts) (h : s.written row.key = some last) (hne : last ≠ row.parts) :
      Visit s row ((s.put row).remember row)
  | spent (h : s.written row.key = none) (hbudget : s.unknownBudget = 0) : Visit s row s
  | refreshed (budget : ℕ) (h : s.written row.key = none) (hbudget : s.unknownBudget = budget + 1) :
      Visit s row ((State.put { s with unknownBudget := budget } row).remember row)

lemma visit (s : State) (row : Reported) : Visit s row (visitRow s row) := by
  rw [visitRow, changed]
  cases hwritten : s.written row.key with
  | some last =>
    by_cases hsame : last = row.parts
    · subst hsame
      simp only [ne_eq, not_true_eq_false, decide_false]
      exact .unchanged hwritten
    · simp only [ne_eq, hsame, not_false_eq_true, decide_true]
      exact .changed last hwritten hsame
  | none =>
    cases hbudget : s.unknownBudget with
    | zero => exact .spent hwritten hbudget
    | succ budget => exact .refreshed budget hwritten hbudget

section Row

variable {s s' : State} {row : Reported} {key : Key}

lemma State.knows_of_some {parts : Parts} (h : s.written key = some parts) : s.knows key = true := by
  rw [State.knows, h]
  rfl

lemma State.knows_of_none (h : s.written key = none) : s.knows key = false := by
  rw [State.knows, h]
  rfl

lemma written_remember (s : State) (row : Reported) (key : Key) :
    ((s.put row).remember row).written key = if key = row.key then some row.parts else s.written key := by
  change Function.update s.written row.key (some row.parts) key = _
  rw [Function.update_apply]

lemma store_put (s : State) (row : Reported) (key : Key) :
    (s.put row).store key = if key = row.key then some row.parts else s.store key := by
  change Function.update s.store row.key (some row.parts) key = _
  rw [Function.update_apply]

lemma recorded_write (h : s.Recorded) (row : Reported) : ((s.put row).remember row).Recorded := by
  intro key parts hwritten
  rw [written_remember] at hwritten
  change (s.put row).store key = some parts
  rw [store_put]
  split_ifs at hwritten ⊢
  · exact hwritten
  · exact h key parts hwritten

lemma Visit.recorded (h : Visit s row s') (hs : s.Recorded) : s'.Recorded := by
  cases h with
  | unchanged => exact hs
  | changed => exact recorded_write hs row
  | spent => exact hs
  | refreshed budget => exact recorded_write (s := { s with unknownBudget := budget }) hs row

lemma Visit.frame (h : Visit s row s') (hne : key ≠ row.key) :
    s'.written key = s.written key ∧ s'.store key = s.store key := by
  cases h with
  | unchanged => exact ⟨rfl, rfl⟩
  | changed => exact ⟨Function.update_of_ne hne .., Function.update_of_ne hne ..⟩
  | spent => exact ⟨rfl, rfl⟩
  | refreshed => exact ⟨Function.update_of_ne hne .., Function.update_of_ne hne ..⟩

lemma Visit.own (h : Visit s row s') :
    s'.written row.key = some row.parts ∨
      s'.written row.key = none ∧ s'.store row.key = s.store row.key := by
  cases h with
  | unchanged h => exact Or.inl h
  | changed => exact Or.inl (Function.update_self ..)
  | spent h => exact Or.inr ⟨h, rfl⟩
  | refreshed => exact Or.inl (Function.update_self ..)

end Row

section Rows

variable {s : State} {row : Reported} {rows : List Reported} {key : Key}

lemma foldl_frame (h : key ∉ rows.map (·.key)) :
    (rows.foldl visitRow s).written key = s.written key ∧ (rows.foldl visitRow s).store key = s.store key := by
  induction rows generalizing s with
  | nil => exact ⟨rfl, rfl⟩
  | cons row rest ih =>
    obtain ⟨hne, hrest⟩ := not_or.mp (mt List.mem_cons.mpr h)
    obtain ⟨hwritten, hstore⟩ := (visit s row).frame hne
    obtain ⟨hwritten', hstore'⟩ := ih hrest (s := visitRow s row)
    exact ⟨hwritten'.trans hwritten, hstore'.trans hstore⟩

lemma foldl_recorded (h : s.Recorded) : (rows.foldl visitRow s).Recorded := by
  induction rows generalizing s with
  | nil => exact h
  | cons row rest ih => exact ih ((visit s row).recorded h)

lemma foldl_row (hnodup : (rows.map (·.key)).Nodup) (hrow : row ∈ rows) :
    (rows.foldl visitRow s).written row.key = some row.parts ∨
      (rows.foldl visitRow s).written row.key = none ∧
        (rows.foldl visitRow s).store row.key = s.store row.key := by
  induction rows generalizing s with
  | nil => cases hrow
  | cons first rest ih =>
    obtain ⟨hnot, hrest⟩ := List.nodup_cons.mp hnodup
    rw [List.foldl_cons]
    rcases List.mem_cons.mp hrow with rfl | hrow
    · obtain ⟨hwritten, hstore⟩ := foldl_frame hnot (s := visitRow s row)
      rw [hwritten, hstore]
      exact (visit s row).own
    · have hkey : row.key ∈ rest.map (·.key) := List.mem_map_of_mem hrow
      have hne : row.key ≠ first.key := ne_of_mem_of_not_mem hkey hnot
      rw [← ((visit s first).frame hne).2]
      exact ih hrest hrow

lemma knows_write (s : State) (row : Reported) (key : Key) :
    ((s.put row).remember row).knows key = (decide (key = row.key) || s.knows key) := by
  rw [State.knows, written_remember]
  split_ifs with heq
  · rw [decide_eq_true heq]
    rfl
  · rw [decide_eq_false heq]
    rfl

lemma unknown_write (hnot : row.key ∉ rows.map (·.key)) :
    RollingRefresh.unknown ((s.put row).remember row).knows (rows.map (·.key)) =
      RollingRefresh.unknown s.knows (rows.map (·.key)) := by
  apply List.filter_congr
  intro key hkey
  have hne : key ≠ row.key := ne_of_mem_of_not_mem hkey hnot
  rw [knows_write, decide_eq_false hne, Bool.false_or]

lemma knows_foldl (hnodup : (rows.map (·.key)).Nodup) (key : Key) :
    (rows.foldl visitRow s).knows key =
      (s.knows key || decide (key ∈ (RollingRefresh.unknown s.knows (rows.map (·.key))).take s.unknownBudget)) := by
  induction rows generalizing s with
  | nil => simp [RollingRefresh.unknown]
  | cons row rest ih =>
    obtain ⟨hnot, hrest⟩ := List.nodup_cons.mp hnodup
    rw [List.foldl_cons, ih hrest, List.map_cons]
    have hknown (h : s.knows row.key = true) : RollingRefresh.unknown s.knows (row.key :: rest.map (·.key)) =
        RollingRefresh.unknown s.knows (rest.map (·.key)) := List.filter_cons_of_neg (by simp [h])
    have hunknown (h : s.knows row.key = false) : RollingRefresh.unknown s.knows (row.key :: rest.map (·.key)) =
        row.key :: RollingRefresh.unknown s.knows (rest.map (·.key)) := List.filter_cons_of_pos (by simp [h])
    generalize hvisit : visitRow s row = s'
    have hstep := hvisit ▸ visit s row
    cases hstep with
    | unchanged h => rw [hknown (State.knows_of_some h)]
    | changed last h =>
      have hrow := State.knows_of_some h
      rw [hknown hrow, unknown_write hnot, knows_write]
      by_cases heq : key = row.key
      · rw [heq, hrow]
        simp
      · rw [decide_eq_false heq, Bool.false_or]
        rfl
    | spent h hbudget => rw [hbudget, List.take_zero, List.take_zero]
    | refreshed budget h hbudget =>
      rw [hunknown (State.knows_of_none h), hbudget, List.take_succ_cons, unknown_write hnot, knows_write]
      change ((decide (key = row.key) || s.knows key) ||
        decide (key ∈ (RollingRefresh.unknown s.knows (rest.map (·.key))).take budget)) = _
      simp only [List.mem_cons, Bool.decide_or]
      rw [Bool.or_left_comm, ← Bool.or_assoc]

end Rows

end AlgoTrader.Reconciliation
