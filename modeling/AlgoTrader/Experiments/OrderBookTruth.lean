import AlgoTrader.Experiments.ExtendedHours
import AlgoTrader.Lib.Table
import Mathlib.Data.Finset.Card

/-! What the extended-hours book says of the broker's orders: each live one is counted, and a filled one is not
recorded as canceled. -/

namespace AlgoTrader.Experiments.ExtendedHours

def ExperimentOrder.tracks (order : ExperimentOrder) (brokerOrderId : ℕ) : Prop :=
  order.brokerOrderId = some brokerOrderId ∨ order.exitBrokerOrderId = some brokerOrderId

def Book.liveOrderCount (b : Book) : ℕ := ((Finset.range b.broker.length).filter fun i => b.isLiveOrder i).card

structure BookTrue (b : Book) : Prop where
  capped : b.liveOrderCount ≤ b.openOrderCount
  counted : ∀ i, b.isLiveOrder i → ∃ order ∈ b.orders, order.status ∈ openStatuses ∧ order.tracks i
  apart : ∀ order ∈ b.orders, ∀ i i', order.tracks i → order.tracks i' → b.isLiveOrder i → b.isLiveOrder i' → i = i'
  filled : ∀ order ∈ b.orders, order.status = "canceled" → ∀ i, order.tracks i → b.statusOf i ≠ "filled"

namespace Book

variable (b : Book)

def gone (brokerOrderId : ℕ) : Bool := ¬ b.isLiveOrder brokerOrderId ∧ b.statusOf brokerOrderId ≠ "filled"

def recordsCancel (order : ExperimentOrder) : CancelReply → Bool
  | .raised _ => order.brokerOrderId.isNone
  | _ => true

def endsLive : CancelReply → Bool
  | .accepted after => ¬ isLive after ∧ after ≠ "filled"
  | _ => false

def cancelEnds (reply : CancelReply) (brokerOrderId : ℕ) : Bool :=
  if b.isLiveOrder brokerOrderId then endsLive reply else b.statusOf brokerOrderId ≠ "filled"

def cancelClear (id : ℕ) (reply : CancelReply) : Bool :=
  (b.orders[id]?).all fun order => ¬ recordsCancel order reply ∨
    order.brokerOrderId.all (b.cancelEnds reply) ∧ order.exitBrokerOrderId.all b.gone

def expiryClear (replies : ℕ → CancelReply) : Bool :=
  b.listExpiredOpenOrders.all fun id => b.cancelClear id (replies id)

/-- A new order that stays live is answered for, under a status that counts. -/
def placeClear (s : ExperimentSettings) (probe : Probe) : Bool :=
  if b.submits s probe ∧ s.submitEnabled ∧ b.duplicate probe.clientOrderId = none then
    match probe.answer with
    | .taken status => ¬ isLive status ∨ recordedStatus status ∈ openStatuses
    | .lost status => ¬ isLive status
    | .refused => true
  else true

/-- An exit finds no other order of its row live, and its answer is not lost. -/
def exitClear (id : ℕ) (exit : Exit) : Bool :=
  if b.exits id exit then
    match exit.answer with
    | .taken _ => (b.orders[id]?).all fun order => order.brokerOrderId.all (¬ b.isLiveOrder ·) ∧
        order.exitBrokerOrderId.all fun old => ¬ b.isLiveOrder old ∨ b.duplicate exit.clientOrderId = some old
    | .lost status => b.duplicate exit.clientOrderId ≠ none ∨ ¬ isLive status
    | .refused => true
  else true

end Book

def Clear (s : ExperimentSettings) (b : Book) : Action → Bool
  | .probe replies probe => (b.existing probe.clientOrderId).isSome ∨
      b.expiryClear replies ∧ (b.cancelExpiredOrders replies).placeClear s probe
  | .refresh replies => b.expiryClear replies
  | .cancel id _ reply => b.cancelClear id reply
  | .exit id exit => b.exitClear id exit
  | .brokerMoves _ _ => true
  | .tick _ => true

/-- The rows are about orders the broker has, and a canceled row about ones it has closed without a fill. -/
structure Inv (b : Book) : Prop where
  known : ∀ (j : ℕ) (order : ExperimentOrder), b.orders[j]? = some order → ∀ i, order.tracks i → i < b.broker.length
  counted : ∀ i, b.isLiveOrder i → ∃ j : ℕ, ∃ order : ExperimentOrder, b.orders[j]? = some order ∧
    order.status ∈ openStatuses ∧ order.tracks i
  apart : ∀ (j : ℕ) (order : ExperimentOrder), b.orders[j]? = some order → ∀ i i', order.tracks i → order.tracks i' →
    b.isLiveOrder i → b.isLiveOrder i' → i = i'
  gone : ∀ (j : ℕ) (order : ExperimentOrder), b.orders[j]? = some order → order.status = "canceled" →
    ∀ i, order.tracks i → b.gone i

section Invariant

variable {b b' : Book} {order : ExperimentOrder} {i j id : ℕ} {s : ExperimentSettings}

lemma gone_iff : b.gone i = true ↔ b.isLiveOrder i = false ∧ b.statusOf i ≠ "filled" := by simp [Book.gone]

/-- Members that each have a row, and no row for two, are at most as many as the rows. -/
lemma card_le_countP {α : Type*} {p : α → Bool} {R : α → ℕ → Prop} {rows : List α} {members : Finset ℕ}
    (hcounted : ∀ i ∈ members, ∃ row ∈ rows, p row = true ∧ R row i)
    (hapart : ∀ row ∈ rows, ∀ i ∈ members, ∀ i' ∈ members, R row i → R row i' → i = i') :
    members.card ≤ rows.countP p := by
  classical
  induction rows generalizing members with
  | nil =>
    have hempty : members = ∅ := by
      refine Finset.eq_empty_of_forall_notMem fun i hi => ?_
      obtain ⟨_, hrow, _⟩ := hcounted i hi
      cases hrow
    simp [hempty]
  | cons row rows ih =>
    have hrest : (members.filter fun i => ¬ (p row = true ∧ R row i)).card ≤ rows.countP p := by
      refine ih (fun i hi => ?_) fun other hother i hi i' hi' => ?_
      · obtain ⟨hmem, hnot⟩ := Finset.mem_filter.mp hi
        obtain ⟨other, hother, hrest⟩ := hcounted i hmem
        rcases List.mem_cons.mp hother with rfl | hother
        · exact absurd hrest hnot
        · exact ⟨other, hother, hrest⟩
      · exact hapart other (List.mem_cons_of_mem _ hother) i (Finset.mem_filter.mp hi).1 i' (Finset.mem_filter.mp hi').1
    have hsplit := Finset.card_filter_add_card_filter_not (s := members) (fun i => p row = true ∧ R row i)
    rw [List.countP_cons]
    have hone : (members.filter fun i => p row = true ∧ R row i).card ≤ if p row = true then 1 else 0 := by
      split_ifs with hp
      · refine Finset.card_le_one.mpr fun i hi i' hi' => ?_
        obtain ⟨hmem, _, hR⟩ := Finset.mem_filter.mp hi
        obtain ⟨hmem', _, hR'⟩ := Finset.mem_filter.mp hi'
        exact hapart row List.mem_cons_self i hmem i' hmem' hR hR'
      · simp [hp]
    omega

lemma Inv.bookTrue (h : Inv b) : BookTrue b where
  capped := by
    refine card_le_countP (R := ExperimentOrder.tracks) (fun i hi => ?_) fun order horder i hi i' hi' => ?_
    · obtain ⟨j, order, hrow, hopen, htracks⟩ := h.counted i (Finset.mem_filter.mp hi).2
      exact ⟨order, List.mem_of_getElem? hrow, decide_eq_true hopen, htracks⟩
    · obtain ⟨j, hrow⟩ := List.mem_iff_getElem?.mp horder
      exact fun htracks htracks' =>
        h.apart j order hrow i i' htracks htracks' (Finset.mem_filter.mp hi).2 (Finset.mem_filter.mp hi').2
  counted i hlive := by
    obtain ⟨j, order, hrow, hopen, htracks⟩ := h.counted i hlive
    exact ⟨order, List.mem_of_getElem? hrow, hopen, htracks⟩
  apart order hmem := by
    obtain ⟨j, hrow⟩ := List.mem_iff_getElem?.mp hmem
    exact h.apart j order hrow
  filled order hmem hcanceled i htracks := by
    obtain ⟨j, hrow⟩ := List.mem_iff_getElem?.mp hmem
    exact (gone_iff.mp (h.gone j order hrow hcanceled i htracks)).2

lemma orders_update {f : ExperimentOrder → ExperimentOrder} (h : (b.updateOrder id f).orders[j]? = some order) :
    (id = j ∧ ∃ old, b.orders[j]? = some old ∧ f old = order) ∨ (id ≠ j ∧ b.orders[j]? = some order) := by
  rw [Book.updateOrder] at h
  exact Table.getElem?_modify_some h

lemma update_self {f : ExperimentOrder → ExperimentOrder} (h : b.orders[id]? = some order) :
    (b.updateOrder id f).orders[id]? = some (f order) := by simp [Book.updateOrder, h]

lemma update_other {f : ExperimentOrder → ExperimentOrder} (hid : id ≠ j) :
    (b.updateOrder id f).orders[j]? = b.orders[j]? := by simp [Book.updateOrder, hid]

lemma Inv.update {f : ExperimentOrder → ExperimentOrder} (h : Inv b)
    (htracks : ∀ old, b.orders[id]? = some old → ∀ i, (f old).tracks i ↔ old.tracks i)
    (hstatus : ∀ old, b.orders[id]? = some old → (f old).status = old.status ∨ ∀ i, old.tracks i → b.gone i) :
    Inv (b.updateOrder id f) where
  known j order hrow i hi := by
    rcases orders_update hrow with ⟨rfl, old, hold, rfl⟩ | ⟨_, hold⟩
    · exact h.known id old hold i ((htracks old hold i).mp hi)
    · exact h.known j order hold i hi
  counted i hlive := by
    obtain ⟨j, old, hold, hopen, hi⟩ := h.counted i hlive
    by_cases hid : id = j
    · subst hid
      refine ⟨id, f old, update_self hold, ?_, (htracks old hold i).mpr hi⟩
      rcases hstatus old hold with hsame | hgone
      · rwa [hsame]
      · have hclosed := (gone_iff.mp (hgone i hi)).1
        have hstill : b.isLiveOrder i = true := hlive
        rw [hclosed] at hstill
        cases hstill
    · exact ⟨j, old, (update_other hid).trans hold, hopen, hi⟩
  apart j order hrow i i' hi hi' := by
    rcases orders_update hrow with ⟨rfl, old, hold, rfl⟩ | ⟨_, hold⟩
    · exact h.apart id old hold i i' ((htracks old hold i).mp hi) ((htracks old hold i').mp hi')
    · exact h.apart j order hold i i' hi hi'
  gone j order hrow hcanceled i hi := by
    rcases orders_update hrow with ⟨rfl, old, hold, rfl⟩ | ⟨_, hold⟩
    · have hiold := (htracks old hold i).mp hi
      rcases hstatus old hold with hsame | hgone
      · exact h.gone id old hold (hsame ▸ hcanceled) i hiold
      · exact hgone i hiold
    · exact h.gone j order hold hcanceled i hi

section Broker

variable {status : String} {k : ℕ}

lemma isLiveOrder_move (h : (b.move k status).isLiveOrder i) : b.isLiveOrder i := by
  obtain ⟨order, horder, hlive⟩ : ∃ order, (b.move k status).broker[i]? = some order ∧ isLive order.status = true := by
    simpa [Book.isLiveOrder, Option.any_eq_true] using h
  rw [Book.move, List.getElem?_modify] at horder
  obtain ⟨old, hold, rfl⟩ := Option.map_eq_some_iff.mp horder
  rw [Book.isLiveOrder, hold, Option.any_some]
  by_contra hclosed
  simp [hclosed] at hlive

lemma statusOf_move (h : k ≠ i ∨ b.isLiveOrder i = false) : (b.move k status).statusOf i = b.statusOf i := by
  rw [Book.statusOf, Book.move, List.getElem?_modify, Book.statusOf]
  rw [Book.isLiveOrder] at h
  cases horder : b.broker[i]? with
  | none => simp
  | some order =>
    by_cases hk : k = i
    · have hclosed : isLive order.status = false := by simpa [hk, horder] using h
      simp [hclosed]
    · simp [hk]

lemma gone_move (h : b.gone i) : (b.move k status).gone i := by
  obtain ⟨hclosed, hfilled⟩ := gone_iff.mp h
  refine gone_iff.mpr ⟨?_, ?_⟩
  · by_contra hlive
    rw [isLiveOrder_move (by simpa using hlive)] at hclosed
    cases hclosed
  · rwa [statusOf_move (.inr hclosed)]

lemma Inv.move (h : Inv b) : Inv (b.move k status) where
  known j order hrow i hi := by
    have hknown := h.known j order hrow i hi
    simpa [Book.move] using hknown
  counted i hlive := h.counted i (isLiveOrder_move hlive)
  apart j order hrow i i' hi hi' hlive hlive' :=
    h.apart j order hrow i i' hi hi' (isLiveOrder_move hlive) (isLiveOrder_move hlive')
  gone j order hrow hcanceled i hi := gone_move (h.gone j order hrow hcanceled i hi)

lemma gone_of_cancelEnds {after : String} (h : b.cancelEnds (.accepted after) k) : (b.move k after).gone k := by
  rw [Book.cancelEnds] at h
  split_ifs at h with hlive
  · simp only [Book.endsLive, decide_eq_true_eq] at h
    cases horder : b.broker[k]? with
    | none => simp [Book.isLiveOrder, horder] at hlive
    | some order =>
      have hopen : isLive order.status = true := by simpa [Book.isLiveOrder, horder] using hlive
      rw [gone_iff]
      simpa [Book.isLiveOrder, Book.statusOf, Book.move, horder, hopen] using h
  · refine gone_move (gone_iff.mpr ⟨by simpa using hlive, ?_⟩)
    simpa using h

lemma gone_of_nothingToCancel (h : b.cancelEnds .nothingToCancel k) : b.gone k := by
  rw [Book.cancelEnds] at h
  split_ifs at h with hlive
  · cases h
  · exact gone_iff.mpr ⟨by simpa using hlive, by simpa using h⟩

end Broker

section Cancel

variable {reason : String} {reply : CancelReply} {s : ExperimentSettings}

lemma Inv.recordCanceled (h : Inv b) (hgone : ∀ old, b.orders[id]? = some old → ∀ i, old.tracks i → b.gone i) :
    Inv (b.recordCanceled id reason) :=
  h.update (fun _ _ _ => Iff.rfl) fun old hold => .inr (hgone old hold)

lemma Inv.note {note : Option String} (h : Inv b) :
    Inv (b.updateOrder id fun order => { order with failureReason := note }) :=
  h.update (fun _ _ _ => Iff.rfl) fun _ _ => .inl rfl

lemma Inv.cancelOrder (h : Inv b) (hclear : b.cancelClear id reply) : Inv (b.cancelOrder id reason reply).2 := by
  rw [Book.cancelOrder]
  rw [Book.cancelClear] at hclear
  cases horder : b.orders[id]? with
  | none => exact h
  | some order =>
    rw [horder, Option.all_some] at hclear
    have hrecorded (b' : Book) (hb' : Inv b') (hrow : b'.orders[id]? = some order)
        (hentry : ∀ k, order.brokerOrderId = some k → b'.gone k) (hexit : ∀ k, order.exitBrokerOrderId = some k → b'.gone k) :
        Inv (b'.recordCanceled id reason) := by
      refine hb'.recordCanceled fun old hold i hi => ?_
      obtain rfl := Option.some.inj (hrow.symm.trans hold)
      exact hi.elim (hentry i) (hexit i)
    dsimp only
    cases hentry : order.brokerOrderId with
    | none =>
      have hboth : order.exitBrokerOrderId.all b.gone = true := by
        cases reply <;> simpa [Book.recordsCancel, hentry] using hclear
      refine hrecorded b h horder (fun k hk => absurd hk (by simp [hentry])) fun k hk => ?_
      simpa [hk] using hboth
    | some k =>
      cases reply with
      | raised message => exact h
      | nothingToCancel =>
        simp only [Book.recordsCancel, hentry, Option.all_some, not_true, false_or,
          decide_eq_true_eq] at hclear
        refine hrecorded b h horder (fun k' hk' => ?_) fun k' hk' => ?_
        · obtain rfl := Option.some.inj (hentry.symm.trans hk')
          exact gone_of_nothingToCancel hclear.1
        · simpa [hk'] using hclear.2
      | accepted after =>
        simp only [Book.recordsCancel, hentry, Option.all_some, not_true, false_or,
          decide_eq_true_eq] at hclear
        refine hrecorded (b.move k after) h.move horder (fun k' hk' => ?_) fun k' hk' => ?_
        · obtain rfl := Option.some.inj (hentry.symm.trans hk')
          exact gone_of_cancelEnds hclear.1
        · exact gone_move (by simpa [hk'] using hclear.2)

structure Canceled (b b' : Book) (id : ℕ) : Prop where
  orders : ∀ j, id ≠ j → b'.orders[j]? = b.orders[j]?
  broker : ∀ i, b'.broker[i]? = b.broker[i]? ∨ b'.gone i

lemma Canceled.update (h : Canceled b b' id) (f : ExperimentOrder → ExperimentOrder) :
    Canceled b (b'.updateOrder id f) id :=
  ⟨fun j hid => (update_other hid).trans (h.orders j hid), h.broker⟩

lemma canceled_cancelOrder (hclear : b.cancelClear id reply) : Canceled b (b.cancelOrder id reason reply).2 id := by
  have hsame : Canceled b b id := ⟨fun _ _ => rfl, fun _ => .inl rfl⟩
  rw [Book.cancelOrder]
  rw [Book.cancelClear] at hclear
  cases horder : b.orders[id]? with
  | none => exact hsame
  | some order =>
    dsimp only
    cases hentry : order.brokerOrderId with
    | none => exact hsame.update _
    | some k =>
      cases reply with
      | raised message => exact hsame
      | nothingToCancel => exact hsame.update _
      | accepted after =>
        have hmoved : Canceled b (b.move k after) id := by
          refine ⟨fun _ _ => rfl, fun i => ?_⟩
          by_cases hk : k = i
          · subst hk
            have hends : b.cancelEnds (.accepted after) k = true := by
              simp only [horder, Option.all_some, Book.recordsCancel, hentry, not_true, false_or,
                decide_eq_true_eq] at hclear
              exact hclear.1
            exact .inr (gone_of_cancelEnds hends)
          · left
            simp [Book.move, hk]
        exact hmoved.update _

lemma cancelExpired_eq (b : Book) (reply : CancelReply) (id : ℕ) :
    b.cancelExpired reply id = (b.cancelOrder id "ttl_expired" reply).2 ∨
      ∃ note, b.cancelExpired reply id =
        (b.cancelOrder id "ttl_expired" reply).2.updateOrder id fun order => { order with failureReason := note } := by
  rw [Book.cancelExpired]
  generalize b.cancelOrder id "ttl_expired" reply = outcome
  obtain ⟨raised, b'⟩ := outcome
  cases raised with
  | none => exact .inl rfl
  | some message => exact .inr ⟨_, rfl⟩

lemma Inv.cancelExpired (h : Inv b) (hclear : b.cancelClear id reply) : Inv (b.cancelExpired reply id) := by
  rcases cancelExpired_eq b reply id with hsame | ⟨note, hnoted⟩
  · rw [hsame]
    exact h.cancelOrder hclear
  · rw [hnoted]
    exact (h.cancelOrder hclear).note

lemma canceled_cancelExpired (hclear : b.cancelClear id reply) : Canceled b (b.cancelExpired reply id) id := by
  rcases cancelExpired_eq b reply id with hsame | ⟨note, hnoted⟩
  · rw [hsame]
    exact canceled_cancelOrder hclear
  · rw [hnoted]
    exact (canceled_cancelOrder hclear).update _

lemma Canceled.gone (h : Canceled b b' id) (hgone : b.gone i) : b'.gone i := by
  rcases h.broker i with hsame | hgone'
  · rw [gone_iff] at hgone ⊢
    rwa [Book.isLiveOrder, Book.statusOf, hsame]
  · exact hgone'

lemma Canceled.cancelEnds (h : Canceled b b' id) (hends : b.cancelEnds reply i) : b'.cancelEnds reply i := by
  rcases h.broker i with hsame | hgone
  · rw [Book.cancelEnds] at hends ⊢
    rwa [Book.isLiveOrder, Book.statusOf, hsame]
  · obtain ⟨hclosed, hfilled⟩ := gone_iff.mp hgone
    rw [Book.cancelEnds, if_neg (by simp [hclosed])]
    simpa using hfilled

lemma Canceled.cancelClear (h : Canceled b b' id) (hid : id ≠ j) (hclear : b.cancelClear j reply) :
    b'.cancelClear j reply := by
  rw [Book.cancelClear] at hclear ⊢
  rw [h.orders j hid]
  cases horder : b.orders[j]? with
  | none => rfl
  | some order =>
    simp only [horder, Option.all_some, decide_eq_true_eq] at hclear ⊢
    refine hclear.imp_right fun hboth => ?_
    simp only [Option.all_eq_true] at hboth ⊢
    exact ⟨fun k hk => h.cancelEnds (hboth.1 k hk), fun k hk => h.gone (hboth.2 k hk)⟩

lemma Inv.cancelAll {replies : ℕ → CancelReply} {ids : List ℕ} (hnodup : ids.Nodup) (h : Inv b)
    (hclear : ∀ id ∈ ids, b.cancelClear id (replies id)) :
    Inv (ids.foldl (fun b id => b.cancelExpired (replies id) id) b) := by
  induction ids generalizing b with
  | nil => exact h
  | cons id ids ih =>
    obtain ⟨hnew, hnodup⟩ := List.nodup_cons.mp hnodup
    have hfirst := hclear id List.mem_cons_self
    refine ih hnodup (h.cancelExpired hfirst) fun other hother => ?_
    refine (canceled_cancelExpired hfirst).cancelClear ?_ (hclear other (List.mem_cons_of_mem _ hother))
    rintro rfl
    exact hnew hother

lemma Inv.cancelExpiredOrders {replies : ℕ → CancelReply} (h : Inv b) (hclear : b.expiryClear replies) :
    Inv (b.cancelExpiredOrders replies) :=
  h.cancelAll (List.nodup_range.filter _) (List.all_eq_true.mp hclear)

end Cancel

/-- The invariant where the order ``n`` at the broker may wait for its row. -/
structure Almost (n : ℕ) (b : Book) : Prop where
  known : ∀ (j : ℕ) (order : ExperimentOrder), b.orders[j]? = some order → ∀ i, order.tracks i → i < b.broker.length
  counted : ∀ i, b.isLiveOrder i → i ≠ n → ∃ j : ℕ, ∃ order : ExperimentOrder, b.orders[j]? = some order ∧
    order.status ∈ openStatuses ∧ order.tracks i
  apart : ∀ (j : ℕ) (order : ExperimentOrder), b.orders[j]? = some order → ∀ i i', order.tracks i →
    order.tracks i' → b.isLiveOrder i → b.isLiveOrder i' → i = i'
  gone : ∀ (j : ℕ) (order : ExperimentOrder), b.orders[j]? = some order → order.status = "canceled" →
    ∀ i, order.tracks i → b.gone i

section Submission

variable {s : ExperimentSettings} {clientOrderId : Option String} {status : String} {n : ℕ}

lemma duplicate_lt {known : ℕ} (h : b.duplicate clientOrderId = some known) : known < b.broker.length := by
  rw [Book.duplicate] at h
  split_ifs at h
  exact (List.findIdx?_eq_some_iff_findIdx_eq.mp h).1

lemma broker_add_old (hi : i < b.broker.length) :
    (b.addBrokerOrder clientOrderId status).broker[i]? = b.broker[i]? := List.getElem?_append_left hi

lemma isLiveOrder_lt (h : b.isLiveOrder i) : i < b.broker.length := by
  by_contra hi
  rw [Book.isLiveOrder, List.getElem?_eq_none (Nat.le_of_not_lt hi)] at h
  cases h

lemma isLiveOrder_add_old (hi : i < b.broker.length) :
    (b.addBrokerOrder clientOrderId status).isLiveOrder i = b.isLiveOrder i := by
  rw [Book.isLiveOrder, broker_add_old hi, Book.isLiveOrder]

lemma isLiveOrder_add_new : (b.addBrokerOrder clientOrderId status).isLiveOrder b.broker.length = isLive status := by
  simp [Book.isLiveOrder, Book.addBrokerOrder]

lemma statusOf_add_new : (b.addBrokerOrder clientOrderId status).statusOf b.broker.length = status := by
  simp [Book.statusOf, Book.addBrokerOrder]

lemma gone_add (hi : i < b.broker.length) (h : b.gone i) : (b.addBrokerOrder clientOrderId status).gone i := by
  rw [gone_iff] at h ⊢
  rwa [isLiveOrder_add_old hi, Book.statusOf, broker_add_old hi]

lemma Inv.almost (h : Inv b) (n : ℕ) : Almost n b := ⟨h.known, fun i hlive _ => h.counted i hlive, h.apart, h.gone⟩

lemma Inv.add (h : Inv b) : Almost b.broker.length (b.addBrokerOrder clientOrderId status) where
  known j order hrow i hi := by
    rw [Book.addBrokerOrder, List.length_append]
    exact Nat.lt_add_right _ (h.known j order hrow i hi)
  counted i hlive hne := by
    have hlt := isLiveOrder_lt hlive
    rw [Book.addBrokerOrder, List.length_append, List.length_singleton] at hlt
    have hi : i < b.broker.length := by omega
    rw [isLiveOrder_add_old hi] at hlive
    exact h.counted i hlive
  apart j order hrow i i' hi hi' hlive hlive' := by
    rw [isLiveOrder_add_old (h.known j order hrow i hi)] at hlive
    rw [isLiveOrder_add_old (h.known j order hrow i' hi')] at hlive'
    exact h.apart j order hrow i i' hi hi' hlive hlive'
  gone j order hrow hcanceled i hi := gone_add (h.known j order hrow i hi) (h.gone j order hrow hcanceled i hi)

lemma Almost.inv (h : Almost n b) (hn : b.isLiveOrder n = false) : Inv b where
  known := h.known
  counted i hlive := by
    refine h.counted i hlive ?_
    rintro rfl
    rw [hn] at hlive
    cases hlive
  apart := h.apart
  gone := h.gone

lemma gone_of_canceled (h : b.statusOf i = "canceled") : b.gone i := by
  rw [gone_iff, h]
  refine ⟨?_, by decide⟩
  rw [Book.statusOf] at h
  rw [Book.isLiveOrder]
  cases horder : b.broker[i]? with
  | none => rfl
  | some order =>
    rw [horder, Option.elim_some] at h
    rw [Option.any_some, h]
    decide

lemma orders_createOrder {row : ExperimentOrder} (h : (b.createOrder row).orders[j]? = some order) :
    b.orders[j]? = some order ∨ order = row := by
  by_cases hj : j < b.orders.length
  · left
    rwa [Book.createOrder, List.getElem?_append_left hj] at h
  · right
    rw [Book.createOrder, List.getElem?_append_right (Nat.le_of_not_lt hj)] at h
    exact List.mem_singleton.mp (List.mem_of_getElem? h)

lemma createOrder_old {row : ExperimentOrder} (h : b.orders[j]? = some order) :
    (b.createOrder row).orders[j]? = some order := by
  obtain ⟨hj, _⟩ := List.getElem?_eq_some_iff.mp h
  rwa [Book.createOrder, List.getElem?_append_left hj]

lemma createOrder_new {row : ExperimentOrder} : (b.createOrder row).orders[b.orders.length]? = some row := by
  simp [Book.createOrder]

lemma Almost.create {row : ExperimentOrder} (h : Almost n b) (hknown : ∀ i, row.tracks i → i < b.broker.length)
    (hcounted : ∀ i, b.isLiveOrder i → (∃ j : ℕ, ∃ order : ExperimentOrder, b.orders[j]? = some order ∧
      order.status ∈ openStatuses ∧ order.tracks i) ∨ row.status ∈ openStatuses ∧ row.tracks i)
    (hapart : ∀ i i', row.tracks i → row.tracks i' → i = i')
    (hgone : row.status = "canceled" → ∀ i, row.tracks i → b.gone i) : Inv (b.createOrder row) where
  known j order horder i hi := by
    rcases orders_createOrder horder with hold | rfl
    · exact h.known j order hold i hi
    · exact hknown i hi
  counted i hlive := by
    rcases hcounted i hlive with ⟨j, order, horder, hrest⟩ | hnew
    · exact ⟨j, order, createOrder_old horder, hrest⟩
    · exact ⟨_, row, createOrder_new, hnew⟩
  apart j order horder i i' hi hi' hlive hlive' := by
    rcases orders_createOrder horder with hold | rfl
    · exact h.apart j order hold i i' hi hi' hlive hlive'
    · exact hapart i i' hi hi'
  gone j order horder hstatus i hi := by
    rcases orders_createOrder horder with hold | rfl
    · exact h.gone j order hold hstatus i hi
    · exact hgone hstatus i hi

lemma Almost.createOrder {row : ExperimentOrder} (h : Almost n b) (hlt : n < b.broker.length)
    (hrow : ∀ i, row.tracks i ↔ i = n) (hopen : Inv b ∨ (b.isLiveOrder n → row.status ∈ openStatuses))
    (hcanceled : row.status = "canceled" → b.gone n) : Inv (b.createOrder row) := by
  refine h.create (fun i hi => ?_) (fun i hlive => ?_) (fun i i' hi hi' => ?_) fun hstatus i hi => ?_
  · rwa [(hrow i).mp hi]
  · by_cases hinv : Inv b
    · exact .inl (hinv.counted i hlive)
    · by_cases hn : i = n
      · subst hn
        exact .inr ⟨hopen.resolve_left hinv hlive, (hrow i).mpr rfl⟩
      · exact .inl (h.counted i hlive hn)
  · exact ((hrow i).mp hi).trans ((hrow i').mp hi').symm
  · rw [(hrow i).mp hi]
    exact hcanceled hstatus

lemma Inv.createDryRun {row : ExperimentOrder} (h : Inv b) (hrow : ∀ i, ¬ row.tracks i) : Inv (b.createOrder row) :=
  (h.almost 0).create (fun i hi => absurd hi (hrow i)) (fun i hlive => .inl (h.counted i hlive))
    (fun i _ hi => absurd hi (hrow i)) fun _ i hi => absurd hi (hrow i)

lemma Almost.exit (h : Almost n b) (hlt : n < b.broker.length) {old : ExperimentOrder} (hrow : b.orders[id]? = some old)
    (hentry : ∀ k, old.brokerOrderId = some k → b.isLiveOrder k = false)
    (hexit : ∀ k, old.exitBrokerOrderId = some k → b.isLiveOrder k → k = n) :
    Inv (b.updateOrder id fun order => { order with status := "exit_submitted", exitBrokerOrderId := some n }) where
  known j order horder i hi := by
    rcases orders_update horder with ⟨rfl, row, hold, rfl⟩ | ⟨_, hold⟩
    · rcases hi with hi | hi
      · exact h.known id row hold i (.inl hi)
      · obtain rfl := Option.some.inj hi
        exact hlt
    · exact h.known j order hold i hi
  counted i hlive := by
    have hself := update_self (f := fun order => { order with
      status := "exit_submitted", exitBrokerOrderId := some n }) hrow
    by_cases hn : i = n
    · have hopen : "exit_submitted" ∈ openStatuses := by decide
      exact ⟨id, _, hself, hopen, .inr (hn ▸ rfl)⟩
    · obtain ⟨j, order, horder, hopen, hi⟩ := h.counted i hlive hn
      by_cases hid : id = j
      · subst hid
        obtain rfl := Option.some.inj (hrow.symm.trans horder)
        rcases hi with hi | hi
        · have hclosed : b.isLiveOrder i = true := hlive
          rw [hentry i hi] at hclosed
          cases hclosed
        · exact absurd (hexit i hi hlive) hn
      · exact ⟨j, order, (update_other hid).trans horder, hopen, hi⟩
  apart j order horder i i' hi hi' hlive hlive' := by
    rcases orders_update horder with ⟨rfl, row, hold, rfl⟩ | ⟨_, hold⟩
    · obtain rfl := Option.some.inj (hrow.symm.trans hold)
      have hn {k : ℕ} (hk : old.brokerOrderId = some k ∨ some n = some k) (hklive : b.isLiveOrder k) : k = n := by
        rcases hk with hk | hk
        · rw [hentry k hk] at hklive
          cases hklive
        · exact (Option.some.inj hk).symm
      exact (hn hi hlive).trans (hn hi' hlive').symm
    · exact h.apart j order hold i i' hi hi' hlive hlive'
  gone j order horder hstatus i hi := by
    rcases orders_update horder with ⟨rfl, row, hold, rfl⟩ | ⟨_, hold⟩
    · have hne : "exit_submitted" ≠ "canceled" := by decide
      exact absurd hstatus hne
    · exact h.gone j order hold hstatus i hi

lemma submitOrder_cases (b : Book) (clientOrderId : Option String) (answer : Answer) :
    (b.submitOrder clientOrderId answer = (none, b) ∧ (answer = .refused ∨ b.duplicate clientOrderId ≠ none)) ∨
    (∃ status known, answer = .taken status ∧ b.duplicate clientOrderId = some known ∧
      b.submitOrder clientOrderId answer = (some known, b)) ∨
    (∃ status, answer = .taken status ∧ b.duplicate clientOrderId = none ∧
      b.submitOrder clientOrderId answer = (some b.broker.length, b.addBrokerOrder clientOrderId status)) ∨
    ∃ status, answer = .lost status ∧ b.duplicate clientOrderId = none ∧
      b.submitOrder clientOrderId answer = (none, b.addBrokerOrder clientOrderId status) := by
  cases answer with
  | refused => exact .inl ⟨rfl, .inl rfl⟩
  | taken status =>
    unfold Book.submitOrder
    cases hdup : b.duplicate clientOrderId with
    | none => exact .inr (.inr (.inl ⟨status, rfl, rfl, rfl⟩))
    | some known => exact .inr (.inl ⟨status, known, rfl, rfl, rfl⟩)
  | lost status =>
    unfold Book.submitOrder
    cases hdup : b.duplicate clientOrderId with
    | none => exact .inr (.inr (.inr ⟨status, rfl, rfl, rfl⟩))
    | some known => exact .inl ⟨rfl, .inr (Option.some_ne_none known)⟩

lemma length_add : (b.addBrokerOrder clientOrderId status).broker.length = b.broker.length + 1 := by
  simp [Book.addBrokerOrder]

lemma gone_of_recordedStatus (h : Book.recordedStatus (b.statusOf n) = "canceled") : b.gone n := by
  rw [Book.recordedStatus] at h
  split_ifs at h
  · exact absurd h (by decide)
  · exact gone_of_canceled h

lemma Inv.placeOrder {probe : Probe} (h : Inv b) (hclear : b.placeClear s probe) : Inv (b.placeOrder s probe) := by
  rw [Book.placeOrder]
  by_cases hsubmits : b.submits s probe = true
  swap
  · rw [if_pos hsubmits]
    exact h
  rw [if_neg (not_not.mpr hsubmits)]
  by_cases henabled : s.submitEnabled = true
  swap
  · rw [if_pos henabled]
    exact h.createDryRun fun i hi => by rcases hi with hi | hi <;> cases hi
  rw [if_neg (not_not.mpr henabled)]
  have htracks {n expiresAt : ℕ} {status : String} (i : ℕ) : ExperimentOrder.tracks
      ⟨status, probe.clientOrderId, some n, none, none, some expiresAt⟩ i ↔ i = n := by
    simp [ExperimentOrder.tracks, eq_comm]
  rcases submitOrder_cases b probe.clientOrderId probe.answer with ⟨hnone, _⟩ | ⟨_, known, _, hdup, hknown⟩ |
    ⟨status, hanswer, hdup, hnew⟩ | ⟨status, hanswer, hdup, hlost⟩
  · rw [hnone]
    exact h
  · rw [hknown]
    exact (h.almost known).createOrder (duplicate_lt hdup) htracks (.inl h) gone_of_recordedStatus
  · rw [hnew]
    rw [Book.placeClear, if_pos ⟨hsubmits, henabled, hdup⟩, hanswer] at hclear
    refine h.add.createOrder (by rw [length_add]; omega) htracks (.inr fun hlive => ?_) gone_of_recordedStatus
    rw [isLiveOrder_add_new] at hlive
    simp only [decide_eq_true_eq, hlive, not_true, false_or] at hclear
    simpa only [statusOf_add_new] using hclear
  · rw [hlost]
    rw [Book.placeClear, if_pos ⟨hsubmits, henabled, hdup⟩, hanswer] at hclear
    refine h.add.inv ?_
    rw [isLiveOrder_add_new]
    simpa using hclear

lemma Inv.submitExit {exit : Exit} (h : Inv b) (hclear : b.exitClear id exit) : Inv (b.submitExit id exit) := by
  rw [Book.submitExit]
  by_cases hexits : b.exits id exit = true
  swap
  · rw [if_pos hexits]
    exact h
  rw [if_neg (not_not.mpr hexits)]
  rw [Book.exitClear, if_pos hexits] at hclear
  obtain ⟨old, hrow⟩ : ∃ old, b.orders[id]? = some old := by
    have hsome : b.orders[id]?.isSome = true ∧ exit.positionHeld = true ∧ exit.planned = true := by
      simpa only [Book.exits, decide_eq_true_eq] using hexits
    exact Option.isSome_iff_exists.mp hsome.1
  have htaken {status : String} (hanswer : exit.answer = .taken status) :
      (∀ k, old.brokerOrderId = some k → b.isLiveOrder k = false) ∧ ∀ k, old.exitBrokerOrderId = some k →
        b.isLiveOrder k → b.duplicate exit.clientOrderId = some k := by
    rw [hanswer] at hclear
    simp only [hrow, Option.all_some, decide_eq_true_eq, Option.all_eq_true] at hclear
    exact ⟨fun k hk => by simpa using hclear.1 k hk, fun k hk hlive => (hclear.2 k hk).resolve_left (not_not.mpr hlive)⟩
  rcases submitOrder_cases b exit.clientOrderId exit.answer with ⟨hnone, _⟩ | ⟨status, known, hanswer, hdup, hknown⟩ |
    ⟨status, hanswer, hdup, hnew⟩ | ⟨status, hanswer, hdup, hlost⟩
  · rw [hnone]
    exact h
  · rw [hknown]
    obtain ⟨hentry, hexit⟩ := htaken hanswer
    refine (h.almost known).exit (duplicate_lt hdup) hrow hentry fun k hk hlive => ?_
    exact Option.some.inj ((hexit k hk hlive).symm.trans hdup)
  · rw [hnew]
    obtain ⟨hentry, hexit⟩ := htaken hanswer
    refine h.add.exit (by rw [length_add]; omega) hrow (fun k hk => ?_) fun k hk hlive => ?_
    · rw [isLiveOrder_add_old (h.known id old hrow k (.inl hk))]
      exact hentry k hk
    · rw [isLiveOrder_add_old (h.known id old hrow k (.inr hk))] at hlive
      cases (hexit k hk hlive).symm.trans hdup
  · rw [hlost]
    rw [hanswer] at hclear
    refine h.add.inv ?_
    rw [isLiveOrder_add_new]
    simpa [hdup] using hclear

end Submission

section Runs

variable {s : ExperimentSettings} {action : Action}

lemma Inv.step (h : Inv b) (hclear : Clear s b action = true) : Inv (step s b action) := by
  cases action with
  | probe replies probe =>
    rw [ExtendedHours.step, Book.probeAlpaca]
    rw [Clear, decide_eq_true_eq] at hclear
    split_ifs with hexisting
    · exact h
    · obtain ⟨hexpiry, hplace⟩ := hclear.resolve_left hexisting
      exact (h.cancelExpiredOrders hexpiry).placeOrder hplace
  | refresh replies => exact h.cancelExpiredOrders hclear
  | cancel id reason reply => exact h.cancelOrder hclear
  | exit id exit => exact h.submitExit hclear
  | brokerMoves brokerOrderId status => exact h.move
  | tick seconds => exact ⟨h.known, h.counted, h.apart, h.gone⟩

lemma inv_start : Inv {} where
  known j order horder := by simp at horder
  counted i hlive := by simp [Book.isLiveOrder] at hlive
  apart j order horder := by simp at horder
  gone j order horder := by simp at horder

def taken (status : String) : Action := .probe (fun _ => .nothingToCancel) { answer := .taken status }

theorem order_book_true (s : ExperimentSettings) (actions : List Action)
    (hclear : Runs.Allowed (step s) (fun b action => Clear s b action = true) {} actions) :
    Runs.Always (step s) BookTrue {} actions :=
  Runs.always_of_allowed (fun _ _ h hallowed => Inv.step h hallowed) (fun _ => Inv.bookTrue) inv_start hclear

theorem order_book_true_exit : Runs.Always (step {}) BookTrue {}
    [taken "accepted", .tick 400, .refresh fun _ => .accepted "canceled", taken "new", .brokerMoves 1 "filled",
      .exit 1 { answer := .taken "new" }, .brokerMoves 2 "filled"] :=
  order_book_true {} _ (by decide +kernel)

-- A pending order lets a second one past the cap of one, and a cancel of a filled order records a cancel.
theorem order_book_not_true :
    ¬ BookTrue (Runs.run (step {}) {} [taken "pending_new", taken "pending_new"]) ∧
    ¬ BookTrue (Runs.run (step {}) {}
      [taken "accepted", .brokerMoves 0 "filled", .cancel 0 "manual_cancel" .nothingToCancel]) := by
  constructor
  · intro h
    exact absurd h.capped (by decide +kernel)
  · intro h
    exact h.filled _ List.mem_cons_self rfl 0 (.inl rfl) rfl

end Runs

end Invariant

end AlgoTrader.Experiments.ExtendedHours
