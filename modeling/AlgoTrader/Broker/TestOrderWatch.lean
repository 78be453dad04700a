import AlgoTrader.Broker.EtoroLiveTestOrder
import AlgoTrader.Lib.OneAtATime

/-! The test order is watched until it is gone: over any run of ticks, fills, rejections and closes. What
a test has at the broker carries its number, and each number is posted once. -/

namespace AlgoTrader.Broker.TestOrder

namespace World

def live (w : World) : List ℕ := w.pending.map Prod.fst ++ w.positions.filterMap Position.owner

def Own (w : World) : Prop := ∀ x ∈ w.touched, x.2 = some x.1

def Watched (w : World) : Prop := ∀ n ∈ w.live, ∃ t, w.openTest = some t ∧ t.number = n

/-- At most one test position is open; a test that has an order or a position at the broker is the one
recorded open; and every position a test adopted or asked to close was its own. -/
structure Guarded (w : World) : Prop where
  one : (w.positions.filterMap Position.owner).length ≤ 1
  watched : w.Watched
  own : w.Own

structure Inv (w : World) : Prop where
  live_nodup : w.live.Nodup
  live_lt : ∀ n ∈ w.live, n < w.nextNumber
  ids_nodup : (w.positions.map Position.positionId).Nodup
  ids_used : ∀ p ∈ w.positions, p.positionId ∈ w.usedIds
  placed : ∀ t, w.openTest = some t → (∀ x ∈ w.pending, x.1 = t.number → x.2 = t.instrumentId) ∧
    ∀ p ∈ w.positions, p.owner = some t.number → p.instrumentId = t.instrumentId
  adopted : ∀ t id, w.openTest = some t → t.positionId = some id → id ∈ w.usedIds ∧
    ∀ p ∈ w.positions, p.positionId = id → p.instrumentId = t.instrumentId ∧ (t.number, p.owner) ∈ w.touched
  settled : ∀ t id, w.openTest = some t → t.positionId = some id → w.Own → t.number ∉ w.pending.map Prod.fst ∧
    ∀ p ∈ w.positions, p.owner = some t.number → p.positionId = id

variable {w w' : World} {t : Test} {p q : Position}

lemma mem_live {n : ℕ} : n ∈ w.live ↔ n ∈ w.pending.map Prod.fst ∨ ∃ p ∈ w.positions, p.owner = some n := by
  rw [live, List.mem_append, List.mem_filterMap]

lemma openTest_eq_some : w.openTest = some t ↔ w.stored = some t ∧ t.status = .open := by
  rw [openTest, Option.filter_eq_some_iff, decide_eq_true_eq]

lemma openTest_save : (w.save t).openTest = if t.status = .open then some t else none := by
  rw [openTest, save]
  by_cases ht : t.status = .open <;> simp [ht]

lemma eq_of_key {α β : Type} [DecidableEq β] {l : List α} {f : α → Option β} (hnodup : (l.filterMap f).Nodup)
    {a b : α} {k : β} (ha : a ∈ l) (hb : b ∈ l) (hfa : f a = some k) (hfb : f b = some k) : a = b := by
  induction l with
  | nil => cases ha
  | cons first rest ih =>
    have hmem : ∀ c ∈ rest, f c = some k → k ∈ rest.filterMap f :=
      fun c hc hfc => List.mem_filterMap.mpr ⟨c, hc, hfc⟩
    cases hfirst : f first with
    | none =>
      rw [List.filterMap_cons_none hfirst] at hnodup
      rcases List.mem_cons.mp ha with rfl | harest
      · cases hfirst.symm.trans hfa
      rcases List.mem_cons.mp hb with rfl | hbrest
      · cases hfirst.symm.trans hfb
      exact ih hnodup harest hbrest
    | some key =>
      rw [List.filterMap_cons_some hfirst, List.nodup_cons] at hnodup
      rcases List.mem_cons.mp ha with rfl | harest
      · rcases List.mem_cons.mp hb with rfl | hbrest
        · rfl
        · obtain rfl := Option.some.inj (hfirst.symm.trans hfa)
          exact absurd (hmem b hbrest hfb) hnodup.1
      · rcases List.mem_cons.mp hb with rfl | hbrest
        · obtain rfl := Option.some.inj (hfirst.symm.trans hfb)
          exact absurd (hmem a harest hfa) hnodup.1
        · exact ih hnodup.2 harest hbrest

lemma Inv.eq_of_id (hinv : Inv w) (hp : p ∈ w.positions) (hq : q ∈ w.positions)
    (hid : p.positionId = q.positionId) : p = q := List.inj_on_of_nodup_map hinv.ids_nodup hp hq hid

lemma Inv.eq_of_owner (hinv : Inv w) {n : ℕ} (hp : p ∈ w.positions) (hq : q ∈ w.positions)
    (hownerP : p.owner = some n) (hownerQ : q.owner = some n) : p = q :=
  eq_of_key (List.nodup_append.mp hinv.live_nodup).2.1 hp hq hownerP hownerQ

lemma Inv.not_pending (hinv : Inv w) {n : ℕ} (hp : p ∈ w.positions) (howner : p.owner = some n) :
    n ∉ w.pending.map Prod.fst := by
  intro hpending
  have howned : n ∈ w.positions.filterMap Position.owner := List.mem_filterMap.mpr ⟨p, hp, howner⟩
  exact (List.nodup_append.mp hinv.live_nodup).2.2 n hpending n howned rfl

lemma one_of_watched (hinv : Inv w) (h : w.Watched) : (w.positions.filterMap Position.owner).length ≤ 1 := by
  have hnodup := (List.nodup_append.mp hinv.live_nodup).2.1
  have hsame : ∀ a ∈ w.positions.filterMap Position.owner, ∀ b ∈ w.positions.filterMap Position.owner, a = b := by
    intro a ha b hb
    obtain ⟨t, ht, rfl⟩ := h a (List.mem_append_right _ ha)
    obtain ⟨t', ht', rfl⟩ := h b (List.mem_append_right _ hb)
    rw [Option.some.inj (ht.symm.trans ht')]
  exact OneAtATime.length_le_one_of_pairwise hnodup fun a ha b hb hne => hne (hsame a ha b hb)

lemma guarded_iff (hinv : Inv w) : w.Guarded ↔ w.Watched ∧ w.Own :=
  ⟨fun h => ⟨h.watched, h.own⟩, fun h => ⟨one_of_watched hinv h.1, h.1, h.2⟩⟩

structure Shrinks (w w' : World) : Prop where
  stored : w'.stored = w.stored
  positions : w'.positions.Sublist w.positions
  pending : w'.pending.Sublist w.pending
  usedIds : w'.usedIds = w.usedIds
  nextNumber : w'.nextNumber = w.nextNumber
  touched : w.touched ⊆ w'.touched

lemma Shrinks.openTest (h : Shrinks w w') : w'.openTest = w.openTest := by
  rw [World.openTest, World.openTest, h.stored]

lemma Shrinks.live (h : Shrinks w w') : w'.live.Sublist w.live :=
  (h.pending.map _).append (h.positions.filterMap _)

lemma Shrinks.own (h : Shrinks w w') (hown : w'.Own) : w.Own := fun x hx => hown x (h.touched hx)

lemma Shrinks.watched (h : Shrinks w w') (hwatched : w.Watched) : w'.Watched := by
  intro n hn
  rw [h.openTest]
  exact hwatched n (h.live.subset hn)

lemma Inv.shrink (hinv : Inv w) (h : Shrinks w w') : Inv w' where
  live_nodup := hinv.live_nodup.sublist h.live
  live_lt n hn := by
    rw [h.nextNumber]
    exact hinv.live_lt n (h.live.subset hn)
  ids_nodup := hinv.ids_nodup.sublist (h.positions.map _)
  ids_used p hp := by
    rw [h.usedIds]
    exact hinv.ids_used p (h.positions.subset hp)
  placed t ht := by
    rw [h.openTest] at ht
    obtain ⟨hpending, hpositions⟩ := hinv.placed t ht
    exact ⟨fun x hx => hpending x (h.pending.subset hx), fun p hp => hpositions p (h.positions.subset hp)⟩
  adopted t id ht hid := by
    rw [h.openTest] at ht
    obtain ⟨hused, hpositions⟩ := hinv.adopted t id ht hid
    refine ⟨h.usedIds ▸ hused, ?_⟩
    intro p hp hpid
    obtain ⟨hinstrument, htouched⟩ := hpositions p (h.positions.subset hp) hpid
    exact ⟨hinstrument, h.touched htouched⟩
  settled t id ht hid hown := by
    rw [h.openTest] at ht
    obtain ⟨hpending, hpositions⟩ := hinv.settled t id ht hid (h.own hown)
    exact ⟨fun hmem => hpending ((h.pending.map _).subset hmem), fun p hp => hpositions p (h.positions.subset hp)⟩

lemma Inv.save (hinv : Inv w) (t : Test)
    (hplaced : t.status = .open → (∀ x ∈ w.pending, x.1 = t.number → x.2 = t.instrumentId) ∧
      ∀ p ∈ w.positions, p.owner = some t.number → p.instrumentId = t.instrumentId)
    (hadopted : t.status = .open → ∀ id, t.positionId = some id → id ∈ w.usedIds ∧
      ∀ p ∈ w.positions, p.positionId = id → p.instrumentId = t.instrumentId ∧ (t.number, p.owner) ∈ w.touched)
    (hsettled : t.status = .open → ∀ id, t.positionId = some id → w.Own → t.number ∉ w.pending.map Prod.fst ∧
      ∀ p ∈ w.positions, p.owner = some t.number → p.positionId = id) : Inv (w.save t) where
  live_nodup := hinv.live_nodup
  live_lt := hinv.live_lt
  ids_nodup := hinv.ids_nodup
  ids_used := hinv.ids_used
  placed t' ht' := by
    obtain ⟨hstored, hopen⟩ := openTest_eq_some.mp ht'
    obtain rfl := Option.some.inj hstored
    exact hplaced hopen
  adopted t' id ht' := by
    obtain ⟨hstored, hopen⟩ := openTest_eq_some.mp ht'
    obtain rfl := Option.some.inj hstored
    exact hadopted hopen id
  settled t' id ht' := by
    obtain ⟨hstored, hopen⟩ := openTest_eq_some.mp ht'
    obtain rfl := Option.some.inj hstored
    exact hsettled hopen id

lemma Inv.finish (hinv : Inv w) (t : Test) (reason : String) : Inv (w.finish t reason) := by
  apply hinv.save
  · intro h
    cases h
  · intro h
    cases h
  · intro h
    cases h

lemma Inv.resave (hinv : Inv w) {t' : Test} (ht : w.openTest = some t) (hnumber : t'.number = t.number)
    (hinstrument : t'.instrumentId = t.instrumentId) (hposition : t'.positionId = t.positionId) :
    Inv (w.save t') := by
  apply hinv.save
  · intro _
    rw [hnumber, hinstrument]
    exact hinv.placed t ht
  · intro _ id hid
    rw [hnumber, hinstrument]
    exact hinv.adopted t id ht (hposition ▸ hid)
  · intro _ id hid
    rw [hnumber]
    exact hinv.settled t id ht (hposition ▸ hid)

lemma Inv.adopt (hinv : Inv w) {t' : Test} (ht : w.openTest = some t) (hp : p ∈ w.positions)
    (hmine : p.instrumentId = t.instrumentId) (htouched : (t.number, p.owner) ∈ w.touched)
    (hnumber : t'.number = t.number) (hinstrument : t'.instrumentId = t.instrumentId)
    (hposition : t'.positionId = some p.positionId) : Inv (w.save t') := by
  apply hinv.save
  · intro _
    rw [hnumber, hinstrument]
    exact hinv.placed t ht
  · intro _ id hid
    obtain rfl := Option.some.inj (hposition.symm.trans hid)
    refine ⟨hinv.ids_used p hp, ?_⟩
    intro q hq hqid
    obtain rfl := hinv.eq_of_id hq hp hqid
    rw [hnumber, hinstrument]
    exact ⟨hmine, htouched⟩
  · intro _ id hid hown
    obtain rfl := Option.some.inj (hposition.symm.trans hid)
    have howner : p.owner = some t.number := hown _ htouched
    rw [hnumber]
    refine ⟨hinv.not_pending hp howner, ?_⟩
    intro q hq hqowner
    rw [hinv.eq_of_owner hq hp hqowner howner]

section Ticks

variable {i : TickInput}

lemma held_spec (h : w.held t = some p) :
    p ∈ w.positions ∧ p.instrumentId = t.instrumentId ∧ t.positionId = some p.positionId := by
  obtain ⟨hmem, hinstrument⟩ := List.mem_filter.mp (List.mem_of_find?_eq_some h)
  have hid := List.find?_some h
  exact ⟨hmem, of_decide_eq_true hinstrument, (of_decide_eq_true hid).symm⟩

lemma adopts_spec (h : w.adopts t = some p) :
    p ∈ w.positions ∧ p.instrumentId = t.instrumentId ∧ t.positionId = none := by
  rw [adopts] at h
  by_cases hnone : t.positionId = none
  · rw [if_pos hnone] at h
    obtain ⟨hmem, hinstrument⟩ := List.mem_filter.mp (List.mem_of_mem_head? h)
    exact ⟨hmem, of_decide_eq_true hinstrument, hnone⟩
  · rw [if_neg hnone] at h
    cases h

def closing (w : World) (i : TickInput) (t : Test) (p : Position) : World :=
  { w.touch t p with
    positions := if i.closes then w.positions.filter (·.positionId ≠ p.positionId) else w.positions }

lemma shrinks_touch : Shrinks w (w.touch t p) :=
  ⟨rfl, List.Sublist.refl _, List.Sublist.refl _, rfl, rfl, List.subset_cons_self _ _⟩

lemma shrinks_closing : Shrinks w (w.closing i t p) where
  stored := rfl
  positions := by
    rw [closing]
    split_ifs
    · exact List.filter_sublist
    · exact List.Sublist.refl _
  pending := List.Sublist.refl _
  usedIds := rfl
  nextNumber := rfl
  touched := List.subset_cons_self _ _

lemma closePosition_cases (reason : String) :
    (i.close = .accepted ∧ w.closePosition i t p reason = (w.closing i t p).finish t reason) ∨
    (i.close = .failed ∧ (w.closing i t p).stillOpen i t.instrumentId = true ∧
      w.closePosition i t p reason = w.closing i t p) ∨
    (i.close = .failed ∧ (w.closing i t p).stillOpen i t.instrumentId = false ∧
      ∃ text, w.closePosition i t p reason = (w.closing i t p).finish t text) := by
  rw [closePosition, ← closing]
  cases hclose : i.close with
  | accepted => exact .inl ⟨rfl, if_pos rfl⟩
  | failed =>
    cases hopen : (w.closing i t p).stillOpen i t.instrumentId with
    | true => exact .inr (.inl ⟨rfl, rfl, by simp⟩)
    | false => exact .inr (.inr ⟨rfl, rfl, reason ++ "_closed_elsewhere", by simp⟩)

lemma Inv.closePosition (hinv : Inv w) (reason : String) : Inv (w.closePosition i t p reason) := by
  have hclosing := hinv.shrink (shrinks_closing (w := w) (i := i) (t := t) (p := p))
  rcases closePosition_cases (w := w) (i := i) (t := t) (p := p) reason with
    ⟨_, hafter⟩ | ⟨_, _, hafter⟩ | ⟨_, _, text, hafter⟩
  · exact hafter ▸ hclosing.finish t reason
  · exact hafter ▸ hclosing
  · exact hafter ▸ hclosing.finish t text

lemma Inv.watch (hinv : Inv w) (hsave : Inv (w.save { t with unseenReads := 0 })) : Inv (w.watch i t p) := by
  rw [World.watch]
  cases closeReason i t p with
  | none => exact hsave
  | some reason => exact hinv.closePosition reason

lemma monitor_unread (hread : ¬ i.readOk) : w.monitor i t = w := by
  rw [monitor, if_pos hread]

lemma monitor_held (hread : i.readOk) (hheld : w.held t = some p) : w.monitor i t = w.watch i t p := by
  rw [monitor, if_neg (not_not.mpr hread), hheld]

lemma monitor_adopts (hread : i.readOk) (hheld : w.held t = none) (hadopts : w.adopts t = some p) :
    w.monitor i t = (w.touch t p).watch i { t with positionId := some p.positionId } p := by
  rw [monitor, if_neg (not_not.mpr hread), hheld, hadopts]

lemma monitor_gone (hread : i.readOk) (hheld : w.held t = none) (hadopts : w.adopts t = none)
    (hid : t.positionId ≠ none) :
    w.monitor i t =
      if t.unseenReads + 1 < 2 then w.save { t with unseenReads := t.unseenReads + 1 }
      else w.finish { t with unseenReads := t.unseenReads + 1 } "closed_at_broker_by_stop_or_target" := by
  rw [monitor, if_neg (not_not.mpr hread), hheld, hadopts]
  exact if_pos hid

lemma monitor_unseen (hread : i.readOk) (hheld : w.held t = none) (hadopts : w.adopts t = none)
    (hid : t.positionId = none) :
    w.monitor i t =
      if t.openedAt < i.now - notFoundGrace then w.finish t "no_position_seen_order_likely_rejected" else w := by
  rw [monitor, if_neg (not_not.mpr hread), hheld, hadopts]
  exact if_neg (not_not.mpr hid)

lemma Inv.monitor (hinv : Inv w) (ht : w.openTest = some t) : Inv (w.monitor i t) := by
  by_cases hread : i.readOk
  · cases hheld : w.held t with
    | some p =>
      rw [monitor_held hread hheld]
      exact hinv.watch (hinv.resave ht rfl rfl rfl)
    | none =>
      cases hadopts : w.adopts t with
      | some p =>
        rw [monitor_adopts hread hheld hadopts]
        obtain ⟨hmem, hmine, _⟩ := adopts_spec hadopts
        have htouch := hinv.shrink (shrinks_touch (w := w) (t := t) (p := p))
        exact htouch.watch (htouch.adopt (p := p) ht hmem hmine List.mem_cons_self rfl rfl rfl)
      | none =>
        by_cases hid : t.positionId = none
        · rw [monitor_unseen hread hheld hadopts hid]
          split_ifs
          · exact hinv.finish _ _
          · exact hinv
        · rw [monitor_gone hread hheld hadopts hid]
          split_ifs
          · exact hinv.resave ht rfl rfl rfl
          · exact hinv.finish _ _
  · rw [monitor_unread hread]
    exact hinv

lemma prepare_ok {n : ℕ} {request : Request} (h : prepare i n request = .ok t) :
    t.number = n ∧ t.positionId = none ∧ t.status = .open := by
  unfold prepare at h
  cases hamount : request.amountUsd with
  | none =>
    rw [hamount] at h
    cases h
  | some asked =>
    rw [hamount] at h
    cases hinstrument : i.instrument with
    | none =>
      rw [hinstrument] at h
      simp only at h
      split_ifs at h
    | some instrument =>
      cases hatr : i.atr with
      | none =>
        rw [hinstrument, hatr] at h
        simp only at h
        split_ifs at h
      | some atr =>
        rw [hinstrument, hatr] at h
        simp only at h
        split_ifs at h <;> cases h <;> exact ⟨rfl, rfl, rfl⟩

lemma live_post (ht : t.number = w.nextNumber) :
    (w.post i t).live = if i.reaches then w.nextNumber :: w.live else w.live := by
  rw [live, post]
  by_cases hreaches : i.reaches
  · simp [hreaches, live, ht]
  · simp [hreaches, live]

lemma Inv.fail (hinv : Inv w) (reason : String) :
    Inv (({ w with request := none } : World).fail w.nextNumber reason) where
  live_nodup := hinv.live_nodup
  live_lt n hn := (hinv.live_lt n hn).trans (Nat.lt_succ_self _)
  ids_nodup := hinv.ids_nodup
  ids_used := hinv.ids_used
  placed t ht := by cases ht
  adopted t id ht := by cases ht
  settled t id ht := by cases ht

lemma openTest_post {t' : Test} (h : (w.post i t).openTest = some t') :
    t'.number = t.number ∧ t'.instrumentId = t.instrumentId ∧ t'.positionId = t.positionId := by
  obtain ⟨hstored, _⟩ := openTest_eq_some.mp h
  obtain rfl := Option.some.inj hstored
  cases i.post <;> exact ⟨rfl, rfl, rfl⟩

lemma Inv.post (hinv : Inv w) (hnumber : t.number = w.nextNumber) (hposition : t.positionId = none) :
    Inv (w.post i t) where
  live_nodup := by
    rw [live_post hnumber]
    split_ifs
    · exact List.nodup_cons.mpr ⟨fun hmem => lt_irrefl _ (hinv.live_lt _ hmem), hinv.live_nodup⟩
    · exact hinv.live_nodup
  live_lt n hn := by
    change n < t.number + 1
    rw [live_post hnumber] at hn
    rw [hnumber]
    split_ifs at hn
    · rcases List.mem_cons.mp hn with rfl | hold
      · exact Nat.lt_succ_self _
      · exact (hinv.live_lt n hold).trans (Nat.lt_succ_self _)
    · exact (hinv.live_lt n hn).trans (Nat.lt_succ_self _)
  ids_nodup := hinv.ids_nodup
  ids_used := hinv.ids_used
  placed t' ht' := by
    obtain ⟨hnum, hinst, _⟩ := openTest_post ht'
    rw [hnum, hinst, hnumber]
    constructor
    · intro x hx heq
      have hold : x ∈ w.pending → x.2 = t.instrumentId := fun hmem =>
        absurd (hinv.live_lt x.1 (mem_live.mpr (.inl (List.mem_map_of_mem hmem)))) (by rw [heq]; exact lt_irrefl _)
      change x ∈ (if i.reaches then (t.number, t.instrumentId) :: w.pending else w.pending) at hx
      split_ifs at hx
      · rcases List.mem_cons.mp hx with rfl | hmem
        · rfl
        · exact hold hmem
      · exact hold hx
    · intro p hp howner
      exact absurd (hinv.live_lt _ (mem_live.mpr (.inr ⟨p, hp, howner⟩))) (lt_irrefl _)
  adopted t' id ht' hid := by
    obtain ⟨_, _, hpos⟩ := openTest_post ht'
    cases (hpos.trans hposition).symm.trans hid
  settled t' id ht' hid := by
    obtain ⟨_, _, hpos⟩ := openTest_post ht'
    cases (hpos.trans hposition).symm.trans hid

lemma start_cases :
    (w.start i = w ∧ ∀ request t, w.request = some (some request) → prepare i w.nextNumber request ≠ .ok t) ∨
    ((∃ reason, w.start i = ({ w with request := none } : World).fail w.nextNumber reason) ∧
      ∀ request t, w.request = some (some request) → prepare i w.nextNumber request ≠ .ok t) ∨
    ∃ request t, w.request = some (some request) ∧ prepare i w.nextNumber request = .ok t ∧
      w.start i = ({ w with request := none } : World).post i t := by
  rw [start]
  cases hrequest : w.request with
  | none => exact .inl ⟨rfl, fun _ _ h => by cases h⟩
  | some raw =>
    cases raw with
    | none => exact .inr (.inl ⟨⟨_, rfl⟩, fun _ _ h => by cases h⟩)
    | some request =>
      cases hprepare : prepare i w.nextNumber request with
      | error reason =>
        refine .inr (.inl ⟨⟨reason, by simp [hprepare]⟩, ?_⟩)
        rintro request' t ⟨⟩ hok
        cases hprepare.symm.trans hok
      | ok t => exact .inr (.inr ⟨request, t, rfl, hprepare, by simp [hprepare]⟩)

lemma Inv.start (hinv : Inv w) : Inv (w.start i) := by
  rcases start_cases (w := w) (i := i) with
    ⟨hsame, _⟩ | ⟨⟨reason, hfail⟩, _⟩ | ⟨request, t, _, hprepare, hpost⟩
  · rw [hsame]
    exact hinv
  · rw [hfail]
    exact hinv.fail reason
  · obtain ⟨hnumber, hposition, _⟩ := prepare_ok hprepare
    have htaken : Inv { w with request := none } :=
      hinv.shrink ⟨rfl, List.Sublist.refl _, List.Sublist.refl _, rfl, rfl, List.Subset.refl _⟩
    rw [hpost]
    exact htaken.post hnumber hposition

lemma Inv.tick (hinv : Inv w) : Inv (w.tick i) := by
  rw [World.tick]
  cases ht : w.openTest with
  | none => exact hinv.start
  | some t => exact hinv.monitor ht

end Ticks

section Events

lemma perm_live_fill {number : ℕ} {instrumentId positionId : ℤ} (hasStop : Bool)
    (h : (number, instrumentId) ∈ w.pending ∧ positionId ∉ w.usedIds) :
    (w.step (.fill number instrumentId positionId hasStop)).live.Perm w.live := by
  have hpending := (List.perm_cons_erase h.1).map Prod.fst
  rw [live, live, step, if_pos h]
  exact List.perm_middle.trans (hpending.symm.append_right _)

def opened (w : World) (p : Position) (pending : List (ℕ × ℤ)) : World :=
  { w with pending := pending, positions := p :: w.positions, usedIds := p.positionId :: w.usedIds }

lemma Inv.opened {pending : List (ℕ × ℤ)} (hinv : Inv w) (hfresh : p.positionId ∉ w.usedIds)
    (howner : ∀ n, p.owner = some n → (n, p.instrumentId) ∈ w.pending) (hpending : pending.Sublist w.pending)
    (hnodup : (w.opened p pending).live.Nodup) (hlive : ∀ n ∈ (w.opened p pending).live, n ∈ w.live) :
    Inv (w.opened p pending) := by
  constructor
  · exact hnodup
  · exact fun n hn => hinv.live_lt n (hlive n hn)
  · refine List.nodup_cons.mpr ⟨?_, hinv.ids_nodup⟩
    intro hmem
    obtain ⟨old, hold, hid⟩ := List.mem_map.mp hmem
    exact hfresh (hid ▸ hinv.ids_used old hold)
  · intro q hq
    rcases List.mem_cons.mp hq with rfl | hold
    · exact List.mem_cons_self
    · exact List.mem_cons_of_mem _ (hinv.ids_used q hold)
  · intro t ht
    obtain ⟨hplaced, hpositions⟩ := hinv.placed t ht
    refine ⟨fun x hx => hplaced x (hpending.subset hx), ?_⟩
    intro q hq hown
    rcases List.mem_cons.mp hq with rfl | hold
    · exact hplaced _ (howner _ hown) rfl
    · exact hpositions q hold hown
  · intro t id ht hid
    obtain ⟨hidUsed, hpositions⟩ := hinv.adopted t id ht hid
    refine ⟨List.mem_cons_of_mem _ hidUsed, ?_⟩
    intro q hq hqid
    rcases List.mem_cons.mp hq with rfl | hold
    · exact absurd (hqid ▸ hidUsed) hfresh
    · exact hpositions q hold hqid
  · intro t id ht hid hown
    obtain ⟨hgone, hpositions⟩ := hinv.settled t id ht hid hown
    refine ⟨fun hmem => hgone ((hpending.map _).subset hmem), ?_⟩
    intro q hq howned
    rcases List.mem_cons.mp hq with rfl | hold
    · exact absurd (List.mem_map_of_mem (howner _ howned)) hgone
    · exact hpositions q hold howned

lemma Inv.foreign (hinv : Inv w) (positionId instrumentId : ℤ) (hasStop : Bool) :
    Inv (w.step (.foreign positionId instrumentId hasStop)) := by
  rw [step]
  split_ifs with hused
  · exact hinv
  · exact hinv.opened (p := ⟨positionId, instrumentId, hasStop, none⟩) hused nofun (List.Sublist.refl _)
      hinv.live_nodup fun n hn => hn

lemma Inv.fill (hinv : Inv w) (number : ℕ) (instrumentId positionId : ℤ) (hasStop : Bool) :
    Inv (w.step (.fill number instrumentId positionId hasStop)) := by
  by_cases hfill : (number, instrumentId) ∈ w.pending ∧ positionId ∉ w.usedIds
  swap
  · rw [step, if_neg hfill]
    exact hinv
  have hperm := perm_live_fill hasStop hfill
  obtain ⟨hplaced, hfresh⟩ := hfill
  rw [step, if_pos ⟨hplaced, hfresh⟩] at hperm ⊢
  refine hinv.opened (p := ⟨positionId, instrumentId, hasStop, some number⟩) hfresh ?_ List.erase_sublist
    (hperm.nodup_iff.mpr hinv.live_nodup) fun n => hperm.mem_iff.mp
  rintro n hn
  cases hn
  exact hplaced

lemma shrinks_ask (request : Option Request) : Shrinks w (w.step (.ask request)) :=
  ⟨rfl, List.Sublist.refl _, List.Sublist.refl _, rfl, rfl, List.Subset.refl _⟩

lemma shrinks_reject (number : ℕ) (instrumentId : ℤ) : Shrinks w (w.step (.reject number instrumentId)) :=
  ⟨rfl, List.Sublist.refl _, List.erase_sublist, rfl, rfl, List.Subset.refl _⟩

lemma shrinks_gone (positionId : ℤ) : Shrinks w (w.step (.gone positionId)) :=
  ⟨rfl, List.filter_sublist, List.Sublist.refl _, rfl, rfl, List.Subset.refl _⟩

lemma inv_step (w : World) (event : Event) (hinv : Inv w) : Inv (w.step event) := by
  cases event with
  | ask request => exact hinv.shrink (shrinks_ask request)
  | foreign positionId instrumentId hasStop => exact hinv.foreign positionId instrumentId hasStop
  | fill number instrumentId positionId hasStop => exact hinv.fill number instrumentId positionId hasStop
  | reject number instrumentId => exact hinv.shrink (shrinks_reject number instrumentId)
  | gone positionId => exact hinv.shrink (shrinks_gone positionId)
  | tick i => exact hinv.tick

end Events

def SoundClose (i : TickInput) (t : Test) (p : Position) : Prop :=
  (closeReason i t p).isSome → i.close = .accepted → i.closes = true

/-- What a tick may meet: a rejected order did not reach the broker; the position that is adopted is the
test's own; an accepted close closes; and no order of the test can still fill when its grace is over. -/
def Clear (w : World) : Event → Prop
  | .tick i =>
      match w.openTest with
      | none => ∀ request t, w.request = some (some request) → prepare i w.nextNumber request = .ok t →
          i.post = .rejected → i.reaches = false
      | some t =>
          i.readOk = true →
            match w.held t, w.adopts t with
            | some p, _ => SoundClose i t p
            | none, some p => p.owner = some t.number ∧ SoundClose i t p
            | none, none => t.positionId = none → t.openedAt < i.now - notFoundGrace →
                t.number ∉ w.pending.map Prod.fst
  | _ => True

section Guards

variable {i : TickInput}

lemma Guarded.of_shrinks (h : w.Guarded) (hshrinks : Shrinks w w') (htouched : w'.touched = w.touched) :
    w'.Guarded where
  one := (hshrinks.positions.filterMap _).length_le.trans h.one
  watched := hshrinks.watched h.watched
  own x hx := h.own x (htouched ▸ hx)

lemma Guarded.foreign (h : w.Guarded) (positionId instrumentId : ℤ) (hasStop : Bool) :
    (w.step (.foreign positionId instrumentId hasStop)).Guarded := by
  rw [step]
  split_ifs
  · exact h
  · exact ⟨h.one, h.watched, h.own⟩

lemma Guarded.fill (h : w.Guarded) (hinv : Inv w) (number : ℕ) (instrumentId positionId : ℤ) (hasStop : Bool) :
    (w.step (.fill number instrumentId positionId hasStop)).Guarded := by
  by_cases hfill : (number, instrumentId) ∈ w.pending ∧ positionId ∉ w.usedIds
  swap
  · rw [step, if_neg hfill]
    exact h
  have hperm := perm_live_fill hasStop hfill
  have hafter := hinv.fill number instrumentId positionId hasStop
  rw [guarded_iff hafter]
  rw [step, if_pos hfill] at hperm ⊢
  exact ⟨fun n hn => h.watched n (hperm.mem_iff.mp hn), h.own⟩

lemma watched_of_openTest (ht : w.openTest = some t) : w.Watched ↔ ∀ n ∈ w.live, n = t.number := by
  constructor
  · intro h n hn
    obtain ⟨t', ht', rfl⟩ := h n hn
    rw [Option.some.inj (ht.symm.trans ht')]
  · intro h n hn
    exact ⟨t, ht, (h n hn).symm⟩

lemma watched_of_no_test (ht : w.openTest = none) : w.Watched ↔ ∀ n, n ∉ w.live := by
  constructor
  · intro h n hn
    obtain ⟨t, ht', _⟩ := h n hn
    cases ht.symm.trans ht'
  · intro h n hn
    exact absurd hn (h n)

lemma watched_save (hlive : ∀ n ∈ w.live, n = t.number) (hstatus : t.status = .open) : (w.save t).Watched :=
  (watched_of_openTest (openTest_save.trans (if_pos hstatus))).mpr hlive

lemma watched_finish (hlive : ∀ n ∈ w.live, n = t.number) (reason : String) :
    (w.finish t reason).Watched ↔ t.number ∉ w.live := by
  have hclosed : (w.finish t reason).openTest = none := openTest_save.trans (if_neg (by simp))
  rw [watched_of_no_test hclosed]
  constructor
  · intro h
    exact h t.number
  · intro h n hn
    exact h (hlive n hn ▸ hn)

lemma number_mem_live : t.number ∈ w.live ↔
    t.number ∈ w.pending.map Prod.fst ∨ ∃ p ∈ w.positions, p.owner = some t.number := mem_live

lemma touched_closePosition (reason : String) :
    (w.closePosition i t p reason).touched = (t.number, p.owner) :: w.touched := by
  rcases closePosition_cases (w := w) (i := i) (t := t) (p := p) reason with
    ⟨_, hafter⟩ | ⟨_, _, hafter⟩ | ⟨_, _, text, hafter⟩ <;> rw [hafter] <;> rfl

lemma touched_watch : w.touched ⊆ (w.watch i t p).touched := by
  rw [watch]
  cases closeReason i t p with
  | none => exact List.Subset.refl _
  | some reason =>
    simp only [touched_closePosition]
    exact List.subset_cons_self _ _

lemma own_watch (howner : p.owner = some t.number) (hown : w.Own) : (w.watch i t p).Own := by
  intro x hx
  rw [watch] at hx
  cases hreason : closeReason i t p with
  | none =>
    rw [hreason] at hx
    exact hown x hx
  | some reason =>
    simp only [hreason, touched_closePosition] at hx
    rcases List.mem_cons.mp hx with rfl | hold
    · exact howner
    · exact hown x hold

lemma live_closing (hinv : Inv w) (hp : p ∈ w.positions) (howner : p.owner = some t.number) :
    t.number ∈ (w.closing i t p).live ↔ i.closes = false := by
  have hpending := hinv.not_pending hp howner
  rw [number_mem_live]
  cases hcloses : i.closes with
  | false =>
    refine ⟨fun _ => rfl, fun _ => .inr ⟨p, ?_, howner⟩⟩
    simp only [closing, hcloses]
    exact hp
  | true =>
    constructor
    · rintro (hmem | ⟨q, hq, hqowner⟩)
      · exact absurd hmem hpending
      · simp only [closing, hcloses, if_true] at hq
        obtain ⟨hqmem, hqid⟩ := List.mem_filter.mp hq
        have hsame := hinv.eq_of_owner hqmem hp hqowner howner
        exact absurd (congrArg Position.positionId hsame) (of_decide_eq_true hqid)
    · intro h
      cases h

lemma not_live_of_closed_elsewhere (hinv : Inv w) (hp : p ∈ w.positions) (howner : p.owner = some t.number)
    (hplaced : ∀ q ∈ w.positions, q.owner = some t.number → q.instrumentId = t.instrumentId)
    (hopen : (w.closing i t p).stillOpen i t.instrumentId = false) :
    t.number ∉ (w.closing i t p).live := by
  have hshrinks := shrinks_closing (w := w) (i := i) (t := t) (p := p)
  rw [number_mem_live]
  rintro (hmem | ⟨q, hq, hqowner⟩)
  · exact hinv.not_pending hp howner hmem
  · have hinstrument := hplaced q (hshrinks.positions.subset hq) hqowner
    rw [stillOpen, Bool.or_eq_false_iff, List.any_eq_false] at hopen
    exact hopen.2 q hq (decide_eq_true hinstrument)

lemma watched_watch (t' : Test) (hinv : Inv w) (ht : w.openTest = some t) (hwatched : w.Watched)
    (hp : p ∈ w.positions) (howner : p.owner = some t.number) (hnumber : t'.number = t.number)
    (hinstrument : t'.instrumentId = t.instrumentId) (hstatus : t'.status = .open) :
    (w.watch i t' p).Watched ↔ SoundClose i t' p := by
  have hlive := (watched_of_openTest ht).mp hwatched
  rw [watch, SoundClose]
  cases hreason : closeReason i t' p with
  | none =>
    have hsaved : (w.save { t' with unseenReads := 0 }).Watched :=
      watched_save (fun n hn => (hlive n hn).trans hnumber.symm) hstatus
    exact iff_of_true hsaved (fun h => absurd h (by simp))
  | some reason =>
    have hshrinks := shrinks_closing (w := w) (i := i) (t := t') (p := p)
    have hbefore : ∀ n ∈ (w.closing i t' p).live, n = t'.number :=
      fun n hn => (hlive n (hshrinks.live.subset hn)).trans hnumber.symm
    have hlive' := live_closing (i := i) hinv hp (hnumber ▸ howner)
    rcases closePosition_cases (w := w) (i := i) (t := t') (p := p) reason with
      ⟨hclose, hafter⟩ | ⟨hclose, _, hafter⟩ | ⟨hclose, hgone, text, hafter⟩
    · simp only [hafter, watched_finish hbefore, hlive', hclose]
      simp
    · simp only [hafter]
      exact iff_of_true (hshrinks.watched hwatched) (fun _ h => absurd (hclose.symm.trans h) (by simp))
    · have hplaced : ∀ q ∈ w.positions, q.owner = some t'.number → q.instrumentId = t'.instrumentId := by
        rw [hnumber, hinstrument]
        exact (hinv.placed t ht).2
      have hgone' := not_live_of_closed_elsewhere hinv hp (hnumber ▸ howner) hplaced hgone
      simp only [hafter, watched_finish hbefore]
      exact iff_of_true hgone' (fun _ h => absurd (hclose.symm.trans h) (by simp))

lemma Inv.owner_of_held (hinv : Inv w) (ht : w.openTest = some t) (hown : w.Own) (hheld : w.held t = some p) :
    p ∈ w.positions ∧ p.owner = some t.number := by
  obtain ⟨hp, _, hid⟩ := held_spec hheld
  obtain ⟨_, hpositions⟩ := hinv.adopted t p.positionId ht hid
  exact ⟨hp, hown _ (hpositions p hp rfl).2⟩

lemma Inv.not_live_of_gone (hinv : Inv w) (ht : w.openTest = some t) (hown : w.Own) (hheld : w.held t = none)
    (hid : t.positionId ≠ none) : t.number ∉ w.live := by
  obtain ⟨id, hsome⟩ := Option.ne_none_iff_exists'.mp hid
  obtain ⟨hpending, hpositions⟩ := hinv.settled t id ht hsome hown
  rw [number_mem_live]
  rintro (hmem | ⟨q, hq, hqowner⟩)
  · exact hpending hmem
  · have hqid := hpositions q hq hqowner
    have hmine : q ∈ w.mine t := List.mem_filter.mpr ⟨hq, decide_eq_true ((hinv.placed t ht).2 q hq hqowner)⟩
    exact List.find?_eq_none.mp hheld q hmine (decide_eq_true (by rw [hqid, hsome]))

lemma Inv.live_of_unseen (hinv : Inv w) (ht : w.openTest = some t) (hadopts : w.adopts t = none)
    (hid : t.positionId = none) : t.number ∈ w.live ↔ t.number ∈ w.pending.map Prod.fst := by
  rw [number_mem_live]
  refine ⟨?_, .inl⟩
  rintro (hmem | ⟨q, hq, hqowner⟩)
  · exact hmem
  · have hmine : q ∈ w.mine t := List.mem_filter.mpr ⟨hq, decide_eq_true ((hinv.placed t ht).2 q hq hqowner)⟩
    rw [adopts, if_pos hid, List.head?_eq_none_iff] at hadopts
    rw [hadopts] at hmine
    cases hmine

lemma guarded_monitor (hinv : Inv w) (h : w.Guarded) (ht : w.openTest = some t) :
    (w.monitor i t).Guarded ↔ w.Clear (.tick i) := by
  have hafter : Inv (w.monitor i t) := hinv.monitor ht
  have hlive := (watched_of_openTest ht).mp h.watched
  have hstatus := (openTest_eq_some.mp ht).2
  rw [guarded_iff hafter]
  simp only [Clear, ht]
  by_cases hread : i.readOk
  swap
  · rw [monitor_unread hread]
    exact iff_of_true ⟨h.watched, h.own⟩ (fun hr => absurd hr hread)
  cases hheld : w.held t with
  | some p =>
    obtain ⟨hp, howner⟩ := hinv.owner_of_held ht h.own hheld
    rw [monitor_held hread hheld, watched_watch t hinv ht h.watched hp howner rfl rfl hstatus]
    exact ⟨fun hboth _ => hboth.1, fun hsound => ⟨hsound hread, own_watch howner h.own⟩⟩
  | none =>
    cases hadopts : w.adopts t with
    | some p =>
      obtain ⟨hp, _, _⟩ := adopts_spec hadopts
      have hshrinks := shrinks_touch (w := w) (t := t) (p := p)
      have hcase (howner : p.owner = some t.number) :=
        watched_watch { t with positionId := some p.positionId } (i := i) (hinv.shrink hshrinks)
          (hshrinks.openTest.trans ht) (hshrinks.watched h.watched) hp howner rfl rfl hstatus
      rw [monitor_adopts hread hheld hadopts]
      constructor
      · intro hboth _
        have howner : p.owner = some t.number := hboth.2 _ (touched_watch List.mem_cons_self)
        exact ⟨howner, (hcase howner).mp hboth.1⟩
      · intro hclear
        obtain ⟨howner, hsound⟩ := hclear hread
        refine ⟨(hcase howner).mpr hsound, own_watch howner ?_⟩
        intro x hx
        rcases List.mem_cons.mp hx with rfl | hold
        · exact howner
        · exact h.own x hold
    | none =>
      by_cases hid : t.positionId = none
      · rw [monitor_unseen hread hheld hadopts hid]
        split_ifs with hgrace
        · rw [watched_finish hlive, hinv.live_of_unseen ht hadopts hid]
          exact ⟨fun hboth _ _ _ => hboth.1, fun hclear => ⟨hclear hread hid hgrace, h.own⟩⟩
        · exact iff_of_true ⟨h.watched, h.own⟩ (fun _ _ hover => absurd hover hgrace)
      · rw [monitor_gone hread hheld hadopts hid]
        have hnone := hinv.not_live_of_gone ht h.own hheld hid
        refine iff_of_true ?_ (fun _ hn => absurd hn hid)
        split_ifs
        · exact ⟨watched_save hlive hstatus, h.own⟩
        · exact ⟨(watched_finish (t := { t with unseenReads := t.unseenReads + 1 }) hlive _).mpr hnone, h.own⟩

lemma watched_post (hnone : ∀ n, n ∉ w.live) (hnumber : t.number = w.nextNumber) (hstatus : t.status = .open) :
    (w.post i t).Watched ↔ (i.post = .rejected → i.reaches = false) := by
  have hlive : ∀ n, n ∈ (w.post i t).live ↔ i.reaches = true ∧ n = t.number := by
    intro n
    rw [live_post hnumber]
    by_cases hreaches : i.reaches <;> simp [hreaches, hnone n, hnumber]
  by_cases hrejected : i.post = .rejected
  · have hno : (w.post i t).openTest = none := by simp [openTest, World.post, hrejected]
    rw [watched_of_no_test hno]
    simp [hlive, hrejected]
  · have hopen : ∃ t', (w.post i t).openTest = some t' ∧ t'.number = t.number := by
      have hsaved (t' : Test) (hsame : (w.post i t).stored = some t') (hopen : t'.status = .open)
          (hnumber : t'.number = t.number) : ∃ t', (w.post i t).openTest = some t' ∧ t'.number = t.number :=
        ⟨t', openTest_eq_some.mpr ⟨hsame, hopen⟩, hnumber⟩
      cases hpost : i.post with
      | rejected => exact absurd hpost hrejected
      | accepted orderId => exact hsaved { t with orderId := orderId } (by simp only [World.post, hpost]) hstatus rfl
      | uncertain => exact hsaved { t with uncertain := true } (by simp only [World.post, hpost]) hstatus rfl
      | crashed => exact hsaved t (by simp only [World.post, hpost]) hstatus rfl
    obtain ⟨t', ht', hsame⟩ := hopen
    rw [watched_of_openTest ht', hsame]
    exact iff_of_true (fun n hn => ((hlive n).mp hn).2) (fun h => absurd h hrejected)

lemma guarded_start (hinv : Inv w) (h : w.Guarded) (ht : w.openTest = none) :
    (w.start i).Guarded ↔ w.Clear (.tick i) := by
  have hnone := (watched_of_no_test ht).mp h.watched
  rw [guarded_iff hinv.start]
  simp only [Clear, ht]
  rcases start_cases (w := w) (i := i) with
    ⟨hsame, hnot⟩ | ⟨⟨reason, hfail⟩, hnot⟩ | ⟨request, t, hrequest, hprepare, hpost⟩
  · rw [hsame]
    refine iff_of_true ⟨h.watched, h.own⟩ ?_
    exact fun request t hrequest hprepare => absurd hprepare (hnot request t hrequest)
  · rw [hfail]
    refine iff_of_true ⟨(watched_of_no_test rfl).mpr hnone, h.own⟩ ?_
    exact fun request t hrequest hprepare => absurd hprepare (hnot request t hrequest)
  · obtain ⟨hnumber, _, hstatus⟩ := prepare_ok hprepare
    have honly : (∀ request' t', w.request = some (some request') → prepare i w.nextNumber request' = .ok t' →
        i.post = .rejected → i.reaches = false) ↔ (i.post = .rejected → i.reaches = false) :=
      ⟨fun hall => hall request t hrequest hprepare, fun hone _ _ _ _ => hone⟩
    have hposted := watched_post (w := { w with request := none }) (i := i) hnone hnumber hstatus
    rw [hpost, honly, hposted]
    exact and_iff_left h.own

lemma guarded_step (w : World) (event : Event) (hinv : Inv w) (h : w.Guarded) :
    (w.step event).Guarded ↔ w.Clear event := by
  cases event with
  | ask request => exact iff_of_true (h.of_shrinks (shrinks_ask request) rfl) trivial
  | reject number instrumentId => exact iff_of_true (h.of_shrinks (shrinks_reject number instrumentId) rfl) trivial
  | gone positionId => exact iff_of_true (h.of_shrinks (shrinks_gone positionId) rfl) trivial
  | foreign positionId instrumentId hasStop => exact iff_of_true (h.foreign positionId instrumentId hasStop) trivial
  | fill number instrumentId positionId hasStop =>
    exact iff_of_true (h.fill hinv number instrumentId positionId hasStop) trivial
  | tick i =>
    change (w.tick i).Guarded ↔ _
    rw [tick]
    cases ht : w.openTest with
    | none => exact guarded_start hinv h ht
    | some t => exact guarded_monitor hinv h ht

end Guards

lemma inv_empty : Inv {} := by
  constructor <;> simp [live, openTest]

lemma guarded_empty : Guarded {} := by
  constructor <;> simp [live, Watched, Own]

def eth : Instrument := { instrumentId := 100001, currentRate := 2500 }

def placing : TickInput := { now := 0, instrument := some eth, atr := some 50, post := .uncertain }

-- The post times out, a tick after the grace finds no position, and then the order fills.
def lateFill : List Event :=
  [.ask (some ⟨"ETH", some 200⟩), .tick placing, .tick { now := 31 * Utils.Time.microsPerMinute },
    .fill 0 100001 7 true]

end World

end AlgoTrader.Broker.TestOrder
