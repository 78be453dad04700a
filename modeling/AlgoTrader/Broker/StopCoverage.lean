import AlgoTrader.Broker.EtoroLive

/-! The backup stops over whole runs. An unfinished copy keeps its intended stop recorded, and a check
sends a close for each of its lots at or below the stop, in every run whose steps stay clear of the
ways the code loses one: an order still queued after the grace period, a second copy of a symbol that
is no longer counted open, an order taken back although it may be filled, and closes that do not all
go out and take effect. -/

namespace AlgoTrader.Broker.Etoro

open AlgoTrader.Utils.Time
open AlgoTrader.Models

section Check

variable {instrumentOf : String → ℕ} {check : StopCheck} {now : Timestamp} {lots : List Position}
variable {symbol : String} {info : StopInfo} {id : ℕ}

lemma checkStop_unlocated (h : instrumentFor instrumentOf check symbol info = none) :
    checkStop instrumentOf check now lots symbol info = { kept := some info } := by
  rw [checkStop, h]

lemma checkStop_queued (hid : instrumentFor instrumentOf check symbol info = some id)
    (hheld : heldLots lots id = []) (hseen : info.seen = false)
    (hfresh : now - unseenGraceMinutes * microsPerMinute < info.recordedAt) :
    checkStop instrumentOf check now lots symbol info =
      { kept := some { info with instrumentId := some id } } := by
  rw [checkStop, hid]
  dsimp only
  rw [if_pos hheld, if_pos (by simp [hseen, hfresh])]

lemma checkStop_above (hid : instrumentFor instrumentOf check symbol info = some id)
    (hheld : heldLots lots id ≠ []) (hrate : (check.freshRate symbol).any (· ≤ info.stop) = false) :
    checkStop instrumentOf check now lots symbol info =
      { kept := some { info with instrumentId := some id, seen := true } } := by
  rw [checkStop, hid]
  dsimp only
  rw [if_neg hheld]
  cases hfresh : check.freshRate symbol with
  | none => rfl
  | some rate =>
    rw [hfresh] at hrate
    dsimp only
    rw [if_pos (by simpa using hrate)]

lemma checkStop_reached (hid : instrumentFor instrumentOf check symbol info = some id)
    (hheld : heldLots lots id ≠ []) (hrate : (check.freshRate symbol).any (· ≤ info.stop) = true) :
    checkStop instrumentOf check now lots symbol info =
      closeAtStop check lots symbol id { info with instrumentId := some id, seen := true } := by
  rw [checkStop, hid]
  dsimp only
  rw [if_neg hheld]
  cases hfresh : check.freshRate symbol with
  | none =>
    rw [hfresh] at hrate
    cases hrate
  | some rate =>
    rw [hfresh] at hrate
    dsimp only
    rw [if_neg (by simpa using hrate)]

end Check

def allGoOut : List Attempt → Bool
  | [] => true
  | [attempt] => attempt.sent
  | attempt :: next :: rest => attempt.answered && allGoOut (next :: rest)

def closesTakeEffect (attempts : List Attempt) : Bool :=
  allGoOut attempts && (!attempts.all (·.answered) || attempts.all (·.effective))

lemma sent_of_answered {attempt : Attempt} (h : attempt.answered = true) : attempt.sent = true := by
  cases attempt with
  | notSent failure => cases h
  | posted reply => rfl

lemma closeLots_cons (answer : ℕ → Attempt) (lot : Position) (rest : List Position)
    (h : (answer lot.positionId).answered = true) :
    closeLots answer (lot :: rest) =
      { closeLots answer rest with sent := lot.positionId :: (closeLots answer rest).sent } := by
  rw [closeLots, if_pos (sent_of_answered h)]
  cases hresult : (answer lot.positionId).result with
  | error failure =>
    rw [Attempt.answered, hresult] at h
    cases h
  | ok status => rfl

lemma closeLots_sent (answer : ℕ → Attempt) (lots : List Position)
    (h : allGoOut (lots.map fun lot => answer lot.positionId) = true) :
    (closeLots answer lots).sent = lots.map (·.positionId) := by
  induction lots with
  | nil => rfl
  | cons lot rest ih =>
    cases rest with
    | nil =>
      have hsent : (answer lot.positionId).sent = true := h
      rw [closeLots, if_pos hsent]
      cases (answer lot.positionId).result <;> rfl
    | cons next others =>
      rw [List.map_cons, List.map_cons, allGoOut, Bool.and_eq_true] at h
      rw [closeLots_cons answer lot _ h.1, List.map_cons]
      exact congrArg _ (ih h.2)

lemma closeLots_answered (answer : ℕ → Attempt) (lots : List Position)
    (h : (closeLots answer lots).failure = none) :
    (lots.map fun lot => answer lot.positionId).all (·.answered) = true := by
  induction lots with
  | nil => rfl
  | cons lot rest ih =>
    cases hanswered : (answer lot.positionId).answered with
    | true =>
      rw [closeLots_cons answer lot rest hanswered] at h
      rw [List.map_cons, List.all_cons, hanswered, Bool.true_and]
      exact ih h
    | false =>
      rw [closeLots] at h
      cases hresult : (answer lot.positionId).result with
      | error failure =>
        rw [hresult] at h
        cases h
      | ok status =>
        rw [Attempt.answered, hresult] at hanswered
        cases hanswered

section Clear

variable (instrumentOf : String → ℕ) (world : World)

def located (check : StopCheck) (symbol : String) : Bool :=
  ((world.store.stops.lookup symbol).bind (instrumentFor instrumentOf check symbol)).isSome

/-- A queued order is within the grace period and its instrument shows no other position; a position
at or below its stop is found, and the closes of its instrument's lots go out and take effect. -/
def clearOfLoss (check : StopCheck) (now : Timestamp) (lots : List Position) (copy : Copy) : Prop :=
  let inInstrument := heldLots lots (instrumentOf copy.symbol)
  (copy.phase = .queued → copy.lots instrumentOf lots = [] →
    located instrumentOf world check copy.symbol = true →
      inInstrument = [] ∧ now - unseenGraceMinutes * microsPerMinute < copy.recordedAt) ∧
  (copy.lots instrumentOf lots ≠ [] → copy.stopReached check = true →
    located instrumentOf world check copy.symbol = true ∧
      closesTakeEffect (inInstrument.map fun lot => check.closeAnswer lot.positionId) = true)

def keepsStops : Action → Prop
  | .copy _ input =>
      (∀ copy ∈ world.copies, copy.unfinished → copy.symbol = orderSymbol input →
        orderSymbol input ∈ effectiveOpenSymbols world.store world.store.mirror) ∧
      (input.attempt.possiblyFilled = true → input.attempt.undone = false)
  | .check toRead _ check =>
      ∀ lots ∈ check.read.usable check.clientUsable, ∀ copy ∈ world.copies, copy.unfinished →
        clearOfLoss instrumentOf world check (world.clock + toRead) lots copy
  | _ => True

instance (check : StopCheck) (now : Timestamp) (lots : List Position) (copy : Copy) :
    Decidable (clearOfLoss instrumentOf world check now lots copy) :=
  inferInstanceAs (Decidable (_ ∧ _))

instance : ∀ action, Decidable (keepsStops instrumentOf world action)
  | .copy _ input => inferInstanceAs (Decidable ((∀ copy ∈ world.copies, copy.unfinished →
      copy.symbol = orderSymbol input →
        orderSymbol input ∈ effectiveOpenSymbols world.store world.store.mirror) ∧
      (input.attempt.possiblyFilled = true → input.attempt.undone = false)))
  | .check toRead _ check => inferInstanceAs (Decidable (
      ∀ lots ∈ check.read.usable check.clientUsable, ∀ copy ∈ world.copies, copy.unfinished →
        clearOfLoss instrumentOf world check (world.clock + toRead) lots copy))
  | .reconcile _ _ _ => inferInstanceAs (Decidable True)
  | .updateScorecard _ _ => inferInstanceAs (Decidable True)
  | .clearHalt => inferInstanceAs (Decidable True)

end Clear

/-- The recorded entry is the copy's own, and has been marked seen only once the copy was held. -/
structure Covers (instrumentOf : String → ℕ) (stops : Stops) (copy : Copy) (info : StopInfo) :
    Prop where
  recorded : stops.lookup copy.symbol = some info
  stop : copy.order.stopLoss = some info.stop
  recordedAt : info.recordedAt = copy.recordedAt
  seen : info.seen = true → copy.phase = .held
  instrument : truthyId info.instrumentId = none ∨
    truthyId info.instrumentId = some (instrumentOf copy.symbol)

def Covered (instrumentOf : String → ℕ) (stops : Stops) (copy : Copy) : Prop :=
  copy.unfinished → ∃ info, Covers instrumentOf stops copy info

section Coverage

variable {instrumentOf : String → ℕ} {stops : Stops} {copy : Copy} {info : StopInfo}

lemma Covers.instrument_eq (h : Covers instrumentOf stops copy info) {check : StopCheck} {id : ℕ}
    (hid : instrumentFor instrumentOf check copy.symbol info = some id) :
    id = instrumentOf copy.symbol := by
  rw [instrumentFor] at hid
  cases h.instrument with
  | inl hnone =>
    rw [hnone, Option.none_or] at hid
    split_ifs at hid
    exact (Option.some.inj hid).symm
  | inr hsome =>
    rw [hsome, Option.some_or] at hid
    exact (Option.some.inj hid).symm

variable (instrumentOf) in
lemma observe_order (lots : List Position) (copy : Copy) :
    (copy.observe instrumentOf lots).order = copy.order ∧
      (copy.observe instrumentOf lots).recordedAt = copy.recordedAt := by
  rw [Copy.observe]
  split <;> exact ⟨rfl, rfl⟩

lemma unfinished_of_observe {lots : List Position}
    (h : (copy.observe instrumentOf lots).unfinished) : copy.unfinished := by
  intro hfinished
  apply h
  rw [Copy.observe, hfinished]
  exact hfinished

-- A held copy that a read leaves unfinished is still held.
lemma held_of_observe {lots : List Position} (h : (copy.observe instrumentOf lots).unfinished)
    (hheld : copy.phase = .held) :
    (copy.observe instrumentOf lots).phase = .held ∧ copy.lots instrumentOf lots ≠ [] := by
  rw [Copy.observe] at h ⊢
  rw [hheld] at h ⊢
  cases hlots : copy.lots instrumentOf lots with
  | nil =>
    rw [hlots] at h
    exact absurd rfl h
  | cons lot rest => exact ⟨hheld, List.cons_ne_nil _ _⟩

lemma Covered.observe (h : Covered instrumentOf stops copy) (lots : List Position) :
    Covered instrumentOf stops (copy.observe instrumentOf lots) := by
  intro hunfinished
  obtain ⟨info, hinfo⟩ := h (unfinished_of_observe hunfinished)
  obtain ⟨horder, hrecorded⟩ := observe_order instrumentOf lots copy
  refine ⟨info, ?_⟩
  have hsymbol : (copy.observe instrumentOf lots).symbol = copy.symbol := by
    rw [Copy.symbol, horder, Copy.symbol]
  exact
    { recorded := by rw [hsymbol, hinfo.recorded]
      stop := by rw [horder, hinfo.stop]
      recordedAt := by rw [hrecorded, hinfo.recordedAt]
      seen := fun hseen => (held_of_observe hunfinished (hinfo.seen hseen)).1
      instrument := by rw [hsymbol]; exact hinfo.instrument }

lemma Covered.observeReads (h : Covered instrumentOf stops copy) (reads : List (List Position)) :
    Covered instrumentOf stops (copy.observeReads instrumentOf reads) := by
  induction reads generalizing copy with
  | nil => exact h
  | cons lots rest ih => exact ih (h.observe lots)

end Coverage

lemma truthyId_or (first second : Option ℕ) :
    truthyId ((truthyId first).or second) = (truthyId first).or (truthyId second) := by
  rcases first with _ | _ | id <;> rfl

lemma truthyId_some (id : ℕ) : truthyId (some id) = none ∨ truthyId (some id) = some id := by
  cases id with
  | zero => exact .inl rfl
  | succ id => exact .inr rfl

section Pass

variable {instrumentOf : String → ℕ} {check : StopCheck} {now : Timestamp} {lots : List Position}
variable {stops : Stops} {symbol : String} {info : StopInfo}

lemma lookup_checkBackupStops (hlots : check.read.usable check.clientUsable = some lots)
    (hentry : stops.lookup symbol = some info) :
    (checkBackupStops instrumentOf check now stops).stops.lookup symbol =
      (checkStop instrumentOf check now lots symbol info).kept.map (mergeInfo info) := by
  rw [checkBackupStops, hlots]
  dsimp only
  rw [Records.lookup_rewrite, hentry, Option.bind_some]

lemma sent_checkBackupStops (hlots : check.read.usable check.clientUsable = some lots)
    (hentry : stops.lookup symbol = some info) {id : ℕ}
    (hid : id ∈ (checkStop instrumentOf check now lots symbol info).sent) :
    id ∈ (checkBackupStops instrumentOf check now stops).sent := by
  rw [checkBackupStops, hlots]
  exact List.mem_flatMap.mpr ⟨⟨symbol, info⟩, AList.mem_lookup_iff.mp hentry, hid⟩

lemma closedElsewhere_checkBackupStops (hlots : check.read.usable check.clientUsable = some lots)
    (hentry : stops.lookup symbol = some info)
    (hgone : (checkStop instrumentOf check now lots symbol info).closedElsewhere = true) :
    symbol ∈ (checkBackupStops instrumentOf check now stops).closedElsewhere := by
  rw [checkBackupStops, hlots]
  exact List.mem_map.mpr
    ⟨⟨symbol, info⟩, List.mem_filter.mpr ⟨AList.mem_lookup_iff.mp hentry, hgone⟩, rfl⟩

variable (check lots symbol) in
/-- The entry survives a closing pass unless every call returned or the instrument is gone. -/
lemma closeAtStop_cases (id : ℕ) (info : StopInfo) :
    (closeAtStop check lots symbol id info).kept = some info ∨
      (closeLots check.closeAnswer (heldLots lots id)).failure = none ∨
      ((closeAtStop check lots symbol id info).closedElsewhere = true ∧
        stillOpen id (check.reread symbol) = false) := by
  simp only [closeAtStop]
  cases hfailure : (closeLots check.closeAnswer (heldLots lots id)).failure with
  | none => exact .inr (.inl rfl)
  | some failure =>
    dsimp only
    split_ifs with hlimit hstill
    · exact .inl rfl
    · exact .inl rfl
    · exact .inr (.inr ⟨rfl, Bool.eq_false_iff.mpr hstill⟩)

lemma closeAtStop_sent (id : ℕ) (info : StopInfo) :
    (closeAtStop check lots symbol id info).sent =
      (closeLots check.closeAnswer (heldLots lots id)).sent := by
  unfold closeAtStop
  dsimp only
  split
  · rfl
  · split_ifs <;> rfl

end Pass

section CopyCheck

variable {instrumentOf : String → ℕ} {check : StopCheck} {now : Timestamp} {lots : List Position}
variable {world : World} {copy : Copy} {info : StopInfo}

lemma mem_heldLots_of_lots {lot : Position} (h : lot ∈ copy.lots instrumentOf lots) :
    lot ∈ heldLots lots (instrumentOf copy.symbol) := by
  rw [Copy.lots] at h
  have hlot := List.mem_filter.mp h
  exact List.mem_filter.mpr ⟨hlot.1, decide_eq_true (of_decide_eq_true hlot.2).2⟩

lemma Covers.reached (h : Covers instrumentOf world.store.stops copy info) :
    copy.stopReached check = (check.freshRate copy.symbol).any (· ≤ info.stop) := by
  rw [Copy.stopReached, h.stop, Option.any_some]

lemma Covers.find (h : Covers instrumentOf world.store.stops copy info)
    (hlocated : located instrumentOf world check copy.symbol = true) :
    instrumentFor instrumentOf check copy.symbol info = some (instrumentOf copy.symbol) := by
  rw [located] at hlocated
  rw [h.recorded, Option.bind_some] at hlocated
  obtain ⟨id, hid⟩ := Option.isSome_iff_exists.mp hlocated
  rw [hid, h.instrument_eq hid]

lemma Covers.sends (h : Covers instrumentOf world.store.stops copy info)
    (hlots : check.read.usable check.clientUsable = some lots)
    (hclear : clearOfLoss instrumentOf world check now lots copy)
    (hreached : copy.stopReached check = true) {lot : Position}
    (hlot : lot ∈ copy.lots instrumentOf lots) :
    lot.positionId ∈ (checkBackupStops instrumentOf check now world.store.stops).sent := by
  have hown := List.ne_nil_of_mem hlot
  obtain ⟨hlocated, hcloses⟩ := hclear.2 hown hreached
  have hheld := mem_heldLots_of_lots hlot
  apply sent_checkBackupStops hlots h.recorded
  rw [checkStop_reached (h.find hlocated) (List.ne_nil_of_mem hheld) (h.reached ▸ hreached),
    closeAtStop_sent]
  rw [closesTakeEffect] at hcloses
  rw [closeLots_sent _ _ (Bool.and_eq_true_iff.mp hcloses).1]
  exact List.mem_map_of_mem hheld

lemma Covers.closed (h : Covers instrumentOf world.store.stops copy info)
    (hlots : check.read.usable check.clientUsable = some lots)
    (hclear : clearOfLoss instrumentOf world check now lots copy)
    (hreached : copy.stopReached check = true) (hown : copy.lots instrumentOf lots ≠ [])
    (hnone : (closeLots check.closeAnswer (heldLots lots (instrumentOf copy.symbol))).failure = none) :
    copy.closedBy instrumentOf check (checkBackupStops instrumentOf check now world.store.stops)
      lots = true := by
  have hcloses := (hclear.2 hown hreached).2
  have hall := closeLots_answered _ _ hnone
  rw [closesTakeEffect] at hcloses
  rw [hall, Bool.not_true, Bool.false_or] at hcloses
  have heffective := List.all_eq_true.mp (Bool.and_eq_true_iff.mp hcloses).2
  rw [Copy.closedBy, Bool.or_eq_true]
  left
  rw [List.all_eq_true]
  intro lot hlot
  have heffect := heffective _ (List.mem_map_of_mem (mem_heldLots_of_lots hlot))
  exact decide_eq_true ⟨h.sends hlots hclear hreached hlot, heffect⟩

lemma closedBy_of_gone (hlots : check.read.usable check.clientUsable = some lots)
    (hentry : world.store.stops.lookup copy.symbol = some info)
    (hgone : (checkStop instrumentOf check now lots copy.symbol info).closedElsewhere = true)
    (hopen : stillOpen (instrumentOf copy.symbol) (check.reread copy.symbol) = false) :
    copy.closedBy instrumentOf check (checkBackupStops instrumentOf check now world.store.stops)
      lots = true := by
  rw [Copy.closedBy, hopen, Bool.not_false, Bool.and_true, Bool.or_eq_true]
  right
  exact decide_eq_true (closedElsewhere_checkBackupStops hlots hentry hgone)

-- Without a lot of its own only a queued copy is left unfinished by the read.
lemma queued_of_no_lots (hunfinished : (copy.observe instrumentOf lots).unfinished)
    (hown : copy.lots instrumentOf lots = []) : copy.phase = .queued := by
  cases hphase : copy.phase with
  | queued => rfl
  | held => exact absurd hown (held_of_observe hunfinished hphase).2
  | finished => exact absurd hphase (unfinished_of_observe hunfinished)

lemma held_of_lots (hunfinished : copy.unfinished) (hown : copy.lots instrumentOf lots ≠ []) :
    (copy.observe instrumentOf lots).phase = .held := by
  obtain ⟨lot, rest, hlots⟩ := List.exists_cons_of_ne_nil hown
  cases hphase : copy.phase with
  | queued =>
    rw [Copy.observe, hphase, hlots]
  | held =>
    rw [Copy.observe, hphase, hlots]
    exact hphase
  | finished => exact absurd hphase hunfinished

lemma Covers.kept (h : Covers instrumentOf world.store.stops copy info)
    (hlots : check.read.usable check.clientUsable = some lots)
    (hclear : clearOfLoss instrumentOf world check now lots copy)
    (hunfinished : (copy.observe instrumentOf lots).unfinished)
    (hopen : (copy.observe instrumentOf lots).phase = .held →
      copy.closedBy instrumentOf check (checkBackupStops instrumentOf check now world.store.stops)
        lots = false) :
    ∃ kept, (checkStop instrumentOf check now lots copy.symbol info).kept = some kept ∧
      (kept.seen = true → (copy.observe instrumentOf lots).phase = .held) ∧
      (kept.instrumentId = info.instrumentId ∨
        kept.instrumentId = some (instrumentOf copy.symbol)) := by
  cases hid : instrumentFor instrumentOf check copy.symbol info with
  | none =>
    rw [checkStop_unlocated hid]
    exact ⟨info, rfl, fun hseen => (held_of_observe hunfinished (h.seen hseen)).1, .inl rfl⟩
  | some id =>
    have hsame := h.instrument_eq hid
    subst hsame
    have hlocated : located instrumentOf world check copy.symbol = true := by
      rw [located, h.recorded, Option.bind_some, hid, Option.isSome_some]
    by_cases hown : copy.lots instrumentOf lots = []
    · have hqueued := queued_of_no_lots hunfinished hown
      obtain ⟨hheld, hfresh⟩ := hclear.1 hqueued hown hlocated
      have hseen : info.seen = false := by
        cases hinfo : info.seen with
        | false => rfl
        | true =>
          rw [h.seen hinfo] at hqueued
          cases hqueued
      rw [checkStop_queued hid hheld hseen (h.recordedAt ▸ hfresh)]
      refine ⟨_, rfl, fun hkept => ?_, .inr rfl⟩
      rw [hseen] at hkept
      cases hkept
    · have hphase := held_of_lots (unfinished_of_observe hunfinished) hown
      have hheld : heldLots lots (instrumentOf copy.symbol) ≠ [] := by
        obtain ⟨lot, hlot⟩ := List.exists_mem_of_ne_nil _ hown
        exact List.ne_nil_of_mem (mem_heldLots_of_lots hlot)
      cases hreached : (check.freshRate copy.symbol).any (· ≤ info.stop) with
      | false =>
        rw [checkStop_above hid hheld hreached]
        exact ⟨_, rfl, fun _ => hphase, .inr rfl⟩
      | true =>
        have hstop : checkStop instrumentOf check now lots copy.symbol info = _ :=
          checkStop_reached hid hheld hreached
        rw [hstop]
        rcases closeAtStop_cases check lots copy.symbol _ _ with hkept | hnone | ⟨hgone, hstill⟩
        · exact ⟨_, hkept, fun _ => hphase, .inr rfl⟩
        · have hclosed := h.closed hlots hclear (h.reached.trans hreached) hown hnone
          rw [hopen hphase] at hclosed
          cases hclosed
        · have hclosed := closedBy_of_gone hlots h.recorded (hstop ▸ hgone) hstill
          rw [hopen hphase] at hclosed
          cases hclosed

lemma Covered.afterCheck (h : Covered instrumentOf world.store.stops copy)
    (hlots : check.read.usable check.clientUsable = some lots)
    (hclear : copy.unfinished → clearOfLoss instrumentOf world check now lots copy) :
    Covered instrumentOf (checkBackupStops instrumentOf check now world.store.stops).stops
      (copy.afterCheck instrumentOf check
        (checkBackupStops instrumentOf check now world.store.stops) lots) := by
  unfold Copy.afterCheck
  dsimp only
  split_ifs with hclosed
  · exact fun hunfinished => absurd rfl hunfinished
  · intro hunfinished
    have hbefore := unfinished_of_observe hunfinished
    obtain ⟨info, hinfo⟩ := h hbefore
    have hopen : (copy.observe instrumentOf lots).phase = .held → copy.closedBy instrumentOf check
        (checkBackupStops instrumentOf check now world.store.stops) lots = false :=
      fun hheld => Bool.eq_false_iff.mpr fun hby => hclosed ⟨hheld, hby⟩
    obtain ⟨kept, hkept, hseen, hid⟩ := hinfo.kept hlots (hclear hbefore) hunfinished hopen
    obtain ⟨horder, hrecorded⟩ := observe_order instrumentOf lots copy
    have hsymbol : (copy.observe instrumentOf lots).symbol = copy.symbol := by
      rw [Copy.symbol, horder, Copy.symbol]
    refine ⟨mergeInfo info kept, ?_⟩
    exact
      { recorded := by
          rw [hsymbol, lookup_checkBackupStops hlots hinfo.recorded, hkept, Option.map_some]
        stop := by rw [horder, hinfo.stop]; rfl
        recordedAt := by rw [hrecorded, ← hinfo.recordedAt]; rfl
        seen := by
          intro hmerged
          rcases Bool.or_eq_true_iff.mp hmerged with hnew | hold
          · exact hseen hnew
          · exact (held_of_observe hunfinished (hinfo.seen hold)).1
        instrument := by
          rw [hsymbol]
          change truthyId ((truthyId kept.instrumentId).or info.instrumentId) = none ∨
            truthyId ((truthyId kept.instrumentId).or info.instrumentId) = _
          rw [truthyId_or]
          rcases hid with hsame | hfound
          · rw [hsame, Option.or_self]
            exact hinfo.instrument
          · rw [hfound]
            rcases truthyId_some (instrumentOf copy.symbol) with hzero | hid
            · rw [hzero, Option.none_or]
              exact hinfo.instrument
            · rw [hid, Option.some_or]
              exact .inr rfl }

end CopyCheck

section Submit

variable (store : Store) (input : CopyInput) (times : CopyTimes) (prepared : Prepared)

lemma orderSymbol_toUpper : (orderSymbol input).toUpper = orderSymbol input :=
  Text.toUpper_toUpper _

lemma lookup_savedCopy_other {key : String} (h : key ≠ orderSymbol input) :
    (savedCopy store input times prepared).stops.lookup key = store.stops.lookup key := by
  unfold savedCopy rememberStop
  cases input.request.order.stopLoss with
  | none => rfl
  | some stop =>
    rw [orderSymbol_toUpper]
    exact AList.lookup_insert_ne h

lemma lookup_submitCopy_other {key : String} (h : key ≠ orderSymbol input) :
    (submitCopy store input times prepared).stops.lookup key = store.stops.lookup key := by
  cases hundone : input.attempt.undone with
  | true =>
    rw [(submitCopy_undone store input times prepared hundone).2]
    rw [undoneCopy, forgetStop, orderSymbol_toUpper]
    exact (AList.lookup_erase_ne h).trans (lookup_savedCopy_other store input times prepared h)
  | false =>
    rw [(submitCopy_kept store input times prepared hundone).2.2.2]
    exact lookup_savedCopy_other store input times prepared h

lemma lookup_savedCopy {stop : ℚ} (h : input.request.order.stopLoss = some stop) :
    (savedCopy store input times prepared).stops.lookup (orderSymbol input) =
      some { stop, recordedAt := times.stopAt } := by
  unfold savedCopy rememberStop
  rw [h, orderSymbol_toUpper]
  exact AList.lookup_insert _

end Submit

structure StopsCovered (instrumentOf : String → ℕ) (world : World) : Prop where
  covered : ∀ copy ∈ world.copies, Covered instrumentOf world.store.stops copy
  missed : world.missed = []

section Step

variable {settings : Settings} {instrumentOf : String → ℕ} {world : World}

lemma StopsCovered.submitted (h : StopsCovered instrumentOf world) {waits : CopyWaits}
    {input : CopyInput} {prepared : Prepared}
    (hallowed : keepsStops instrumentOf world (.copy waits input))
    (hprepared : prepareCopy settings world.store input (waits.times world.clock) = some prepared) :
    ∀ copy ∈ world.copies ++
        [submitted settings world (waits.times world.clock) input prepared],
      Covered instrumentOf
        (submitCopy world.store input (waits.times world.clock) prepared).stops copy := by
  have hpassed := blockers_eq_nil (prepareCopy_some hprepared).passed
  have hfree : orderSymbol input ∉ effectiveOpenSymbols world.store world.store.mirror := by
    have hheld := (caps_of_capBlockers hpassed.2).2.1
    rw [effectiveOpenSymbols] at hheld
    rw [currentState_openSymbols] at hheld
    exact hheld
  intro copy hcopy
  rw [List.mem_append, List.mem_singleton] at hcopy
  rcases hcopy with hcopy | rfl
  · intro hunfinished
    obtain ⟨info, hinfo⟩ := h.covered copy hcopy hunfinished
    have hother : copy.symbol ≠ orderSymbol input :=
      fun hsame => hfree (hallowed.1 copy hcopy hunfinished hsame)
    exact ⟨info, { hinfo with
      recorded := (lookup_submitCopy_other _ _ _ _ hother).trans hinfo.recorded }⟩
  · intro hunfinished
    obtain ⟨stopPct, hstopPct⟩ := stop_of_proposalBlockers hpassed.1
    obtain ⟨stop, hstop⟩ : ∃ stop, input.request.order.stopLoss = some stop := by
      cases hstop : input.request.order.stopLoss with
      | none =>
        rw [orderStopPct, hstop] at hstopPct
        cases hstopPct
      | some stop => exact ⟨stop, rfl⟩
    have hfilled : input.attempt.possiblyFilled = true := by
      cases hfilled : input.attempt.possiblyFilled with
      | true => rfl
      | false =>
        apply absurd _ hunfinished
        simp [Etoro.submitted, hfilled]
    have hkept := submitCopy_kept world.store input (waits.times world.clock) prepared
      (hallowed.2 hfilled)
    refine ⟨{ stop, recordedAt := (waits.times world.clock).stopAt }, ?_⟩
    exact
      { recorded := by
          rw [hkept.2.2.2]
          exact lookup_savedCopy _ _ _ _ hstop
        stop := hstop
        recordedAt := rfl
        seen := fun hseen => by cases hseen
        instrument := .inl rfl }

lemma StopsCovered.copy (h : StopsCovered instrumentOf world) {waits : CopyWaits}
    {input : CopyInput} (hallowed : keepsStops instrumentOf world (.copy waits input)) :
    StopsCovered instrumentOf (world.copy settings waits input) := by
  cases hprepared : prepareCopy settings world.store input (waits.times world.clock) with
  | none =>
    simp only [World.copy, mirror, hprepared, Option.toList_none, List.map_nil, List.append_nil]
    exact ⟨h.covered, h.missed⟩
  | some prepared =>
    simp only [World.copy, mirror, hprepared, Option.toList_some, List.map_singleton]
    exact ⟨h.submitted hallowed hprepared, h.missed⟩

lemma reconcile_stops (store : Store) (input : ReconcileInput) (now : Timestamp) :
    (reconcile settings store input now).stops = store.stops := by
  rw [reconcile]
  split_ifs
  · rfl
  · cases input.reads with
    | error failure =>
      dsimp only
      split_ifs <;> rfl
    | ok reads => rfl

lemma StopsCovered.observed (h : StopsCovered instrumentOf world) (reads : List (List Position)) :
    ∀ copy ∈ world.copies.map (Copy.observeReads instrumentOf reads),
      Covered instrumentOf world.store.stops copy := by
  intro copy hcopy
  obtain ⟨old, hold, rfl⟩ := List.mem_map.mp hcopy
  exact (h.covered old hold).observeReads reads

lemma missedBy_eq_nil {copy : Copy} {check : StopCheck} {now : Timestamp} {lots : List Position}
    (h : Covered instrumentOf world.store.stops copy)
    (hlots : check.read.usable check.clientUsable = some lots)
    (hclear : copy.unfinished → clearOfLoss instrumentOf world check now lots copy) :
    copy.missedBy instrumentOf check (checkBackupStops instrumentOf check now world.store.stops)
      lots = [] := by
  rw [Copy.missedBy]
  split_ifs with hreached
  · obtain ⟨info, hinfo⟩ := h hreached.1
    rw [List.filter_eq_nil_iff]
    intro lot hlot hnot
    exact of_decide_eq_true hnot
      (hinfo.sends hlots (hclear hreached.1) hreached.2 hlot)
  · rfl

lemma StopsCovered.check (h : StopsCovered instrumentOf world) {toRead toDone : ℕ}
    {check : StopCheck} (hallowed : keepsStops instrumentOf world (.check toRead toDone check)) :
    StopsCovered instrumentOf (world.check instrumentOf toRead toDone check) := by
  cases hlots : check.read.usable check.clientUsable with
  | none =>
    have hstops : (checkBackupStops instrumentOf check (world.clock + toRead)
        world.store.stops).stops = world.store.stops := by
      rw [checkBackupStops, hlots]
    simp only [World.check, hlots]
    exact ⟨by rw [hstops]; exact h.covered, h.missed⟩
  | some lots =>
    have hclear := hallowed lots hlots
    simp only [World.check, hlots]
    constructor
    · intro copy hcopy
      obtain ⟨old, hold, rfl⟩ := List.mem_map.mp hcopy
      exact (h.covered old hold).afterCheck hlots (hclear old hold)
    · rw [h.missed, List.nil_append, List.flatMap_eq_nil_iff]
      intro copy hcopy
      exact missedBy_eq_nil (h.covered copy hcopy) hlots (hclear copy hcopy)

lemma StopsCovered.step (h : StopsCovered instrumentOf world) (action : Action)
    (hallowed : keepsStops instrumentOf world action) :
    StopsCovered instrumentOf (step settings instrumentOf world action) := by
  cases action with
  | copy waits input => exact h.copy hallowed
  | reconcile toRead toDone input =>
    refine ⟨?_, h.missed⟩
    simp only [Etoro.step, World.reconcile, reconcile_stops]
    exact h.observed _
  | check toRead toDone check => exact h.check hallowed
  | updateScorecard wait update => exact ⟨h.observed _, h.missed⟩
  | clearHalt => exact ⟨h.covered, h.missed⟩

end Step

def Copy.stopRecorded (world : World) (copy : Copy) : Prop :=
  copy.order.stopLoss.isSome ∧
    (world.store.stops.lookup copy.symbol).map (·.stop) = copy.order.stopLoss

instance (world : World) (copy : Copy) : Decidable (copy.stopRecorded world) :=
  inferInstanceAs (Decidable (_ ∧ _))

theorem stops_kept_and_closes_sent (settings : Settings) (instrumentOf : String → ℕ) (store : Store)
    (clock : Timestamp) (actions : List Action)
    (hallowed : Runs.Allowed (step settings instrumentOf) (keepsStops instrumentOf)
      (World.start store clock) actions) :
    let after := Runs.run (step settings instrumentOf) (World.start store clock) actions
    (∀ copy ∈ after.copies, copy.unfinished → copy.stopRecorded after) ∧ after.missed = [] := by
  intro after
  have hstart : StopsCovered instrumentOf (World.start store clock) :=
    ⟨fun _ hcopy => absurd hcopy List.not_mem_nil, rfl⟩
  have hcovered : StopsCovered instrumentOf after :=
    Runs.invariant (fun _ action h hkeeps => h.step action hkeeps) hstart hallowed
  refine ⟨?_, hcovered.missed⟩
  intro copy hcopy hunfinished
  obtain ⟨info, hinfo⟩ := hcovered.covered copy hcopy hunfinished
  rw [Copy.stopRecorded, hinfo.recorded, hinfo.stop]
  exact ⟨rfl, rfl⟩

-- An order accepted on Friday evening fills at Monday's open, below its stop.
def fridayEvening : Timestamp := midnight 20000 + 21 * 60 * microsPerMinute

def hoursOf (hours : ℕ) : ℕ := hours * 3600 * 1000000

def fridayEntry : CopyInput where
  request :=
    { order :=
        { symbol := "AAPL"
          amountUsd := 5000
          proposedPrice := 100
          stopLoss := some 95
          takeProfit := some 110
          assetClass := .equity } }
  attempt := .posted (.accepted (some 1))
  cardKey := "1"

def filledLot : Position where
  positionId := 7
  instrumentId := 1001
  symbol := "AAPL"
  copy := some 0

def openingCheck : StopCheck where
  read := .positions [filledLot]
  freshRate := fun _ => some 90

/-- The copy, a check ``hours`` later that shows nothing yet, and one that shows the filled lot. -/
def filledAfter (hours : ℕ) : List Action :=
  [.copy {} fridayEntry, .check (hoursOf hours) 0 { read := .positions [] },
    .check (hoursOf 12) 0 openingCheck]

def startOfWeekend : World :=
  World.start { mirror := { lastEquity := some 10000 } } fridayEvening

theorem weekend_order_loses_its_stop :
    ¬ ∀ (settings : Settings) (instrumentOf : String → ℕ) (store : Store) (clock : Timestamp)
      (actions : List Action),
      let after := Runs.run (step settings instrumentOf) (World.start store clock) actions
      (∀ copy ∈ after.copies, copy.unfinished → copy.stopRecorded after) ∧ after.missed = [] := by
  intro h
  have hrun := (h {} (fun _ => 1001) startOfWeekend.store fridayEvening (filledAfter 54)).1
  revert hrun
  decide +kernel

theorem stops_kept_overnight :
    let after := Runs.run (step {} fun _ => 1001) startOfWeekend (filledAfter 6)
    (∀ copy ∈ after.copies, copy.unfinished → copy.stopRecorded after) ∧ after.missed = [] :=
  stops_kept_and_closes_sent {} (fun _ => 1001) startOfWeekend.store fridayEvening (filledAfter 6)
    (by decide +kernel)

end AlgoTrader.Broker.Etoro
