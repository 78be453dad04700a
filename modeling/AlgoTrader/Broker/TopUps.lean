import AlgoTrader.Broker.EtoroLiveAccount
import AlgoTrader.Broker.MirrorCaps

/-! The daily top-up over whole runs: the day is marked before the order goes out, so that a crash
leaves the mark, and the amount is the least of two rooms, to the cent. -/

namespace AlgoTrader.Broker.Etoro

open AlgoTrader.Utils.Time

def Attempt.rateLimited (attempt : Attempt) : Bool :=
  match attempt.result with
  | .error failure => failure.isRateLimit
  | .ok _ => false

section Tick

variable {settings : Settings} {clock : NewYorkClock} {store : ReserveStore} {now stateAt : Timestamp}
variable {reads : TopUpReads}

structure RoomsRead (store : ReserveStore) (reads : TopUpReads) (rooms : Rooms) : Prop where
  read : ∃ rows cash instrumentId, reads.rows = some rows ∧ reads.credit = some cash ∧
    instrumentIdOf store.toStore reads.lookup = some instrumentId ∧
    rooms = roomsOf rows cash instrumentId

lemma topUpEffects_cases (before : MirrorState) (day : ℤ) :
    topUpEffects store before day reads = [] ∨
      ∃ instrumentId, topUpEffects store before day reads = [.saveReserve instrumentId (some day)] ∨
        ∃ rooms, RoomsRead store reads rooms ∧ minTopupUsd ≤ rooms.amount ∧
          topUpEffects store before day reads = buy before instrumentId day rooms reads.attempt := by
  rw [topUpEffects]
  split
  · rename_i rows cash hrows hcash
    split_ifs with hworthless
    · exact Or.inl rfl
    · cases hid : instrumentIdOf store.toStore reads.lookup with
      | none => exact Or.inl rfl
      | some instrumentId =>
        dsimp only
        split_ifs with hskip
        · exact Or.inr ⟨instrumentId, Or.inl rfl⟩
        · cases reads.rate with
          | none => exact Or.inl rfl
          | some rate =>
            dsimp only
            split_ifs
            · exact Or.inl rfl
            · rw [Bool.or_eq_true, not_or, decide_eq_true_eq, not_lt] at hskip
              exact Or.inr ⟨instrumentId, Or.inr
                ⟨_, ⟨rows, cash, instrumentId, hrows, hcash, hid, rfl⟩, hskip.2, rfl⟩⟩
  · exact Or.inl rfl

lemma fresh_of_due (h : topUpDue settings clock store now reads = true) :
    store.lastTopupDay ≠ some (clock.date now) := by
  simp only [topUpDue, Bool.and_eq_true, decide_eq_true_eq] at h
  exact h.1.1.1.2

variable (settings clock store now stateAt reads) in
lemma topUp_cases :
    topUp settings clock store now stateAt reads = [] ∨
      topUpDue settings clock store now reads = true ∧ ∃ before instrumentId,
        topUp settings clock store now stateAt reads =
            [.saveReserve instrumentId (some (clock.date now))] ∨
          ∃ rooms, RoomsRead store reads rooms ∧ minTopupUsd ≤ rooms.amount ∧
            topUp settings clock store now stateAt reads =
              buy before instrumentId (clock.date now) rooms reads.attempt := by
  rw [topUp]
  split_ifs with hdue
  · rcases topUpEffects_cases (currentState store.mirror (utcDate stateAt)) (clock.date now) with
      hnone | ⟨instrumentId, heffects⟩
    · exact Or.inl hnone
    · exact Or.inr ⟨hdue, _, instrumentId, heffects⟩
  · exact Or.inl rfl

end Tick

section Effects

variable {day postDay : ℤ} {attempt : Attempt} {account : Account}

/-- The saves that follow the order keep the mark, unless they take a rate limit for a refusal. -/
def Effect.Settles (day : ℤ) (attempt : Attempt) : Effect → Prop
  | .saveReserve _ lastTopupDay => lastTopupDay = some day ∨ attempt.rateLimited = true
  | .saveMirror _ => True
  | .order _ => False

lemma settleOrder_settles (before : MirrorState) (instrumentId : ℕ) :
    ∀ effect ∈ settleOrder attempt before instrumentId day, effect.Settles day attempt := by
  intro effect heffect
  rw [settleOrder] at heffect
  cases hresult : attempt.result with
  | error failure =>
    rw [hresult, List.mem_append, List.mem_singleton] at heffect
    rcases heffect with hrestored | rfl
    · split_ifs at hrestored
      · rw [List.mem_singleton] at hrestored
        rw [hrestored]
        trivial
      · exact absurd hrestored List.not_mem_nil
    · cases hlimited : failure.isRateLimit with
      | true => exact Or.inr (by rw [Attempt.rateLimited, hresult]; exact hlimited)
      | false => exact Or.inl rfl
  | ok status =>
    rw [hresult, List.mem_append, List.mem_singleton] at heffect
    rcases heffect with hrestored | rfl
    · split_ifs at hrestored
      · rw [List.mem_singleton] at hrestored
        rw [hrestored]
        trivial
      · exact absurd hrestored List.not_mem_nil
    · exact Or.inl rfl

def Account.Marked (day : ℤ) (attempt : Attempt) (account : Account) : Prop :=
  account.lastTopupDay = some day ∨ attempt.rateLimited = true

lemma applyAll_settles {effects : List Effect} (h : ∀ effect ∈ effects, effect.Settles day attempt)
    (hmarked : account.Marked day attempt) :
    (account.applyAll postDay attempt effects).buys = account.buys ∧
      (account.applyAll postDay attempt effects).Marked day attempt := by
  induction effects generalizing account with
  | nil => exact ⟨rfl, hmarked⟩
  | cons effect rest ih =>
    have hrest : ∀ effect ∈ rest, effect.Settles day attempt :=
      fun effect heffect => h effect (List.mem_cons_of_mem _ heffect)
    have hfirst := h effect List.mem_cons_self
    cases effect with
    | saveReserve instrumentId lastTopupDay => exact ih hrest hfirst
    | saveMirror mirror => exact ih hrest hmarked
    | order rooms => exact hfirst.elim

lemma applyAll_clock (effects : List Effect) (account : Account) :
    (account.applyAll postDay attempt effects).world.clock = account.world.clock := by
  induction effects generalizing account with
  | nil => rfl
  | cons effect rest ih =>
    apply (ih (account.apply postDay attempt effect)).trans
    cases effect with
    | saveReserve instrumentId lastTopupDay => rfl
    | saveMirror mirror => rfl
    | order rooms => rfl

lemma buy_prefix (before : MirrorState) (instrumentId : ℕ) (rooms : Rooms) (done : ℕ) :
    (account.applyAll postDay attempt ((buy before instrumentId day rooms attempt).take done)).buys =
        account.buys ∨
      (account.applyAll postDay attempt ((buy before instrumentId day rooms attempt).take done)).buys =
          account.buys ++ [⟨postDay, rooms, attempt.possiblyFilled⟩] ∧
        (account.applyAll postDay attempt
          ((buy before instrumentId day rooms attempt).take done)).Marked day attempt := by
  match done with
  | 0 => exact Or.inl rfl
  | 1 => exact Or.inl rfl
  | 2 => exact Or.inl rfl
  | settled + 3 =>
    right
    have htake : ∀ effect ∈ (settleOrder attempt before instrumentId day).take settled,
        effect.Settles day attempt :=
      fun effect heffect => settleOrder_settles before instrumentId effect (List.mem_of_mem_take heffect)
    exact applyAll_settles htake (Or.inl rfl)

end Effects

section Runs

variable {settings : Settings} {clock : NewYorkClock} {instrumentOf : String → ℕ} {account : Account}

def filledBuys (buys : List Buy) (day : ℤ) : ℕ :=
  buys.countP fun buy => buy.possiblyFilled ∧ buy.day = day

/-- An order that may be filled goes out on the New York day of its tick, and its answer is not taken
for a rate limit. -/
def BuysOnItsDay (clock : NewYorkClock) (account : Account) : Event → Prop
  | .topUp waits reads _ =>
      reads.attempt.possiblyFilled = true →
        clock.date (waits.postAt account.world.clock) = clock.date (waits.tickAt account.world.clock) ∧
          reads.attempt.rateLimited = false
  | _ => True

structure OncePerDay (clock : NewYorkClock) (account : Account) : Prop where
  past : ∀ buy ∈ account.buys, buy.possiblyFilled = true → buy.day ≤ clock.date account.world.clock
  marked : ∀ buy ∈ account.buys, buy.possiblyFilled = true →
    buy.day = clock.date account.world.clock → account.lastTopupDay = some buy.day
  once : ∀ day, filledBuys account.buys day ≤ 1

lemma OncePerDay.wait (h : OncePerDay clock account) {after : Account}
    (hbuys : after.buys = account.buys) (hmark : after.lastTopupDay = account.lastTopupDay)
    (hclock : account.world.clock ≤ after.world.clock) : OncePerDay clock after where
  past := by
    intro buy hbuy hfilled
    rw [hbuys] at hbuy
    exact (h.past buy hbuy hfilled).trans (clock.date_mono hclock)
  marked := by
    intro buy hbuy hfilled hday
    rw [hbuys] at hbuy
    rw [hmark]
    apply h.marked buy hbuy hfilled
    apply le_antisymm (h.past buy hbuy hfilled)
    rw [hday]
    exact clock.date_mono hclock
  once := by
    intro day
    rw [hbuys]
    exact h.once day

lemma OncePerDay.unbought (h : OncePerDay clock account) {now : Timestamp}
    (hnow : account.world.clock ≤ now) (hdue : account.lastTopupDay ≠ some (clock.date now)) :
    ∀ buy ∈ account.buys, buy.possiblyFilled = true → buy.day ≠ clock.date now := by
  intro buy hbuy hfilled hday
  have hpast := h.past buy hbuy hfilled
  have hsame : buy.day = clock.date account.world.clock := by
    apply le_antisymm hpast
    rw [hday]
    exact clock.date_mono hnow
  exact hdue (hday ▸ h.marked buy hbuy hfilled hsame)

lemma TopUpWaits.le (waits : TopUpWaits) (now : Timestamp) :
    now ≤ waits.tickAt now ∧ waits.tickAt now ≤ waits.postAt now ∧
      waits.postAt now ≤ now + waits.total := by
  unfold TopUpWaits.postAt TopUpWaits.tickAt TopUpWaits.total Timestamp at *
  omega

lemma filledBuys_append (buys : List Buy) (buy : Buy) (day : ℤ) :
    filledBuys (buys ++ [buy]) day =
      filledBuys buys day + if buy.possiblyFilled ∧ buy.day = day then 1 else 0 := by
  rw [filledBuys, List.countP_append, List.countP_singleton]
  simp [filledBuys]

variable (account) in
lemma Account.topUp_cases (settings : Settings) (clock : NewYorkClock) (waits : TopUpWaits)
    (reads : TopUpReads) (done : ℕ) :
    let now := account.world.clock
    let after := account.topUp settings clock waits reads done
    after.buys = account.buys ∧ after.lastTopupDay = account.lastTopupDay ∨
      topUpDue settings clock account.reserveStore (waits.tickAt now) reads = true ∧
        (after.buys = account.buys ∨
          ∃ rooms, RoomsRead account.reserveStore reads rooms ∧ minTopupUsd ≤ rooms.amount ∧
            after.buys = account.buys ++
              [⟨clock.date (waits.postAt now), rooms, reads.attempt.possiblyFilled⟩] ∧
            after.Marked (clock.date (waits.tickAt now)) reads.attempt) := by
  intro now after
  simp only [after, Account.topUp]
  rcases Etoro.topUp_cases settings clock account.reserveStore (waits.tickAt account.world.clock)
      (waits.tickAt account.world.clock + waits.toState) reads with
    hnone | ⟨hdue, before, instrumentId, hmark | ⟨rooms, hrooms, hleast, hbuy⟩⟩
  · rw [hnone, List.take_nil]
    exact Or.inl ⟨rfl, rfl⟩
  · rw [hmark]
    refine Or.inr ⟨hdue, Or.inl ?_⟩
    match done with
    | 0 => rfl
    | done + 1 => rw [List.take_succ_cons, List.take_nil]; rfl
  · rw [hbuy]
    refine Or.inr ⟨hdue, ?_⟩
    rcases buy_prefix before instrumentId rooms done with hbuys | ⟨hbuys, hmarked⟩
    · exact Or.inl hbuys
    · exact Or.inr ⟨rooms, hrooms, hleast, hbuys, hmarked⟩

lemma topUp_clock (waits : TopUpWaits) (reads : TopUpReads) (done : ℕ) :
    (account.topUp settings clock waits reads done).world.clock =
      account.world.clock + waits.total :=
  congrArg (· + (waits.total : ℤ)) (applyAll_clock _ account)

lemma OncePerDay.topUp (h : OncePerDay clock account) (waits : TopUpWaits) (reads : TopUpReads)
    (done : ℕ) (hallowed : BuysOnItsDay clock account (.topUp waits reads done)) :
    OncePerDay clock (account.topUp settings clock waits reads done) := by
  obtain ⟨htick, hpost, htotal⟩ := waits.le account.world.clock
  have hlater : account.world.clock ≤ (account.topUp settings clock waits reads done).world.clock := by
    rw [topUp_clock]
    exact htick.trans (hpost.trans htotal)
  rcases account.topUp_cases settings clock waits reads done with ⟨hbuys, hmark⟩ | ⟨hdue, hbuys⟩
  · exact h.wait hbuys hmark hlater
  · have hunbought := h.unbought htick (fresh_of_due hdue)
    -- An old buy of the day the tick ends on would be one of the tick's own day.
    have hold : ∀ buy ∈ account.buys, buy.possiblyFilled = true →
        buy.day ≠ clock.date (account.topUp settings clock waits reads done).world.clock := by
      intro buy hbuy hfilled hday
      apply hunbought buy hbuy hfilled
      apply le_antisymm ((h.past buy hbuy hfilled).trans (clock.date_mono htick))
      rw [hday, topUp_clock]
      exact clock.date_mono (hpost.trans htotal)
    rcases hbuys with hbuys | ⟨rooms, -, -, hbuys, hmarked⟩
    · constructor
      · intro buy hbuy hfilled
        rw [hbuys] at hbuy
        exact (h.past buy hbuy hfilled).trans (clock.date_mono hlater)
      · intro buy hbuy hfilled hday
        rw [hbuys] at hbuy
        exact absurd hday (hold buy hbuy hfilled)
      · intro day
        rw [hbuys]
        exact h.once day
    · constructor
      · intro buy hbuy hfilled
        rw [hbuys, List.mem_append, List.mem_singleton] at hbuy
        rcases hbuy with hbuy | rfl
        · exact (h.past buy hbuy hfilled).trans (clock.date_mono hlater)
        · rw [topUp_clock]
          exact clock.date_mono htotal
      · intro buy hbuy hfilled hday
        rw [hbuys, List.mem_append, List.mem_singleton] at hbuy
        rcases hbuy with hbuy | rfl
        · exact absurd hday (hold buy hbuy hfilled)
        · obtain ⟨hsame, hlimited⟩ := hallowed hfilled
          rw [Account.Marked, hlimited, or_iff_left Bool.false_ne_true] at hmarked
          rw [hmarked, hsame]
      · intro day
        rw [hbuys, filledBuys_append]
        split_ifs with hnew
        · obtain ⟨hfilled, rfl⟩ := hnew
          have hnone : filledBuys account.buys (clock.date (waits.postAt account.world.clock)) = 0 := by
            rw [filledBuys, List.countP_eq_zero]
            intro buy hbuy hfound
            simp only [decide_eq_true_eq] at hfound
            exact hunbought buy hbuy hfound.1 (hfound.2.trans (hallowed hfilled).1)
          rw [hnone]
        · exact h.once day

lemma OncePerDay.step (h : OncePerDay clock account) (event : Event)
    (hallowed : BuysOnItsDay clock account event) :
    OncePerDay clock (accountStep settings clock instrumentOf account event) := by
  cases event with
  | copy waits input sale =>
    obtain ⟨hgates, hread, hpost, hdone⟩ := waits.times_le account.world.clock
    exact h.wait rfl rfl (hgates.trans (hread.trans (hpost.trans hdone)))
  | topUp waits reads done => exact h.topUp waits reads done hallowed
  | reconcile toRead toDone input =>
    exact h.wait rfl rfl ((le_add_wait _ toRead).trans (le_add_wait _ toDone))
  | check toRead toDone check =>
    exact h.wait rfl rfl ((le_add_wait _ toRead).trans (le_add_wait _ toDone))
  | updateScorecard wait update => exact h.wait rfl rfl (le_add_wait _ wait)
  | clearHalt => exact h.wait rfl rfl (le_refl _)

structure Rooms.Within (rooms : Rooms) (slack : ℚ) : Prop where
  cap : rooms.cost + rooms.amount ≤ rooms.equity * hardMaxReservePct / 100 + 2 * slack
  cash : cashBufferUsd + cashReserveUsd ≤ rooms.cash - rooms.amount + slack

lemma Rooms.within_of_le {rooms : Rooms} {slack : ℚ} (hcost : rooms.cost ≤ rooms.heldCost + slack)
    (hamount : rooms.amount ≤ min rooms.capRoom rooms.cashRoom + slack) : rooms.Within slack where
  cap := by
    have hcap := min_le_left rooms.capRoom rooms.cashRoom
    rw [Rooms.capRoom] at hcap hamount
    linarith
  cash := by
    have hcash := min_le_right rooms.capRoom rooms.cashRoom
    rw [Rooms.cashRoom] at hcash hamount
    linarith

lemma Rooms.within_half_cent (rooms : Rooms) : rooms.Within (1 / 200) := by
  have hcost := (abs_le.mp (Rounding.abs_toDigits_sub_le 2 rooms.cost)).1
  have hamount := (abs_le.mp (Rounding.abs_toDigits_sub_le 2 (min rooms.capRoom rooms.cashRoom))).2
  norm_num at hcost hamount
  apply Rooms.within_of_le
  · rw [Rooms.heldCost]
    linarith
  · rw [Rooms.amount]
    linarith

/-- To the cent, the lots' cost is not read too low nor the smaller room too high. -/
structure Rooms.RoundsDown (rooms : Rooms) : Prop where
  cost : rooms.cost ≤ rooms.heldCost
  room : Rounding.toDigits 2 (min rooms.capRoom rooms.cashRoom) ≤ min rooms.capRoom rooms.cashRoom

structure BuysFor (settings : Settings) (clock : NewYorkClock) (account : Account) (waits : TopUpWaits)
    (reads : TopUpReads) (rooms : Rooms) : Prop where
  due : topUpDue settings clock account.reserveStore (waits.tickAt account.world.clock) reads = true
  read : RoomsRead account.reserveStore reads rooms
  least : minTopupUsd ≤ rooms.amount

def RoomsRoundDown (settings : Settings) (clock : NewYorkClock) (account : Account) : Event → Prop
  | .topUp waits reads _ => ∀ rooms, BuysFor settings clock account waits reads rooms → rooms.RoundsDown
  | _ => True

def BuysWithin (slack : ℚ) (account : Account) : Prop := ∀ buy ∈ account.buys, buy.rooms.Within slack

lemma BuysWithin.step {slack : ℚ} (h : BuysWithin slack account) (event : Event)
    (hrooms : ∀ waits reads done, event = .topUp waits reads done →
      ∀ rooms, BuysFor settings clock account waits reads rooms → rooms.Within slack) :
    BuysWithin slack (accountStep settings clock instrumentOf account event) := by
  cases event with
  | topUp waits reads done =>
    intro buy hbuy
    rw [accountStep] at hbuy
    rcases account.topUp_cases settings clock waits reads done with
      ⟨hbuys, -⟩ | ⟨hdue, hbuys | ⟨rooms, hread, hleast, hbuys, -⟩⟩
    · rw [hbuys] at hbuy
      exact h buy hbuy
    · rw [hbuys] at hbuy
      exact h buy hbuy
    · rw [hbuys, List.mem_append, List.mem_singleton] at hbuy
      rcases hbuy with hbuy | rfl
      · exact h buy hbuy
      · exact hrooms waits reads done rfl rooms ⟨hdue, hread, hleast⟩
  | copy waits input sale => exact h
  | reconcile toRead toDone input => exact h
  | check toRead toDone check => exact h
  | updateScorecard wait update => exact h
  | clearHalt => exact h

end Runs

/-- However the ticks crash, a run in which every order that may be filled goes out on its tick's day
and is not taken for rate limited buys at most once on each day; every amount keeps both limits to
within the rounding of its cents, and with none of it in a run whose rooms round down. -/
theorem top_up_once_a_day (settings : Settings) (clock : NewYorkClock) (instrumentOf : String → ℕ)
    (store : Store) (now : Timestamp) (lastTopupDay : Option ℤ) (events : List Event) :
    let step := accountStep settings clock instrumentOf
    let start := Account.start store now lastTopupDay
    let buys := (Runs.run step start events).buys
    (Runs.Allowed step (BuysOnItsDay clock) start events → ∀ day, filledBuys buys day ≤ 1) ∧
      (Runs.Allowed step (RoomsRoundDown settings clock) start events → ∀ buy ∈ buys, buy.rooms.Within 0) ∧
      ∀ buy ∈ buys, buy.rooms.Within (1 / 200) := by
  intro step start buys
  have hnone {slack : ℚ} : BuysWithin slack start := fun buy hbuy => absurd hbuy List.not_mem_nil
  refine ⟨?_, ?_, ?_⟩
  · intro hallowed
    have hstart : OncePerDay clock start :=
      { past := fun buy hbuy => absurd hbuy List.not_mem_nil
        marked := fun buy hbuy => absurd hbuy List.not_mem_nil
        once := fun day => Nat.zero_le _ }
    have hrun : OncePerDay clock (Runs.run step start events) :=
      Runs.invariant (fun account event h => h.step event) hstart hallowed
    exact hrun.once
  · intro hallowed
    have hstep : ∀ account event, BuysWithin 0 account → RoomsRoundDown settings clock account event →
        BuysWithin 0 (step account event) := by
      intro account event h hdown
      apply h.step event
      rintro waits reads done rfl rooms hread
      obtain ⟨hcost, hroom⟩ := hdown rooms hread
      apply Rooms.within_of_le
      · rw [add_zero]
        exact hcost
      · rw [add_zero]
        exact hroom
    exact Runs.invariant hstep hnone hallowed
  · have hstep : ∀ account event, BuysWithin (1 / 200) account →
        BuysWithin (1 / 200) (step account event) :=
      fun account event h => h.step event fun _ _ _ _ rooms _ => rooms.within_half_cent
    exact Runs.invariant_of_step hstep hnone events

-- A block page that answers the order leaves the day open for a second one, and a cent
-- more than a round equity rounds the amount up.
def idleReads (cash : ℚ) (attempt : Attempt) : TopUpReads where
  rows := some []
  credit := some cash
  lookup := some 5
  rate := some 600
  attempt := attempt

def noon : Timestamp := midnight 20000 + 17 * 60 * microsPerMinute

theorem topped_up_twice_and_over :
    (¬ ∀ (settings : Settings) (clock : NewYorkClock) (instrumentOf : String → ℕ) (store : Store)
        (now : Timestamp) (lastTopupDay : Option ℤ) (events : List Event) (day : ℤ),
        filledBuys (Runs.run (accountStep settings clock instrumentOf)
          (Account.start store now lastTopupDay) events).buys day ≤ 1) ∧
      ¬ ∀ (settings : Settings) (clock : NewYorkClock) (instrumentOf : String → ℕ) (store : Store)
        (now : Timestamp) (lastTopupDay : Option ℤ) (events : List Event),
        ∀ buy ∈ (Runs.run (accountStep settings clock instrumentOf)
          (Account.start store now lastTopupDay) events).buys, buy.rooms.Within 0 := by
  constructor
  · intro h
    have htwice := h { spyReserveEnabled := true } easternStandard (fun _ => 1) {} noon none
      [.topUp {} (idleReads 10000 (.posted (.httpError 503 "Cloudflare: Access denied"))) 5,
        .topUp {} (idleReads 10000 (.posted (.accepted (some 1)))) 4] 20000
    revert htwice
    decide +kernel
  · intro h
    have hover := h { spyReserveEnabled := true } easternStandard (fun _ => 1) {} noon none
      [.topUp {} (idleReads (10000 + 1 / 100) (.posted (.accepted (some 1)))) 4]
      ⟨20000, roomsOf [] (10000 + 1 / 100) 5, true⟩ (by decide +kernel)
    have hcap := hover.cap
    revert hcap
    decide +kernel

theorem top_up_once_after_crash :
    (∀ day, filledBuys (Runs.run (accountStep { spyReserveEnabled := true } easternStandard fun _ => 1)
        (Account.start {} noon none)
        [.topUp {} (idleReads 10000 (.posted (.transport "timed out"))) 3,
          .topUp {} (idleReads 10000 (.posted (.accepted (some 1)))) 4]).buys day ≤ 1) ∧
      ∀ buy ∈ (Runs.run (accountStep { spyReserveEnabled := true } easternStandard fun _ => 1)
        (Account.start {} noon none)
        [.topUp {} (idleReads 10000 (.posted (.transport "timed out"))) 3,
          .topUp {} (idleReads 10000 (.posted (.accepted (some 1)))) 4]).buys, buy.rooms.Within 0 := by
  have hfive : (roomsOf [] 10000 5).RoundsDown := ⟨by decide +kernel, by decide +kernel⟩
  have hdown (id : ℕ) : (roomsOf [] 10000 id).RoundsDown := hfive
  obtain ⟨honce, hwithin, -⟩ := top_up_once_a_day { spyReserveEnabled := true } easternStandard
    (fun _ => 1) {} noon none
    [.topUp {} (idleReads 10000 (.posted (.transport "timed out"))) 3,
      .topUp {} (idleReads 10000 (.posted (.accepted (some 1)))) 4]
  refine ⟨honce ⟨fun _ => ⟨by decide +kernel, by decide +kernel⟩,
    fun _ => ⟨by decide +kernel, by decide +kernel⟩, trivial⟩, hwithin ⟨?_, ?_, trivial⟩⟩
  · rintro rooms ⟨-, ⟨rows, cash, id, hrows, hcash, -, rfl⟩, -⟩
    cases hrows
    cases hcash
    exact hdown id
  · rintro rooms ⟨-, ⟨rows, cash, id, hrows, hcash, -, rfl⟩, -⟩
    cases hrows
    cases hcash
    exact hdown id

end AlgoTrader.Broker.Etoro
