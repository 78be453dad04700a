import AlgoTrader.Lib.Keyed
import AlgoTrader.Lib.Rounding
import AlgoTrader.Lib.Sha256
import AlgoTrader.Lib.Spaced
import AlgoTrader.Lib.Table
import AlgoTrader.Broker.EtoroClient
import Mathlib.Order.Bounds.Basic

/-! The process-wide eToro limiter (``app/broker/etoro_rate_limit.py``): the slot every request
waits for, and the cooldown a refused request opens, one bucket for each account. -/

namespace AlgoTrader.Broker.EtoroRateLimit

/-- The outer ``none`` is a settings object without the attribute, the inner one Python's ``None``. -/
structure Settings where
  etoro_api_key : String
  etoro_request_min_interval_seconds : Option (Option ℚ)
  etoro_rate_limit_cooldown_seconds : Option (Option ℚ)
  deriving DecidableEq, Repr

structure Bucket where
  key : String
  last_request_at : ℚ
  blocked_until : ℚ
  reason : String
  deriving DecidableEq, Repr

def Bucket.fresh (key : String) : Bucket := ⟨key, 0, 0, ""⟩

def Settings.key (settings : Settings) : String :=
  if settings.etoro_api_key.isEmpty then "anon"
  else String.ofList ((Sha256.hexdigest settings.etoro_api_key).toList.take 12)

def Settings.minInterval (settings : Settings) : ℚ :=
  max 0 (match settings.etoro_request_min_interval_seconds with
    | none => 3 / 4
    | some value => value.getD 0)

def Settings.cooldown (settings : Settings) : ℚ :=
  max 30 (match settings.etoro_rate_limit_cooldown_seconds with
    | none => 300
    | some none => 300
    | some (some value) => if value = 0 then 300 else value)

/-- ``_state``, in the order the accounts were first seen. -/
abbrev Limiter := List Bucket

def bucketOf (limiter : Limiter) (key : String) : Bucket :=
  (Table.find Bucket.key limiter key).getD (Bucket.fresh key)

def setdefault (limiter : Limiter) (key : String) : Limiter :=
  match Table.find Bucket.key limiter key with
  | some _ => limiter
  | none => limiter ++ [Bucket.fresh key]

def put (limiter : Limiter) (bucket : Bucket) : Limiter :=
  Table.replace Bucket.key (setdefault limiter bucket.key) bucket

inductive Turn
  | granted
  | raised (message : String)
  | sleeps (seconds : ℚ)
  deriving DecidableEq, Repr

def Turn.isRaised : Turn → Bool
  | .raised _ => true
  | _ => false

def cooldownMessage (bucket : Bucket) (now : ℚ) : String :=
  "eToro API temporarily rate-limited; retry after "
    ++ toString (Rounding.halfEven (bucket.blocked_until - now)) ++ "s. Reason: "
    ++ (if bucket.reason.isEmpty then "rate_limit" else bucket.reason)

def waitSeconds (bucket : Bucket) (settings : Settings) (now : ℚ) : ℚ :=
  bucket.last_request_at + settings.minInterval - now

def turn (bucket : Bucket) (settings : Settings) (now : ℚ) : Turn :=
  if now < bucket.blocked_until then .raised (cooldownMessage bucket now)
  else if waitSeconds bucket settings now ≤ 0 then .granted
  else .sleeps (min (waitSeconds bucket settings now) 2)

def afterTurn (bucket : Bucket) (settings : Settings) (now : ℚ) : Bucket :=
  if turn bucket settings now = .granted then { bucket with last_request_at := now } else bucket

def isRateLimited (statusCode : ℕ) (body : String) : Bool := Etoro.markEtoroRateLimited statusCode body

def refusalReason (body : String) : String :=
  if Text.containsText "cloudflare" body.toLower then "cloudflare_access_denied" else "http_429"

def afterMark (bucket : Bucket) (settings : Settings) (body : String) (now : ℚ) : Bucket :=
  { bucket with
    blocked_until := max bucket.blocked_until (now + settings.cooldown)
    reason := refusalReason body }

inductive Call
  | waitForEtoroSlot (settings : Settings)
  | etoroCooldownRemaining (settings : Settings)
  | markEtoroRateLimited (settings : Settings) (statusCode : ℕ) (body : String) (mark : Bool)
  deriving DecidableEq, Repr

def Call.settings : Call → Settings
  | .waitForEtoroSlot settings => settings
  | .etoroCooldownRemaining settings => settings
  | .markEtoroRateLimited settings _ _ _ => settings

inductive Answer
  | turn (turn : Turn)
  | remaining (seconds : ℚ)
  | limited (limited : Bool)
  deriving DecidableEq, Repr

structure Event where
  call : Call
  now : ℚ
  deriving DecidableEq, Repr

abbrev Event.key (event : Event) : String := event.call.settings.key

def answer (limiter : Limiter) (event : Event) : Answer :=
  match event.call with
  | .waitForEtoroSlot settings => .turn (turn (bucketOf limiter settings.key) settings event.now)
  | .etoroCooldownRemaining settings =>
      .remaining (max 0 ((bucketOf limiter settings.key).blocked_until - event.now))
  | .markEtoroRateLimited _ statusCode body _ => .limited (isRateLimited statusCode body)

def step (limiter : Limiter) (event : Event) : Limiter :=
  match event.call with
  | .waitForEtoroSlot settings => put limiter (afterTurn (bucketOf limiter settings.key) settings event.now)
  | .etoroCooldownRemaining settings => setdefault limiter settings.key
  | .markEtoroRateLimited settings statusCode body mark =>
      if isRateLimited statusCode body && mark then
        put limiter (afterMark (bucketOf limiter settings.key) settings body event.now)
      else limiter

structure Status where
  cooldown_active : Bool
  cooldown_remaining_seconds : ℚ
  last_reason : String
  deriving DecidableEq, Repr

/-- Python's ``max`` with a key: the first of the greatest. -/
def worst : Limiter → Option Bucket
  | [] => none
  | bucket :: rest =>
      match worst rest with
      | none => some bucket
      | some other => if other.blocked_until ≤ bucket.blocked_until then some bucket else some other

def etoroRateLimitStatus (limiter : Limiter) (now : ℚ) : Status :=
  let remaining := match worst limiter with
    | some bucket => max 0 (bucket.blocked_until - now)
    | none => 0
  { cooldown_active := 0 < remaining
    cooldown_remaining_seconds := Rounding.toDigits 1 remaining
    last_reason := ((worst limiter).map Bucket.reason).getD "" }

variable {limiter : Limiter} {bucket : Bucket} {settings : Settings} {key : String} {now : ℚ} {event : Event}

lemma minInterval_nonneg (settings : Settings) : 0 ≤ settings.minInterval := le_max_left _ _

lemma key_bucketOf : (bucketOf limiter key).key = key := by
  rw [bucketOf]
  cases h : Table.find Bucket.key limiter key with
  | none => rfl
  | some bucket => exact Table.key_of_find h

@[simp]
lemma key_afterTurn : (afterTurn bucket settings now).key = bucket.key := by
  rw [afterTurn]
  split_ifs <;> rfl

lemma find_fresh (h : Table.find Bucket.key limiter key = none) :
    Table.find Bucket.key (limiter ++ [Bucket.fresh key]) key = some (Bucket.fresh key) :=
  @Table.find_concat_self _ _ _ Bucket.key limiter (Bucket.fresh key) h

lemma bucketOf_setdefault (key' : String) : bucketOf (setdefault limiter key) key' = bucketOf limiter key' := by
  rw [setdefault]
  cases h : Table.find Bucket.key limiter key with
  | some bucket => rfl
  | none =>
    by_cases hkey : key = key'
    · subst hkey
      rw [bucketOf, bucketOf, find_fresh h, h]
      rfl
    · have hother : Table.find Bucket.key (limiter ++ [Bucket.fresh key]) key' = Table.find Bucket.key limiter key' :=
        Table.find_concat_other hkey
      rw [bucketOf, bucketOf, hother]

lemma exists_find_setdefault (limiter : Limiter) (key : String) : ∃ bucket, Table.find Bucket.key (setdefault limiter key) key = some bucket := by
  rw [setdefault]
  cases h : Table.find Bucket.key limiter key with
  | some bucket => exact ⟨bucket, h⟩
  | none => exact ⟨Bucket.fresh key, find_fresh h⟩

lemma bucketOf_put_self : bucketOf (put limiter bucket) bucket.key = bucket := by
  obtain ⟨old, hold⟩ := exists_find_setdefault limiter bucket.key
  rw [bucketOf, put, Table.find_replace_self, hold]
  rfl

lemma bucketOf_put_other (h : bucket.key ≠ key) : bucketOf (put limiter bucket) key = bucketOf limiter key := by
  rw [bucketOf, put, Table.find_replace_other h]
  exact bucketOf_setdefault key

def Counts (event : Event) : Prop :=
  match event.call with
  | .waitForEtoroSlot _ => True
  | .etoroCooldownRemaining _ => False
  | .markEtoroRateLimited _ statusCode body mark => isRateLimited statusCode body = true ∧ mark = true

instance : DecidablePred Counts := fun event => by
  unfold Counts
  cases event.call <;> infer_instance

def Concerns (event : Event) (key : String) : Prop := event.key = key ∧ Counts event

instance (key : String) : DecidablePred (Concerns · key) := fun _ => inferInstanceAs (Decidable (_ ∧ _))

def bucketStep (bucket : Bucket) (event : Event) : Bucket :=
  match event.call with
  | .waitForEtoroSlot settings => afterTurn bucket settings event.now
  | .etoroCooldownRemaining _ => bucket
  | .markEtoroRateLimited settings _ body _ => afterMark bucket settings body event.now

lemma key_bucketStep : (bucketStep bucket event).key = bucket.key := by
  rw [bucketStep]
  cases event.call with
  | waitForEtoroSlot settings => exact key_afterTurn
  | etoroCooldownRemaining settings => rfl
  | markEtoroRateLimited settings statusCode body mark => rfl

lemma step_of_counts (h : Counts event) :
    step limiter event = put limiter (bucketStep (bucketOf limiter event.key) event) := by
  obtain ⟨call, now⟩ := event
  cases call with
  | waitForEtoroSlot settings => rfl
  | etoroCooldownRemaining settings => exact absurd h id
  | markEtoroRateLimited settings statusCode body mark =>
    have hmark : isRateLimited statusCode body = true ∧ mark = true := h
    exact if_pos (by simp [hmark.1, hmark.2])

lemma bucketOf_step_of_not_counts (h : ¬ Counts event) : bucketOf (step limiter event) key = bucketOf limiter key := by
  obtain ⟨call, now⟩ := event
  cases call with
  | waitForEtoroSlot settings => exact absurd trivial h
  | etoroCooldownRemaining settings => exact bucketOf_setdefault key
  | markEtoroRateLimited settings statusCode body mark =>
    have hmark : ¬ (isRateLimited statusCode body && mark) = true := by simpa [Counts] using h
    rw [step]
    simp only [if_neg hmark]

theorem isolated : Keyed.Isolated step bucketOf Concerns bucketStep where
  own limiter event key h := by
    have hbucket : (bucketStep (bucketOf limiter event.key) event).key = key := by
      rw [key_bucketStep, key_bucketOf, h.1]
    rw [step_of_counts h.2]
    calc
      bucketOf (put limiter (bucketStep (bucketOf limiter event.key) event)) key
          = bucketStep (bucketOf limiter event.key) event := by
        rw [← hbucket]
        exact bucketOf_put_self
      _ = bucketStep (bucketOf limiter key) event := by rw [h.1]
  other limiter event key h := by
    by_cases hcounts : Counts event
    · have hkey : event.key ≠ key := fun heq => h ⟨heq, hcounts⟩
      rw [step_of_counts hcounts]
      exact bucketOf_put_other (by rwa [key_bucketStep, key_bucketOf])
    · exact bucketOf_step_of_not_counts hcounts

structure History where
  limiter : Limiter
  log : List (Event × Answer)

def History.empty : History := ⟨[], []⟩

def History.step (history : History) (event : Event) : History :=
  ⟨EtoroRateLimit.step history.limiter event, history.log ++ [(event, answer history.limiter event)]⟩

def History.run (events : List Event) : History := Runs.run History.step History.empty events

def grantOf (key : String) : Event × Answer → Option ℚ
  | (event, .turn .granted) => if event.key = key then some event.now else none
  | _ => none

def cooldownOf (key : String) : Event × Answer → Option ℚ
  | (⟨.markEtoroRateLimited settings _ _ true, now⟩, .limited true) =>
      if settings.key = key then some (now + settings.cooldown) else none
  | _ => none

def grants (key : String) (log : List (Event × Answer)) : List ℚ := log.filterMap (grantOf key)

def cooldowns (key : String) (log : List (Event × Answer)) : List ℚ := log.filterMap (cooldownOf key)

lemma grants_concat {log : List (Event × Answer)} {entry : Event × Answer} :
    grants key (log ++ [entry]) = grants key log ++ (grantOf key entry).toList := by
  rw [grants, List.filterMap_append]
  rfl

lemma cooldowns_concat {log : List (Event × Answer)} {entry : Event × Answer} :
    cooldowns key (log ++ [entry]) = cooldowns key log ++ (cooldownOf key entry).toList := by
  rw [cooldowns, List.filterMap_append]
  rfl

structure Tracks (key : String) (bucket : Bucket) (log : List (Event × Answer)) : Prop where
  last : IsGreatest {t | t ∈ 0 :: grants key log} bucket.last_request_at
  blocked : IsGreatest {t | t ∈ 0 :: cooldowns key log} bucket.blocked_until

lemma isGreatest_concat_max {x t : ℚ} {l : List ℚ} (h : IsGreatest {s | s ∈ 0 :: l} x) :
    IsGreatest {s | s ∈ 0 :: (l ++ [t])} (max x t) := by
  have hset : {s | s ∈ 0 :: (l ++ [t])} = {s | s ∈ 0 :: l} ∪ {t} := by
    ext s
    simp [or_assoc, or_comm]
  rw [hset]
  exact h.union isGreatest_singleton

lemma turn_granted_iff : turn bucket settings now = .granted ↔
    bucket.blocked_until ≤ now ∧ bucket.last_request_at + settings.minInterval ≤ now := by
  rw [turn, waitSeconds]
  split_ifs with hblocked hwait
  · exact ⟨fun h => (nomatch h), fun h => absurd hblocked h.1.not_gt⟩
  · exact ⟨fun _ => ⟨not_lt.mp hblocked, sub_nonpos.mp hwait⟩, fun _ => rfl⟩
  · exact ⟨fun h => (nomatch h), fun h => absurd (sub_nonpos.mpr h.2) hwait⟩

lemma turn_raised_iff : (turn bucket settings now).isRaised = true ↔ now < bucket.blocked_until := by
  rw [turn]
  split_ifs with hblocked hwait
  · exact ⟨fun _ => hblocked, fun _ => rfl⟩
  · exact ⟨fun h => (nomatch h), fun h => absurd h hblocked⟩
  · exact ⟨fun h => (nomatch h), fun h => absurd h hblocked⟩

lemma turn_sleeps {seconds : ℚ} (h : turn bucket settings now = .sleeps seconds) :
    seconds = min (waitSeconds bucket settings now) 2 ∧ 0 < seconds := by
  rw [turn] at h
  split_ifs at h with hblocked hwait
  obtain rfl := (Turn.sleeps.inj h).symm
  exact ⟨rfl, lt_min (not_le.mp hwait) two_pos⟩

lemma grantOf_of_key_ne (h : event.key ≠ key) {answer : Answer} : grantOf key (event, answer) = none := by
  unfold grantOf
  split
  · next heq =>
    obtain ⟨rfl, rfl⟩ := Prod.mk.inj heq
    exact if_neg h
  · rfl

lemma cooldownOf_of_key_ne (h : event.key ≠ key) {answer : Answer} : cooldownOf key (event, answer) = none := by
  unfold cooldownOf
  split
  · next heq =>
    obtain ⟨rfl, rfl⟩ := Prod.mk.inj heq
    exact if_neg h
  · rfl

variable {history : History} {log : List (Event × Answer)} {entry : Event × Answer}

lemma Tracks.quiet (h : Tracks key bucket log) (hgrant : grantOf key entry = none)
    (hcooldown : cooldownOf key entry = none) : Tracks key bucket (log ++ [entry]) where
  last := by
    rw [grants_concat, hgrant, Option.toList_none, List.append_nil]
    exact h.last
  blocked := by
    rw [cooldowns_concat, hcooldown, Option.toList_none, List.append_nil]
    exact h.blocked

lemma Tracks.grant (h : Tracks key bucket log) (hgrant : grantOf key entry = some now)
    (hcooldown : cooldownOf key entry = none) (hle : bucket.last_request_at ≤ now) :
    Tracks key { bucket with last_request_at := now } (log ++ [entry]) where
  last := by
    have hmax := isGreatest_concat_max (t := now) h.last
    rw [max_eq_right hle] at hmax
    rwa [grants_concat, hgrant]
  blocked := by
    rw [cooldowns_concat, hcooldown, Option.toList_none, List.append_nil]
    exact h.blocked

lemma Tracks.mark (h : Tracks key bucket log) (hgrant : grantOf key entry = none) {body : String}
    (hcooldown : cooldownOf key entry = some (now + settings.cooldown)) :
    Tracks key (afterMark bucket settings body now) (log ++ [entry]) where
  last := by
    rw [grants_concat, hgrant, Option.toList_none, List.append_nil]
    exact h.last
  blocked := by
    rw [cooldowns_concat, hcooldown]
    exact isGreatest_concat_max h.blocked

lemma grantOf_turn (hkey : settings.key = key) (now : ℚ) (turn : Turn) :
    grantOf key (⟨.waitForEtoroSlot settings, now⟩, .turn turn) = if turn = .granted then some now else none := by
  cases turn with
  | granted => exact if_pos hkey
  | raised message => rfl
  | sleeps seconds => rfl

lemma cooldownOf_mark (hkey : settings.key = key) (statusCode : ℕ) (body : String) (mark : Bool) (now : ℚ) :
    cooldownOf key
      (⟨.markEtoroRateLimited settings statusCode body mark, now⟩, .limited (isRateLimited statusCode body)) =
      if isRateLimited statusCode body = true ∧ mark = true then some (now + settings.cooldown) else none := by
  cases hlimited : isRateLimited statusCode body
  · cases mark <;> rfl
  · cases mark
    · rfl
    · exact if_pos hkey

lemma Tracks.step (h : Tracks key (bucketOf history.limiter key) history.log) (event : Event) :
    Tracks key (bucketOf (history.step event).limiter key) (history.step event).log := by
  by_cases hkey : event.key = key
  · obtain ⟨call, now⟩ := event
    cases call with
    | waitForEtoroSlot settings =>
      replace hkey : settings.key = key := hkey
      have hbucket : bucketOf (EtoroRateLimit.step history.limiter ⟨.waitForEtoroSlot settings, now⟩) key
          = afterTurn (bucketOf history.limiter key) settings now := isolated.own _ _ _ ⟨hkey, trivial⟩
      have hgrant := grantOf_turn hkey now (turn (bucketOf history.limiter settings.key) settings now)
      rw [hkey] at hgrant
      rw [History.step, hbucket, afterTurn, answer]
      simp only [hkey]
      by_cases hturn : turn (bucketOf history.limiter key) settings now = .granted
      · have hspaced := (turn_granted_iff.mp hturn).2
        rw [if_pos hturn] at hgrant ⊢
        exact h.grant hgrant rfl (by linarith [minInterval_nonneg settings])
      · rw [if_neg hturn] at hgrant ⊢
        exact h.quiet hgrant rfl
    | etoroCooldownRemaining settings =>
      have hbucket : bucketOf (EtoroRateLimit.step history.limiter ⟨.etoroCooldownRemaining settings, now⟩) key
          = bucketOf history.limiter key := isolated.other _ _ _ fun hc => hc.2
      rw [History.step, hbucket]
      exact h.quiet rfl rfl
    | markEtoroRateLimited settings statusCode body mark =>
      have hcooldown := cooldownOf_mark hkey statusCode body mark now
      by_cases hcounts : isRateLimited statusCode body = true ∧ mark = true
      · have hbucket : bucketOf (EtoroRateLimit.step history.limiter
            ⟨.markEtoroRateLimited settings statusCode body mark, now⟩) key
            = afterMark (bucketOf history.limiter key) settings body now := isolated.own _ _ _ ⟨hkey, hcounts⟩
        rw [if_pos hcounts] at hcooldown
        rw [History.step, hbucket]
        exact h.mark rfl hcooldown
      · have hbucket : bucketOf (EtoroRateLimit.step history.limiter
            ⟨.markEtoroRateLimited settings statusCode body mark, now⟩) key
            = bucketOf history.limiter key := isolated.other _ _ _ fun hc => hcounts hc.2
        rw [if_neg hcounts] at hcooldown
        rw [History.step, hbucket]
        exact h.quiet rfl hcooldown
  · rw [History.step, isolated.other _ _ _ fun hc => hkey hc.1]
    exact h.quiet (grantOf_of_key_ne hkey) (cooldownOf_of_key_ne hkey)

lemma tracks_run (events : List Event) (key : String) :
    Tracks key (bucketOf (History.run events).limiter key) (History.run events).log := by
  refine Runs.invariant_of_step (I := fun history : History => Tracks key (bucketOf history.limiter key) history.log)
    (fun history event h => h.step event) ?_ events
  exact ⟨by simp [History.empty, bucketOf, grants, Bucket.fresh, Table.find, isGreatest_singleton],
    by simp [History.empty, bucketOf, cooldowns, Bucket.fresh, Table.find, isGreatest_singleton]⟩

/-- Whatever the accounts' callers did in whatever order, a caller is turned away exactly while a
refusal of its own account lasts, and let through exactly when every earlier call of the account lies
its minimum interval back; otherwise it sleeps, never past the moment it could be let through. -/
theorem waitForEtoroSlot_answers (events : List Event) (settings : Settings) {now : ℚ} (hnow : 0 ≤ now) :
    ((turn (bucketOf (History.run events).limiter settings.key) settings now).isRaised = true ↔
      ∃ ends ∈ cooldowns settings.key (History.run events).log, now < ends) ∧
    (turn (bucketOf (History.run events).limiter settings.key) settings now = .granted ↔
      (∀ ends ∈ cooldowns settings.key (History.run events).log, ends ≤ now) ∧
      ∀ earlier ∈ 0 :: grants settings.key (History.run events).log, earlier + settings.minInterval ≤ now) ∧
    ∀ seconds, turn (bucketOf (History.run events).limiter settings.key) settings now = .sleeps seconds →
      0 < seconds ∧ seconds ≤ 2 ∧
      ∃ earlier ∈ 0 :: grants settings.key (History.run events).log,
        now + seconds ≤ earlier + settings.minInterval := by
  have htracks := tracks_run events settings.key
  set bucket := bucketOf (History.run events).limiter settings.key
  have hblocked : now < bucket.blocked_until ↔
      ∃ ends ∈ cooldowns settings.key (History.run events).log, now < ends := by
    rw [lt_isLUB_iff htracks.blocked.isLUB]
    simp [hnow.not_gt]
  have hspaced : bucket.last_request_at + settings.minInterval ≤ now ↔
      ∀ earlier ∈ 0 :: grants settings.key (History.run events).log, earlier + settings.minInterval ≤ now := by
    rw [← le_sub_iff_add_le, isLUB_le_iff htracks.last.isLUB]
    simp only [← le_sub_iff_add_le]
    rfl
  refine ⟨turn_raised_iff.trans hblocked, ?_, fun seconds hsleeps => ?_⟩
  · rw [turn_granted_iff, hspaced, ← not_lt, hblocked]
    simp
  · obtain ⟨hseconds, hpos⟩ := turn_sleeps hsleeps
    have hwait : seconds ≤ waitSeconds bucket settings now := hseconds.trans_le (min_le_left _ _)
    rw [waitSeconds] at hwait
    exact ⟨hpos, hseconds.trans_le (min_le_right _ _), bucket.last_request_at, htracks.last.1, by linarith⟩

def liveAccount : Settings := ⟨"live-key", some (some (5 / 4)), none⟩

-- One call let through and then refused, with a refusal of another account in between.
def refusedOnce : List Event :=
  [⟨.waitForEtoroSlot liveAccount, 10⟩, ⟨.markEtoroRateLimited ⟨"", none, none⟩ 429 "" true, 11⟩,
    ⟨.markEtoroRateLimited liveAccount 429 "" true, 12⟩]

theorem kept_out_until_cooldown_ends :
    (turn (bucketOf (History.run refusedOnce).limiter liveAccount.key) liveAccount 311).isRaised = true ∧
      turn (bucketOf (History.run refusedOnce).limiter liveAccount.key) liveAccount 312 = .granted := by
  have hcooldowns : cooldowns liveAccount.key (History.run refusedOnce).log = [312] := by decide +kernel
  have hgrants : grants liveAccount.key (History.run refusedOnce).log = [10] := by decide +kernel
  have hearly : (0 : ℚ) ≤ 311 := by decide +kernel
  have hlate : (0 : ℚ) ≤ 312 := by decide +kernel
  constructor
  · refine (waitForEtoroSlot_answers refusedOnce liveAccount hearly).1.mpr ⟨312, ?_, by decide +kernel⟩
    rw [hcooldowns]
    exact List.mem_singleton_self _
  · refine (waitForEtoroSlot_answers refusedOnce liveAccount hlate).2.1.mpr ?_
    rw [hcooldowns, hgrants]
    decide +kernel

def PacedBy (gap : ℚ) (key : String) (event : Event) : Prop :=
  event.key = key → gap ≤ event.call.settings.minInterval

lemma apart_step {gap : ℚ} (htracks : Tracks key (bucketOf history.limiter key) history.log)
    (hpaced : PacedBy gap key event) (h : Spaced.Apart gap (grants key history.log)) :
    Spaced.Apart gap (grants key (history.step event).log) := by
  rw [History.step, grants_concat]
  cases hgrant : grantOf key (event, answer history.limiter event) with
  | none =>
    rw [Option.toList_none, List.append_nil]
    exact h
  | some t =>
    obtain ⟨call, now⟩ := event
    by_cases hkey : call.settings.key = key
    · cases call with
      | waitForEtoroSlot settings =>
        replace hkey : settings.key = key := hkey
        change grantOf key (_, .turn (turn (bucketOf history.limiter settings.key) settings now)) = _ at hgrant
        rw [grantOf_turn hkey] at hgrant
        split_ifs at hgrant with hturn
        obtain rfl := Option.some.inj hgrant
        rw [hkey] at hturn
        have hgap : gap ≤ settings.minInterval := hpaced hkey
        refine h.concat fun x hx => ?_
        have hlast : x ≤ (bucketOf history.limiter key).last_request_at :=
          htracks.last.2 (List.mem_cons_of_mem _ hx)
        linarith [(turn_granted_iff.mp hturn).2]
      | etoroCooldownRemaining settings => exact nomatch hgrant
      | markEtoroRateLimited settings statusCode body mark => exact nomatch hgrant
    · rw [grantOf_of_key_ne hkey] at hgrant
      exact nomatch hgrant

theorem grants_in_window_le {events : List Event} {key : String} {gap a b : ℚ}
    (hpaced : ∀ event ∈ events, PacedBy gap key event) (hgap : 0 < gap) (hab : a ≤ b) :
    (((grants key (History.run events).log).filter fun t => a ≤ t ∧ t ≤ b).length : ℚ) ≤ (b - a) / gap + 1 := by
  apply Spaced.length_window_le hgap hab
  have hallowed : Runs.Allowed History.step (fun _ event => PacedBy gap key event) History.empty events :=
    Runs.allowed_of_forall hpaced
  have hrun := Runs.invariant
    (I := fun history : History => Tracks key (bucketOf history.limiter key) history.log ∧
      Spaced.Apart gap (grants key history.log))
    (fun history event h hallowed => ⟨h.1.step event, apart_step h.1 hallowed h.2⟩)
    ⟨tracks_run [] key, List.Pairwise.nil⟩ hallowed
  exact hrun.2

theorem one_request_in_a_second :
    let settings : Settings := ⟨"live-key", some (some (5 / 4)), none⟩
    let events : List Event := [⟨.waitForEtoroSlot settings, 10⟩, ⟨.waitForEtoroSlot settings, 21 / 2⟩]
    (((grants settings.key (History.run events).log).filter fun t => 10 ≤ t ∧ t ≤ 11).length : ℚ)
      ≤ (11 - 10) / (5 / 4) + 1 := by
  intro settings events
  have hpaced : ∀ event ∈ events, PacedBy (5 / 4) settings.key event := by
    intro event hevent _
    have hsettings : event.call.settings = settings := by
      rcases List.mem_cons.mp hevent with rfl | hlast
      · rfl
      · rw [List.mem_singleton.mp hlast]
        rfl
    rw [hsettings]
    decide +kernel
  exact grants_in_window_le hpaced (by decide +kernel) (by decide +kernel)

lemma limiter_run (events : List Event) (history : History) :
    (Runs.run History.step history events).limiter = Runs.run step history.limiter events := by
  induction events generalizing history with
  | nil => rfl
  | cons event rest ih => exact ih (history.step event)

lemma answer_congr {other : Limiter} (h : bucketOf limiter event.key = bucketOf other event.key) :
    answer limiter event = answer other event := by
  obtain ⟨call, now⟩ := event
  cases call with
  | waitForEtoroSlot settings =>
    rw [answer, answer]
    exact congrArg (fun bucket => Answer.turn (turn bucket settings now)) h
  | etoroCooldownRemaining settings =>
    rw [answer, answer]
    exact congrArg (fun bucket => Answer.remaining (max 0 (bucket.blocked_until - now))) h
  | markEtoroRateLimited settings statusCode body mark => rfl

/-- What a caller is told is the same with every other account's calls left out, and with the
account's own display-only refusals and cooldown reads left out: no traffic of the demo or the
market-data account, and no read without a mark, keeps the live account out. -/
theorem answer_without_others (events : List Event) (event : Event) :
    answer (History.run events).limiter event =
      answer (History.run (events.filter (Concerns · event.key))).limiter event := by
  apply answer_congr
  rw [History.run, History.run, limiter_run, limiter_run]
  exact (isolated.run_filter [] events event.key).symm

lemma log_run (events : List Event) (history : History) :
    (Runs.run History.step history events).log.map Prod.fst = history.log.map Prod.fst ++ events := by
  induction events generalizing history with
  | nil => rw [List.append_nil]; rfl
  | cons event rest ih =>
    change (Runs.run History.step (history.step event) rest).log.map Prod.fst = _
    rw [ih, History.step, List.map_append, List.append_assoc]
    rfl

lemma now_of_grantOf {t : ℚ} (h : grantOf key entry = some t) : entry.1.now = t := by
  unfold grantOf at h
  split at h
  · split_ifs at h
    exact Option.some.inj h
  · exact nomatch h

lemma exists_event_of_grant {events : List Event} {t : ℚ} (h : t ∈ grants key (History.run events).log) :
    ∃ event ∈ events, event.now = t := by
  obtain ⟨entry, hentry, hgrant⟩ := List.mem_filterMap.mp h
  have hmem : entry.1 ∈ (History.run events).log.map Prod.fst := List.mem_map_of_mem hentry
  rw [History.run, log_run] at hmem
  exact ⟨entry.1, hmem, now_of_grantOf hgrant⟩

lemma last_request_at_congr {other : Bucket} {log' : List (Event × Answer)} (h : Tracks key bucket log)
    (hother : Tracks key other log') (hgrants : grants key log' = grants key log) :
    other.last_request_at = bucket.last_request_at := by
  have hlast := hother.last
  rw [hgrants] at hlast
  exact hlast.unique h.last

/-- The passes one caller makes, each ending in a sleep, with what the other threads do meanwhile:
the sleep is slept to its end, and no other caller of the account is let through. -/
def Sleeping (settings : Settings) : List Event → ℚ → List (List Event × ℚ) → Prop
  | events, now, passes =>
    ∃ seconds, turn (bucketOf (History.run events).limiter settings.key) settings now = .sleeps seconds ∧
      match passes with
      | [] => True
      | (others, later) :: rest =>
        now + seconds ≤ later ∧
        grants settings.key (History.run (events ++ ⟨.waitForEtoroSlot settings, now⟩ :: others)).log
          = grants settings.key (History.run events).log ∧
        Sleeping settings (events ++ ⟨.waitForEtoroSlot settings, now⟩ :: others) later rest
  termination_by _ _ passes => passes

lemma Sleeping.lt_wait {events : List Event} {passes : List (List Event × ℚ)}
    (h : Sleeping settings events now passes) :
    2 * passes.length < waitSeconds (bucketOf (History.run events).limiter settings.key) settings now := by
  induction passes generalizing events now with
  | nil =>
    rw [Sleeping] at h
    obtain ⟨seconds, hsleeps, -⟩ := h
    obtain ⟨hseconds, hpos⟩ := turn_sleeps hsleeps
    have hwait := hpos.trans_le (hseconds.trans_le (min_le_left _ _))
    simpa using hwait
  | cons pass rest ih =>
    obtain ⟨others, later⟩ := pass
    rw [Sleeping] at h
    obtain ⟨seconds, hsleeps, hlater, hgrants, hrest⟩ := h
    have hih := ih hrest
    have hsame := last_request_at_congr (tracks_run events settings.key)
      (tracks_run (events ++ ⟨.waitForEtoroSlot settings, now⟩ :: others) settings.key) hgrants
    have hseconds := (turn_sleeps hsleeps).1
    rw [waitSeconds, hsame] at hih
    rw [waitSeconds] at hseconds ⊢
    have hlength : (0 : ℚ) ≤ 2 * rest.length := by positivity
    -- A next pass that still sleeps means this one slept the whole two seconds.
    have htwo : seconds = 2 := by
      rcases min_choice ((bucketOf (History.run events).limiter settings.key).last_request_at
        + settings.minInterval - now) 2 with hmin | hmin
      · rw [hmin] at hseconds
        linarith
      · exact hseconds.trans hmin
    rw [List.length_cons, Nat.cast_succ]
    linarith

/-- A caller that no other caller of its account overtakes sleeps at most once for every two seconds
of its minimum interval, and once more. -/
theorem passes_lt {events : List Event} {passes : List (List Event × ℚ)} (hnow : 0 ≤ now)
    (hclock : ∀ event ∈ events, event.now ≤ now) (h : Sleeping settings events now passes) :
    2 * passes.length < settings.minInterval := by
  have hwait := h.lt_wait
  have hlast : (bucketOf (History.run events).limiter settings.key).last_request_at ≤ now := by
    rcases List.mem_cons.mp (tracks_run events settings.key).last.1 with hzero | hgrant
    · exact hzero.trans_le hnow
    · obtain ⟨event, hevent, heq⟩ := exists_event_of_grant hgrant
      exact heq ▸ hclock event hevent
  rw [waitSeconds] at hwait
  linarith

def fiveSeconds : Settings := ⟨"", some (some 5), none⟩

-- A call half a second after another one sleeps two seconds twice and is told to sleep a third time.
theorem three_passes_in_five_seconds :
    Sleeping fiveSeconds [⟨.waitForEtoroSlot fiveSeconds, 10⟩] (21 / 2)
        [([⟨.etoroCooldownRemaining fiveSeconds, 11⟩], 25 / 2), ([], 29 / 2)] ∧
      2 * (2 : ℚ) < fiveSeconds.minInterval := by
  have hsleeping : Sleeping fiveSeconds [⟨.waitForEtoroSlot fiveSeconds, 10⟩] (21 / 2)
      [([⟨.etoroCooldownRemaining fiveSeconds, 11⟩], 25 / 2), ([], 29 / 2)] := by
    simp only [Sleeping]
    exact ⟨2, by decide +kernel, by decide +kernel, by decide +kernel, 2, by decide +kernel, by decide +kernel,
      by decide +kernel, 1 / 2, by decide +kernel, trivial⟩
  refine ⟨hsleeping, passes_lt (by decide +kernel) ?_ hsleeping⟩
  intro event hevent
  rw [List.mem_singleton.mp hevent]
  decide +kernel

lemma nodup_setdefault (h : (limiter.map Bucket.key).Nodup) : ((setdefault limiter key).map Bucket.key).Nodup := by
  rw [setdefault]
  cases hfind : Table.find Bucket.key limiter key with
  | some bucket => exact h
  | none =>
    rw [List.map_append]
    refine h.append (List.nodup_singleton _) ?_
    rw [List.map_singleton, List.disjoint_singleton]
    exact Table.not_mem_keys hfind

lemma nodup_step (h : (limiter.map Bucket.key).Nodup) (event : Event) :
    ((step limiter event).map Bucket.key).Nodup := by
  obtain ⟨call, now⟩ := event
  cases call with
  | waitForEtoroSlot settings =>
    change ((Table.replace Bucket.key _ _).map Bucket.key).Nodup
    rw [Table.map_key_replace]
    exact nodup_setdefault h
  | etoroCooldownRemaining settings => exact nodup_setdefault h
  | markEtoroRateLimited settings statusCode body mark =>
    rw [step]
    dsimp only
    split_ifs with hcounts
    · change ((Table.replace Bucket.key _ _).map Bucket.key).Nodup
      rw [Table.map_key_replace]
      exact nodup_setdefault h
    · exact h

lemma nodup_run (events : List Event) : ((History.run events).limiter.map Bucket.key).Nodup := by
  rw [History.run, limiter_run]
  exact Runs.invariant_of_step (I := fun limiter : Limiter => (limiter.map Bucket.key).Nodup)
    (fun limiter event h => nodup_step h event) (s := []) List.nodup_nil events

lemma worst_eq_none (h : worst limiter = none) : limiter = [] := by
  cases limiter with
  | nil => rfl
  | cons bucket rest =>
    rw [worst] at h
    cases hrest : worst rest with
    | none => simp [hrest] at h
    | some other => rw [hrest] at h; dsimp only at h; split_ifs at h

lemma worst_spec {bucket : Bucket} (h : worst limiter = some bucket) :
    bucket ∈ limiter ∧ ∀ other ∈ limiter, other.blocked_until ≤ bucket.blocked_until := by
  induction limiter generalizing bucket with
  | nil => exact nomatch h
  | cons first rest ih =>
    rw [worst] at h
    cases hrest : worst rest with
    | none =>
      obtain rfl := worst_eq_none hrest
      rw [hrest] at h
      obtain rfl := Option.some.inj h
      exact ⟨List.mem_cons_self, fun other hother => (List.mem_singleton.mp hother) ▸ le_rfl⟩
    | some last =>
      obtain ⟨hlast, hall⟩ := ih hrest
      rw [hrest] at h
      dsimp only at h
      split_ifs at h with hle
      · obtain rfl := Option.some.inj h
        refine ⟨List.mem_cons_self, fun other hother => ?_⟩
        rcases List.mem_cons.mp hother with rfl | hmem
        · exact le_rfl
        · exact (hall other hmem).trans hle
      · obtain rfl := Option.some.inj h
        refine ⟨List.mem_cons_of_mem _ hlast, fun other hother => ?_⟩
        rcases List.mem_cons.mp hother with rfl | hmem
        · exact (not_le.mp hle).le
        · exact hall other hmem

lemma bucketOf_of_mem (hnodup : (limiter.map Bucket.key).Nodup) (h : bucket ∈ limiter) :
    bucketOf limiter bucket.key = bucket := by
  rw [bucketOf, Table.find_self hnodup h]
  rfl

lemma mem_of_blocked (limiter : Limiter) (key : String) (h : (bucketOf limiter key).blocked_until ≠ 0) : bucketOf limiter key ∈ limiter := by
  rw [bucketOf] at h ⊢
  cases hfind : Table.find Bucket.key limiter key with
  | none =>
    rw [hfind] at h
    exact absurd rfl h
  | some bucket => exact Table.mem_of_find hfind

lemma cooldown_of_mem {events : List Event} (hmem : bucket ∈ (History.run events).limiter)
    (hne : bucket.blocked_until ≠ 0) : bucket.blocked_until ∈ cooldowns bucket.key (History.run events).log := by
  have hgreatest := (tracks_run events bucket.key).blocked.1
  rw [bucketOf_of_mem (nodup_run events) hmem] at hgreatest
  exact (List.mem_cons.mp hgreatest).resolve_left hne

lemma exists_worst {events : List Event} {ends : ℚ} (hnow : 0 ≤ now)
    (hends : ends ∈ cooldowns key (History.run events).log) (hlt : now < ends) :
    ∃ bucket, worst (History.run events).limiter = some bucket ∧ ends ≤ bucket.blocked_until := by
  have hle : ends ≤ (bucketOf (History.run events).limiter key).blocked_until :=
    (tracks_run events key).blocked.2 (List.mem_cons_of_mem _ hends)
  have hmem := mem_of_blocked (History.run events).limiter key (by linarith)
  cases hworst : worst (History.run events).limiter with
  | none =>
    rw [worst_eq_none hworst] at hmem
    exact absurd hmem List.not_mem_nil
  | some bucket => exact ⟨bucket, rfl, hle.trans ((worst_spec hworst).2 _ hmem)⟩

theorem etoroRateLimitStatus_run (events : List Event) {now : ℚ} (hnow : 0 ≤ now) :
    ((etoroRateLimitStatus (History.run events).limiter now).cooldown_active = true ↔
      ∃ key, ∃ ends ∈ cooldowns key (History.run events).log, now < ends) ∧
    (∀ key, ∀ ends ∈ cooldowns key (History.run events).log, now < ends → Rounding.toDigits 1 (ends - now) ≤
      (etoroRateLimitStatus (History.run events).limiter now).cooldown_remaining_seconds) ∧
    ((etoroRateLimitStatus (History.run events).limiter now).cooldown_active = true →
      ∃ key, ∃ ends ∈ cooldowns key (History.run events).log,
        (etoroRateLimitStatus (History.run events).limiter now).cooldown_remaining_seconds
          = Rounding.toDigits 1 (ends - now)) := by
  have hactive (h : (etoroRateLimitStatus (History.run events).limiter now).cooldown_active = true) :
      ∃ bucket, worst (History.run events).limiter = some bucket ∧ now < bucket.blocked_until := by
    rw [etoroRateLimitStatus] at h
    cases hworst : worst (History.run events).limiter with
    | none => simp [hworst] at h
    | some bucket =>
      simp only [hworst, decide_eq_true_eq, lt_max_iff, lt_self_iff_false, false_or, sub_pos] at h
      exact ⟨bucket, rfl, h⟩
  refine ⟨⟨fun h => ?_, ?_⟩, fun key ends hends hlt => ?_, fun h => ?_⟩
  · obtain ⟨bucket, hworst, hlt⟩ := hactive h
    exact ⟨bucket.key, _, cooldown_of_mem (worst_spec hworst).1 (hnow.trans_lt hlt).ne', hlt⟩
  · rintro ⟨key, ends, hends, hlt⟩
    obtain ⟨bucket, hworst, hle⟩ := exists_worst hnow hends hlt
    simp only [etoroRateLimitStatus, hworst, decide_eq_true_eq, lt_max_iff, lt_self_iff_false, false_or, sub_pos]
    exact hlt.trans_le hle
  · obtain ⟨bucket, hworst, hle⟩ := exists_worst hnow hends hlt
    rw [etoroRateLimitStatus, hworst]
    exact Rounding.toDigits_mono 1 ((sub_le_sub_right hle now).trans (le_max_right _ _))
  · obtain ⟨bucket, hworst, hlt⟩ := hactive h
    refine ⟨bucket.key, _, cooldown_of_mem (worst_spec hworst).1 (hnow.trans_lt hlt).ne', ?_⟩
    rw [etoroRateLimitStatus, hworst]
    dsimp only
    rw [max_eq_right (sub_pos.mpr hlt).le]

-- The live account is kept out until 312; the refusal of the other account ended at 311.
theorem status_after_two_refusals :
    (etoroRateLimitStatus (History.run refusedOnce).limiter (623 / 2)).cooldown_active = true ∧
      Rounding.toDigits 1 (1 / 2) ≤
        (etoroRateLimitStatus (History.run refusedOnce).limiter (623 / 2)).cooldown_remaining_seconds ∧
      (etoroRateLimitStatus (History.run refusedOnce).limiter 312).cooldown_active = false := by
  have hearly : (0 : ℚ) ≤ 623 / 2 := by decide +kernel
  have hlate : (0 : ℚ) ≤ 312 := by decide +kernel
  have hends : (312 : ℚ) ∈ cooldowns liveAccount.key (History.run refusedOnce).log := by decide +kernel
  have hlasts : (623 / 2 : ℚ) < 312 := by decide +kernel
  obtain ⟨hactive, hremaining, -⟩ := etoroRateLimitStatus_run refusedOnce hearly
  refine ⟨hactive.mpr ⟨_, 312, hends, hlasts⟩, ?_, ?_⟩
  · have hlongest := hremaining _ 312 hends hlasts
    have hhalf : (312 : ℚ) - 623 / 2 = 1 / 2 := by norm_num
    rwa [hhalf] at hlongest
  · by_contra hactive'
    obtain ⟨key, ends, hmem, hlt⟩ := (etoroRateLimitStatus_run refusedOnce hlate).1.mp (by simpa using hactive')
    have hover : ∀ entry ∈ (History.run refusedOnce).log, ∀ ends ∈ cooldownOf entry.1.key entry, ends ≤ 312 := by
      decide +kernel
    obtain ⟨entry, hentry, hcooldown⟩ := List.mem_filterMap.mp hmem
    have hkey : entry.1.key = key := by
      by_contra hne
      rw [show entry = (entry.1, entry.2) from rfl, cooldownOf_of_key_ne hne] at hcooldown
      cases hcooldown
    rw [← hkey] at hcooldown
    exact absurd hlt (not_lt.mpr (hover entry hentry ends hcooldown))

end AlgoTrader.Broker.EtoroRateLimit
