import AlgoTrader.Lib.Records
import AlgoTrader.Lib.Runs
import AlgoTrader.Lib.Streak
import AlgoTrader.Utils.Time
import Mathlib.Data.Rat.Floor
import Mathlib.Tactic.Linarith
import Mathlib.Tactic.FieldSimp

/-! The evidence streaks (``app/performance/strategy_evidence.py``): when each key's unbroken run of
passing refreshes began. The verdicts themselves are an input; of each only ``passed`` is read. -/

namespace AlgoTrader.Performance

open AlgoTrader.Utils.Time

structure Verdict where
  passed : Bool
deriving DecidableEq

/-- What is kept under ``VERDICTS_KEY``. A field that is missing or cannot be read is ``none``. -/
structure Payload where
  computedAt : Option Timestamp := none
  verdicts : Option (Records.Dict String Verdict) := none
  passingSince : Option (Records.Dict String Timestamp) := none

def microsPerHour : ℤ := 60 * microsPerMinute
def evidenceStreakMaxGap : ℤ := 2 * microsPerHour
def clockSkew : ℤ := 5 * microsPerMinute

def Continuous (last now : Timestamp) : Prop :=
  -clockSkew ≤ now - last ∧ now - last ≤ evidenceStreakMaxGap

instance (last now : Timestamp) : Decidable (Continuous last now) := inferInstanceAs (Decidable (_ ∧ _))

-- The previous start of the key, when the payload can vouch for the time since it was written.
def carriedStart (previous : Payload) (now : Timestamp) (key : String) : Option Timestamp :=
  match previous.computedAt, previous.verdicts, previous.passingSince with
  | some last, some prior, some since =>
      if Continuous last now ∧ prior.lookup key = some ⟨true⟩ then since.lookup key else none
  | _, _, _ => none

def passingSince (previous : Payload) (verdicts : Records.Dict String Verdict) (now : Timestamp) :
    Records.Dict String Timestamp :=
  Records.rewrite (fun key verdict =>
    if verdict.passed then
      match carriedStart previous now key with
      | some start => some (if start ≤ now then start else now)
      | none => some now
    else none) verdicts

/-- One refresh: when it ran, what the clock read, the verdicts computed, and whether the previous
payload could be read. -/
structure Refresh where
  time : Timestamp
  now : Timestamp
  verdicts : Records.Dict String Verdict
  readable : Bool := true

def refreshVerdicts (stored : Payload) (refresh : Refresh) : Payload :=
  let previous : Payload := if refresh.readable then stored else {}
  { computedAt := some refresh.now
    verdicts := some refresh.verdicts
    passingSince := some (passingSince previous refresh.verdicts refresh.now) }

def verdictKey (strategy : String) (timeframe : Option String) : String :=
  strategy ++ ":" ++ (timeframe.getD "").toLower

def passingHours (cached : Payload) (strategy : String) (timeframe : Option String) (now : Timestamp) :
    Option ℚ :=
  match cached.computedAt, cached.passingSince, cached.verdicts with
  | some computed, some sinceMap, some verdicts =>
      if ¬ Continuous computed now then none
      else if verdicts.lookup (verdictKey strategy timeframe) ≠ some ⟨true⟩ then some 0
      else
        match sinceMap.lookup (verdictKey strategy timeframe) with
        | none => none
        | some since =>
            if computed + clockSkew < since then none
            else some (max (((min now computed - since : ℤ) : ℚ) / microsPerHour) 0)
  | _, _, _ => none

def Refresh.Passes (key : String) (refresh : Refresh) : Prop := refresh.verdicts.lookup key = some ⟨true⟩

def Refresh.Follows (previous next : Refresh) : Prop := Continuous previous.now next.now

section Streaks

variable {key : String} {history : List Refresh} {last : Refresh} {stored start : Payload} {since : Timestamp}

lemma lookup_passingSince (previous : Payload) (verdicts : Records.Dict String Verdict) (now : Timestamp)
    (h : (passingSince previous verdicts now).lookup key = some since) :
    verdicts.lookup key = some ⟨true⟩ ∧
      (since = now ∨ since ≤ now ∧ carriedStart previous now key = some since) := by
  rw [passingSince, Records.lookup_rewrite] at h
  obtain ⟨verdict, hverdict, hsince⟩ := Option.bind_eq_some_iff.mp h
  obtain ⟨passed⟩ := verdict
  cases passed with
  | false => cases hsince
  | true =>
    refine ⟨hverdict, ?_⟩
    cases hcarried : carriedStart previous now key with
    | none =>
      rw [hcarried] at hsince
      exact .inl (Option.some.inj hsince).symm
    | some carried =>
      rw [hcarried] at hsince
      have hvalue : (if carried ≤ now then carried else now) = since := Option.some.inj hsince
      by_cases hle : carried ≤ now
      · rw [if_pos hle] at hvalue
        exact .inr ⟨hvalue ▸ hle, congrArg some hvalue⟩
      · rw [if_neg hle] at hvalue
        exact .inl hvalue.symm

lemma carriedStart_eq_some (previous : Payload) (now : Timestamp)
    (h : carriedStart previous now key = some since) :
    ∃ last prior starts, previous.computedAt = some last ∧ previous.verdicts = some prior ∧
      previous.passingSince = some starts ∧ Continuous last now ∧ prior.lookup key = some ⟨true⟩ ∧
        starts.lookup key = some since := by
  unfold carriedStart at h
  split at h
  · rename_i last prior starts hlast hprior hstarts
    by_cases hcond : Continuous last now ∧ prior.lookup key = some ⟨true⟩
    · rw [if_pos hcond] at h
      exact ⟨last, prior, starts, hlast, hprior, hstarts, hcond.1, hcond.2, h⟩
    · rw [if_neg hcond] at h
      cases h
  · cases h

lemma run_concat (history : List Refresh) (last : Refresh) :
    Runs.run refreshVerdicts start (history ++ [last]) =
      refreshVerdicts (Runs.run refreshVerdicts start history) last := by
  rw [Runs.run, List.foldl_append]
  rfl

/-- The start kept for a key is the stamp of the first refresh of a streak that reaches to the last
one, and no refresh of the streak is stamped before it. -/
def StreakFrom (key : String) (history : List Refresh) (since : Timestamp) : Prop :=
  ∃ first rest, Streak (Refresh.Passes key) Refresh.Follows history (first :: rest) ∧ first.now = since ∧
    ∀ refresh ∈ first :: rest, since ≤ refresh.now

lemma StreakFrom.single (h : last.Passes key) : StreakFrom key (history ++ [last]) last.now := by
  refine ⟨last, [], Streak.start h, rfl, ?_⟩
  intro refresh hmem
  rw [List.mem_singleton.mp hmem]

lemma StreakFrom.extend {previous : Refresh} (h : StreakFrom key (history ++ [previous]) since)
    (hpass : last.Passes key) (hfollows : previous.Follows last) (hle : since ≤ last.now) :
    StreakFrom key (history ++ [previous] ++ [last]) since := by
  obtain ⟨first, rest, hstreak, hfirst, hafter⟩ := h
  refine ⟨first, rest ++ [last], hstreak.extend (List.cons_ne_nil _ _) hpass hfollows, hfirst, ?_⟩
  intro refresh hmem
  rcases List.mem_append.mp (show refresh ∈ (first :: rest) ++ [last] from hmem) with hold | hnew
  · exact hafter refresh hold
  · rwa [List.mem_singleton.mp hnew]

theorem streakFrom_of_run (hfresh : start.passingSince = none) (history : List Refresh)
    {starts : Records.Dict String Timestamp}
    (hstarts : (Runs.run refreshVerdicts start history).passingSince = some starts)
    (hsince : starts.lookup key = some since) : StreakFrom key history since := by
  induction history using List.reverseRecOn generalizing starts since with
  | nil =>
    cases hfresh.symm.trans hstarts
  | append_singleton history last ih =>
    rw [run_concat] at hstarts
    cases hstarts
    obtain ⟨hpass, hnow | ⟨hle, hcarried⟩⟩ := lookup_passingSince _ _ _ hsince
    · exact hnow ▸ StreakFrom.single hpass
    obtain ⟨stamp, prior, starts, hstamp, hprior, hstarts, hgap, hpassed, hstart⟩ :=
      carriedStart_eq_some _ _ hcarried
    cases hreadable : last.readable with
    | false =>
      rw [hreadable] at hstarts
      cases hstarts
    | true =>
      rw [hreadable] at hstarts hstamp
      have hkept := ih hstarts hstart
      cases history using List.reverseRecOn with
      | nil =>
        cases hfresh.symm.trans hstarts
      | append_singleton history previous =>
        rw [if_pos rfl, run_concat] at hstamp
        have hfollows : previous.Follows last := by
          rwa [Refresh.Follows, show previous.now = stamp from Option.some.inj hstamp]
        exact hkept.extend hpass hfollows hle

lemma passingHours_eq_some {strategy : String} {timeframe : Option String} {now : Timestamp} {hours : ℚ}
    (h : passingHours stored strategy timeframe now = some hours) (hpos : 0 < hours) :
    ∃ computed starts, stored.computedAt = some computed ∧ stored.passingSince = some starts ∧
      ∃ since, starts.lookup (verdictKey strategy timeframe) = some since ∧
        hours * microsPerHour ≤ (computed - since : ℤ) := by
  unfold passingHours at h
  split at h
  · rename_i computed starts verdicts hcomputed hstarts hverdicts
    by_cases hstale : Continuous computed now
    · rw [if_neg (not_not.mpr hstale)] at h
      by_cases hpass : verdicts.lookup (verdictKey strategy timeframe) = some ⟨true⟩
      · rw [if_neg (not_not.mpr hpass)] at h
        cases hsince : starts.lookup (verdictKey strategy timeframe) with
        | none =>
          rw [hsince] at h
          cases h
        | some since =>
          rw [hsince] at h
          by_cases hahead : computed + clockSkew < since
          · cases (if_pos hahead).symm.trans h
          · have hmax := Option.some.inj ((if_neg hahead).symm.trans h)
            have hhours : hours = ((min now computed - since : ℤ) : ℚ) / microsPerHour := by
              rcases max_choice (((min now computed - since : ℤ) : ℚ) / microsPerHour) 0 with hl | hr
              · rw [← hmax, hl]
              · exact absurd (hr.symm.trans hmax ▸ hpos) (lt_irrefl _)
            refine ⟨computed, starts, hcomputed, hstarts, since, hsince, ?_⟩
            have hhour : (microsPerHour : ℚ) ≠ 0 := by decide
            rw [hhours, div_mul_cancel₀ _ hhour]
            exact_mod_cast Int.sub_le_sub_right (min_le_right now computed) since
      · rw [if_pos hpass] at h
        exact absurd (Option.some.inj h ▸ hpos) (lt_irrefl _)
    · rw [if_pos hstale] at h
      cases h
  · cases h

theorem streak_of_passingHours (hfresh : start.passingSince = none) (hlast : history.getLast? = some last)
    {strategy : String} {timeframe : Option String} {now : Timestamp} {hours : ℚ}
    (h : passingHours (Runs.run refreshVerdicts start history) strategy timeframe now = some hours)
    (hpos : 0 < hours) :
    ∃ first rest, Streak (Refresh.Passes (verdictKey strategy timeframe)) Refresh.Follows history
        (first :: rest) ∧ hours * microsPerHour ≤ (last.now - first.now : ℤ) := by
  obtain ⟨computed, starts, hcomputed, hstarts, since, hsince, hle⟩ := passingHours_eq_some h hpos
  obtain ⟨first, rest, hstreak, hfirst, _⟩ := streakFrom_of_run hfresh history hstarts hsince
  refine ⟨first, rest, hstreak, ?_⟩
  obtain ⟨before, rfl⟩ := List.getLast?_eq_some_iff.mp hlast
  rw [run_concat] at hcomputed
  cases hcomputed
  rwa [hfirst]

variable {clockError : ℤ} {first : Refresh} {rest : List Refresh} {spanStart : ℚ}

lemma first_le_span (hclock : ∀ refresh ∈ history, |refresh.now - refresh.time| ≤ clockError)
    (hfirst : first ∈ history) (hlast : last ∈ history) {h : ℚ}
    (hspan : h * microsPerHour ≤ (last.now - first.now : ℤ)) :
    (first.time : ℚ) ≤ last.time - h * microsPerHour + 2 * clockError := by
  have hf := abs_le.mp (hclock first hfirst)
  have hl := abs_le.mp (hclock last hlast)
  have hcast : (last.now - first.now : ℤ) ≤ last.time - first.time + 2 * clockError := by linarith
  have hcastℚ : ((last.now - first.now : ℤ) : ℚ) ≤ last.time - first.time + 2 * clockError := by
    exact_mod_cast hcast
  linarith

lemma gap_le (hclock : ∀ refresh ∈ history, |refresh.now - refresh.time| ≤ clockError)
    {previous next : Refresh} (hprevious : previous ∈ history) (hnext : next ∈ history)
    (hfollows : previous.Follows next) : next.time - previous.time ≤ evidenceStreakMaxGap + 2 * clockError := by
  have hp := abs_le.mp (hclock previous hprevious)
  have hn := abs_le.mp (hclock next hnext)
  have hgap : next.now - previous.now ≤ evidenceStreakMaxGap := hfollows.2
  linarith

lemma time_le_last (hordered : history.Pairwise (·.time ≤ ·.time)) (hlast : history.getLast? = some last)
    {refresh : Refresh} (hmem : refresh ∈ history) : refresh.time ≤ last.time := by
  obtain ⟨before, rfl⟩ := List.getLast?_eq_some_iff.mp hlast
  rcases List.mem_append.mp hmem with hold | hnew
  · exact (List.pairwise_append.mp hordered).2.2 refresh hold last (List.mem_singleton.mpr rfl)
  · rw [List.mem_singleton.mp hnew]

lemma passes_of_late (hordered : history.Pairwise (·.time ≤ ·.time))
    (hstreak : Streak (Refresh.Passes key) Refresh.Follows history (first :: rest))
    (hstart : (first.time : ℚ) ≤ spanStart) {refresh : Refresh} (hmem : refresh ∈ history)
    (hlate : spanStart < refresh.time) : refresh.Passes key := by
  obtain ⟨before, hbefore⟩ := hstreak.suffix
  rw [← hbefore] at hmem hordered
  rcases List.mem_append.mp hmem with hold | hin
  · have hle : refresh.time ≤ first.time :=
      (List.pairwise_append.mp hordered).2.2 refresh hold first List.mem_cons_self
    have hleℚ : (refresh.time : ℚ) ≤ first.time := by exact_mod_cast hle
    exact absurd hlate (not_lt.mpr (hleℚ.trans hstart))
  · exact hstreak.all_good refresh hin

lemma follows_of_late (hordered : history.Pairwise (·.time ≤ ·.time))
    (hstreak : Streak (Refresh.Passes key) Refresh.Follows history (first :: rest))
    (hstart : (first.time : ℚ) ≤ spanStart) {before after : List Refresh} {previous next : Refresh}
    (hhistory : history = before ++ previous :: next :: after) (hlate : spanStart < next.time) :
    previous.Follows next := by
  by_contra hfollows
  rw [hhistory] at hstreak hordered
  have hafter : first ∈ next :: after := (hstreak.after_gap hfollows).subset List.mem_cons_self
  have hrest := (List.pairwise_cons.mp (List.pairwise_append.mp hordered).2.1).2
  have hle : next.time ≤ first.time := by
    rcases List.mem_cons.mp hafter with heq | hmem
    · exact heq ▸ le_rfl
    · exact (List.pairwise_cons.mp hrest).1 first hmem
  have hleℚ : (next.time : ℚ) ≤ first.time := by exact_mod_cast hle
  exact absurd hlate (not_lt.mpr (hleℚ.trans hstart))

lemma not_late (hclock : ∀ refresh ∈ history, |refresh.now - refresh.time| ≤ clockError)
    (hordered : history.Pairwise (·.time ≤ ·.time)) (hlast : history.getLast? = some last) {h : ℚ} (hspan : h ≤ 0)
    {refresh : Refresh} (hmem : refresh ∈ history) :
    ¬ last.time - h * microsPerHour + 2 * clockError < (refresh.time : ℚ) := by
  have hle : (refresh.time : ℚ) ≤ last.time := by exact_mod_cast time_le_last hordered hlast hmem
  have herror := (abs_nonneg _).trans (hclock last (List.mem_of_getLast? hlast))
  have herrorℚ : (0 : ℚ) ≤ clockError := by exact_mod_cast herror
  have hhour : (0 : ℚ) ≤ microsPerHour := by decide
  have hback := mul_nonpos_of_nonpos_of_nonneg hspan hhour
  linarith

/-- Refreshes run in the order listed, each stamped by a clock that is off by at most ``clockError``.
Once ``passingHours`` answers at least ``h``, every refresh in the ``h`` hours before the last one
passed, no gap that reaches into these hours was longer than permitted, and a refresh that failed or
missed the key ran before the one these hours are counted from. -/
theorem passingHours_covers_span (hfresh : start.passingSince = none)
    (hclock : ∀ refresh ∈ history, |refresh.now - refresh.time| ≤ clockError)
    (hordered : history.Pairwise (·.time ≤ ·.time)) (hlast : history.getLast? = some last)
    {strategy : String} {timeframe : Option String} {now : Timestamp} {hours h : ℚ}
    (hread : passingHours (Runs.run refreshVerdicts start history) strategy timeframe now = some hours)
    (hh : h ≤ hours) :
    (∀ refresh ∈ history, last.time - h * microsPerHour + 2 * clockError < refresh.time →
      refresh.Passes (verdictKey strategy timeframe)) ∧
    (∀ before previous next after, history = before ++ previous :: next :: after →
      last.time - h * microsPerHour + 2 * clockError < next.time →
        next.time - previous.time ≤ evidenceStreakMaxGap + 2 * clockError) ∧
    ∀ before failed after, history = before ++ failed :: after →
      ¬ failed.Passes (verdictKey strategy timeframe) → 0 < h →
        ∃ first ∈ after, h * microsPerHour ≤ (last.now - first.now : ℤ) := by
  have hmemLast : last ∈ history := List.mem_of_getLast? hlast
  have hhour : (0 : ℚ) ≤ microsPerHour := by decide
  by_cases hpos : 0 < h
  · obtain ⟨first, rest, hstreak, hspan⟩ :=
      streak_of_passingHours hfresh hlast hread (lt_of_lt_of_le hpos hh)
    have hspanh := (mul_le_mul_of_nonneg_right hh hhour).trans hspan
    have hstart := first_le_span hclock (hstreak.suffix.subset List.mem_cons_self) hmemLast hspanh
    refine ⟨?_, ?_, ?_⟩
    · intro refresh hmem hlate
      exact passes_of_late hordered hstreak hstart hmem hlate
    · intro before previous next after hhistory hlate
      have hfollows := follows_of_late hordered hstreak hstart hhistory hlate
      apply gap_le hclock _ _ hfollows
      · rw [hhistory]
        exact List.mem_append_right _ List.mem_cons_self
      · rw [hhistory]
        exact List.mem_append_right _ (List.mem_cons_of_mem _ List.mem_cons_self)
    · intro before failed after hhistory hfailed _
      rw [hhistory] at hstreak
      exact ⟨first, (hstreak.after_bad hfailed).subset List.mem_cons_self, hspanh⟩
  · have hempty {refresh : Refresh} (hmem : refresh ∈ history) := not_late hclock hordered hlast (not_lt.mp hpos) hmem
    refine ⟨?_, ?_, ?_⟩
    · intro refresh hmem hlate
      exact absurd hlate (hempty hmem)
    · intro before previous next after hhistory hlate
      apply absurd hlate (hempty _)
      rw [hhistory]
      exact List.mem_append_right _ (List.mem_cons_of_mem _ List.mem_cons_self)
    · intro before failed after _ _ hpos'
      exact absurd hpos' hpos

def passingVerdicts : Records.Dict String Verdict := AList.singleton "breakout:1d" ⟨true⟩

def passingAt (time : Timestamp) : Refresh := ⟨time, time, passingVerdicts, true⟩

-- Three passing refreshes half an hour apart, read ten minutes after the last one: one hour.
theorem passingHours_covers_span_hour :
    (passingAt (30 * microsPerMinute)).Passes (verdictKey "breakout" (some "1D")) ∧
      (passingAt microsPerHour).Passes (verdictKey "breakout" (some "1D")) := by
  have hread : passingHours (Runs.run refreshVerdicts {}
      [passingAt 0, passingAt (30 * microsPerMinute), passingAt microsPerHour]) "breakout" (some "1D")
        (70 * microsPerMinute) = some 1 := by decide +kernel
  have hclock : ∀ refresh ∈ [passingAt 0, passingAt (30 * microsPerMinute), passingAt microsPerHour],
      |refresh.now - refresh.time| ≤ 0 := by decide +kernel
  have hordered : [passingAt 0, passingAt (30 * microsPerMinute), passingAt microsPerHour].Pairwise
      (·.time ≤ ·.time) := by decide +kernel
  have hpasses := (passingHours_covers_span rfl hclock hordered rfl hread (le_refl 1)).1
  constructor
  · exact hpasses _ (List.mem_cons_of_mem _ List.mem_cons_self) (by decide +kernel)
  · exact hpasses _ (List.mem_cons_of_mem _ (List.mem_cons_of_mem _ List.mem_cons_self)) (by decide +kernel)

end Streaks

end AlgoTrader.Performance
