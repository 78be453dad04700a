import AlgoTrader.Lib.Cursor
import AlgoTrader.Performance.GoLiveReadiness
import Mathlib.Algebra.Order.BigOperators.Group.List
import Mathlib.Data.List.Forall2
import Mathlib.Tactic.Linarith
import Mathlib.Tactic.NormNum

/-! What the readiness stands for over any run of reconciliations, incidents and refreshes: the drawdown kept
from refresh to refresh, and what a guard that lets live execution through has seen. -/

namespace AlgoTrader.Performance.GoLive

open Rounding (toDigits)
open Utils.Time
open Drawdown (Mark falls)

section Netting

/-- The profit of the counted paper-only positions that had opened by the time. -/
def paperOnlyPnl (positions : List PaperPosition) (since time : Timestamp) : ℚ :=
  (((positions.filter (·.counted since)).filter (·.openedAt ≤ time)).map PaperPosition.pnl).sum

lemma takeWhile_of_sorted {marks : List (Timestamp × ℚ)} (h : marks.Pairwise (·.1 ≤ ·.1)) (time : Timestamp) :
    marks.takeWhile (·.1 ≤ time) = marks.filter (·.1 ≤ time) := by
  induction marks with
  | nil => rfl
  | cons mark rest ih =>
    obtain ⟨hfirst, hrest⟩ := List.pairwise_cons.mp h
    by_cases hmark : mark.1 ≤ time
    · rw [List.takeWhile_cons_of_pos (by simpa using hmark), List.filter_cons_of_pos (by simpa using hmark), ih hrest]
    · rw [List.takeWhile_cons_of_neg (by simpa using hmark), List.filter_eq_nil_iff.mpr]
      intro other hother
      rcases List.mem_cons.mp hother with rfl | hlater
      · simpa using hmark
      · simpa using (not_le.mp hmark).trans_le (hfirst other hlater)

lemma nettedAt_paperOnlyMarks (positions : List PaperPosition) (since time : Timestamp) :
    nettedAt (paperOnlyMarks positions since) time = paperOnlyPnl positions since time := by
  have hperm := ((List.perm_insertionSort (fun a b : Timestamp × ℚ => a.1 ≤ b.1)
    ((positions.filter (·.counted since)).map fun position => (position.openedAt, position.pnl))).filter
      (·.1 ≤ time)).map Prod.snd
  have htotal : Std.Total fun a b : Timestamp × ℚ => a.1 ≤ b.1 := ⟨fun a b => le_total a.1 b.1⟩
  have htrans : IsTrans (Timestamp × ℚ) fun a b => a.1 ≤ b.1 := ⟨fun _ _ _ hab hbc => le_trans hab hbc⟩
  rw [nettedAt, paperOnlyMarks, takeWhile_of_sorted (List.pairwise_insertionSort _ _), hperm.sum_eq, List.filter_map,
    List.map_map, paperOnlyPnl]
  rfl

end Netting

section Tracking

variable {refreshes : List Refresh} {log read rest : List Reading} {w : Watermark} {net : List ℚ} {since : Timestamp}

/-- A reading net of the paper-only profit that one of the refreshes saw. -/
def NetOf (refreshes : List Refresh) (since : Timestamp) (reading : Reading) (value : ℚ) : Prop :=
  ∃ refresh ∈ refreshes, ∃ equity, reading.equity = some equity ∧
    value = equity - paperOnlyPnl refresh.positions since reading.createdAt

structure Watermark.Tracks (refreshes : List Refresh) (log : List Reading) (w : Watermark) (read rest : List Reading)
    (net : List ℚ) : Prop where
  split : log.filter (w.since ≤ ·.createdAt) = read ++ rest
  last : w.lastTs = read.getLast?.map Reading.createdAt
  netted : List.Forall₂ (NetOf refreshes w.since) (read.filter (·.equity.isSome)) net
  mark : (⟨w.peak, w.maxDdPct⟩ : Mark ℚ ℚ) = Mark.seeAll fallPct ⟨0, 0⟩ net

lemma tracks_fresh (refreshes : List Refresh) (log : List Reading) (since : Timestamp) :
    ({ since, netOfPaperOnly := true } : Watermark).Tracks refreshes log []
      (log.filter (since ≤ ·.createdAt)) [] :=
  ⟨rfl, rfl, List.Forall₂.nil, rfl⟩

lemma Watermark.Tracks.isGreatest_worst (h : w.Tracks refreshes log read rest net) :
    IsGreatest (insert 0 (falls fallPct 0 net)) w.maxDdPct := by
  have hworst : IsGreatest (insert 0 (falls fallPct 0 net)) (Mark.seeAll fallPct ⟨0, 0⟩ net).worst :=
    Mark.isGreatest_worst
  rwa [← h.mark] at hworst

lemma NetOf.mono {more : List Refresh} {reading : Reading} {value : ℚ} (h : NetOf refreshes since reading value) :
    NetOf (refreshes ++ more) since reading value := by
  obtain ⟨refresh, hrefresh, hequity⟩ := h
  exact ⟨refresh, List.mem_append_left _ hrefresh, hequity⟩

lemma Watermark.Tracks.mono (h : w.Tracks refreshes log read rest net) (more : List Refresh) :
    w.Tracks (refreshes ++ more) log read rest net :=
  ⟨h.split, h.last, h.netted.imp fun _ _ => NetOf.mono, h.mark⟩

lemma Watermark.Tracks.log_append (h : w.Tracks refreshes log read rest net) (more : List Reading) :
    w.Tracks refreshes (log ++ more) read (rest ++ more.filter (w.since ≤ ·.createdAt)) net :=
  ⟨by rw [List.filter_append, h.split, List.append_assoc], h.last, h.netted, h.mark⟩

lemma Watermark.see_since (marks : List (Timestamp × ℚ)) (w : Watermark) (reading : Reading) :
    (w.see marks reading).since = w.since := by
  rw [Watermark.see]
  split <;> rfl

lemma Watermark.see_netOfPaperOnly (marks : List (Timestamp × ℚ)) (w : Watermark) (reading : Reading) :
    (w.see marks reading).netOfPaperOnly = w.netOfPaperOnly := by
  rw [Watermark.see]
  split <;> rfl

lemma Watermark.foldl_see (marks : List (Timestamp × ℚ)) (w : Watermark) (rows : List Reading) :
    (rows.foldl (Watermark.see marks) w).since = w.since ∧
      (rows.foldl (Watermark.see marks) w).netOfPaperOnly = w.netOfPaperOnly := by
  induction rows generalizing w with
  | nil => exact ⟨rfl, rfl⟩
  | cons reading rows ih =>
    obtain ⟨hsince, hnet⟩ := ih (w.see marks reading)
    exact ⟨hsince.trans (w.see_since marks reading), hnet.trans (w.see_netOfPaperOnly marks reading)⟩

lemma Watermark.Tracks.see {reading : Reading} {refresh : Refresh}
    (h : w.Tracks refreshes log read (reading :: rest) net) (hrefresh : refresh ∈ refreshes) :
    ∃ more, (w.see (paperOnlyMarks refresh.positions w.since) reading).Tracks refreshes log (read ++ [reading]) rest
      (net ++ more) := by
  have hsplit : log.filter (w.since ≤ ·.createdAt) = (read ++ [reading]) ++ rest := by
    rw [h.split, List.append_assoc, List.singleton_append]
  have hlast : some reading.createdAt = (read ++ [reading]).getLast?.map Reading.createdAt := by
    rw [List.getLast?_append_cons]
    rfl
  rw [Watermark.see]
  cases hequity : reading.equity with
  | none =>
    have hread : (read ++ [reading]).filter (·.equity.isSome) = read.filter (·.equity.isSome) := by
      rw [List.filter_append, List.filter_singleton, hequity]
      exact List.append_nil _
    exact ⟨[], hsplit, hlast, by rw [List.append_nil]; exact hread ▸ h.netted, by rw [List.append_nil]; exact h.mark⟩
  | some equity =>
    have hread : (read ++ [reading]).filter (·.equity.isSome) = read.filter (·.equity.isSome) ++ [reading] := by
      rw [List.filter_append, List.filter_singleton, hequity]
      rfl
    dsimp only
    rw [nettedAt_paperOnlyMarks]
    refine ⟨[equity - paperOnlyPnl refresh.positions w.since reading.createdAt], hsplit, hlast, ?_, ?_⟩
    · dsimp only
      rw [hread]
      exact List.rel_append h.netted (List.Forall₂.cons ⟨refresh, hrefresh, equity, hequity, rfl⟩ List.Forall₂.nil)
    · rw [Mark.seeAll_concat, ← h.mark, Mark.see]
      dsimp only
      rw [fallPct]
      split_ifs with hpeak
      · rfl
      · rw [max_eq_left (h.isGreatest_worst.2 (Set.mem_insert _ _))]

lemma Watermark.Tracks.foldl {rows : List Reading} {refresh : Refresh}
    (h : w.Tracks refreshes log read (rows ++ rest) net) (hrefresh : refresh ∈ refreshes) :
    ∃ more, (rows.foldl (Watermark.see (paperOnlyMarks refresh.positions w.since)) w).Tracks refreshes log
      (read ++ rows) rest (net ++ more) := by
  induction rows generalizing w read net with
  | nil => exact ⟨[], by rw [List.append_nil, List.append_nil]; exact h⟩
  | cons reading rows ih =>
    obtain ⟨first, hfirst⟩ := h.see hrefresh
    obtain ⟨more, hmore⟩ := ih hfirst
    rw [Watermark.see_since, List.append_assoc, List.append_assoc, List.singleton_append] at hmore
    exact ⟨first ++ more, hmore⟩

def due (log : List Reading) (w : Watermark) : List Reading :=
  log.filter fun reading => w.since ≤ reading.createdAt ∧ w.lastTs.all (· < reading.createdAt)

lemma Watermark.Tracks.due_eq (h : w.Tracks refreshes log read rest net)
    (hordered : log.Pairwise (·.createdAt < ·.createdAt)) : due log w = rest := by
  have hsince := hordered.filter fun reading => decide (w.since ≤ reading.createdAt)
  have hstands : Cursor.Stands Reading.createdAt (log.filter (w.since ≤ ·.createdAt)) read rest w.lastTs :=
    ⟨h.split, h.last⟩
  rw [due, ← hstands.unread hsince, List.filter_filter]
  refine List.filter_congr fun reading _ => ?_
  rw [Bool.and_comm, Bool.decide_and, Bool.decide_eq_true]

lemma unread_eq (hordered : log.Pairwise (·.createdAt < ·.createdAt)) : unread log w = (due log w).take readingLimit := by
  have hsorted : (due log w).Pairwise (·.createdAt ≤ ·.createdAt) := (hordered.filter _).imp le_of_lt
  rw [unread, ← due, hsorted.insertionSort_eq]

lemma tracks_startWatermark {stored : Option Watermark} (marks : List (Timestamp × ℚ)) (since : Timestamp)
    (h : ∀ w, stored = some w → w.netOfPaperOnly = true ∧ ∃ read rest net, w.Tracks refreshes log read rest net) :
    (startWatermark stored marks since).since = since ∧ (startWatermark stored marks since).netOfPaperOnly = true ∧
      ∃ read rest net, (startWatermark stored marks since).Tracks refreshes log read rest net := by
  unfold startWatermark
  cases stored with
  | none => exact ⟨rfl, rfl, [], _, [], tracks_fresh refreshes log since⟩
  | some w =>
    obtain ⟨hnet, read, rest, net, htracks⟩ := h w rfl
    dsimp only
    by_cases hsince : w.since = since
    · rw [if_pos hsince, if_pos hnet]
      exact ⟨hsince, hnet, read, rest, net, htracks⟩
    · rw [if_neg hsince]
      exact ⟨rfl, rfl, [], _, [], tracks_fresh refreshes log since⟩

lemma tracks_updateDrawdown {stored : Option Watermark} {refresh : Refresh} (hrefresh : refresh ∈ refreshes)
    (hordered : log.Pairwise (·.createdAt < ·.createdAt))
    (h : ∀ w, stored = some w → w.netOfPaperOnly = true ∧ ∃ read rest net, w.Tracks refreshes log read rest net) :
    (updateDrawdown stored log (paperOnlyMarks refresh.positions since) since).netOfPaperOnly = true ∧
      ∃ read net,
        (updateDrawdown stored log (paperOnlyMarks refresh.positions since) since).Tracks refreshes log
            (read ++ (due log (startWatermark stored (paperOnlyMarks refresh.positions since) since)).take readingLimit)
            ((due log (startWatermark stored (paperOnlyMarks refresh.positions since) since)).drop readingLimit) net ∧
          (updateDrawdown stored log (paperOnlyMarks refresh.positions since) since).since = since := by
  obtain ⟨hsince, hnet, read, rest, net, htracks⟩ :=
    tracks_startWatermark (paperOnlyMarks refresh.positions since) since h
  have hrest := htracks
  rw [← List.take_append_drop readingLimit rest] at hrest
  obtain ⟨more, hmore⟩ := hrest.foldl hrefresh
  obtain ⟨hfoldSince, hfoldNet⟩ := Watermark.foldl_see (paperOnlyMarks refresh.positions since)
    (startWatermark stored (paperOnlyMarks refresh.positions since) since) (rest.take readingLimit)
  rw [hsince] at hmore
  rw [updateDrawdown]
  dsimp only
  rw [unread_eq hordered, htracks.due_eq hordered]
  exact ⟨hfoldNet.trans hnet, read, _, ⟨hmore.split, hmore.last, hmore.netted, hmore.mark⟩, hfoldSince.trans hsince⟩

lemma drop_due_of_few (w : Watermark) (hfew : log.length ≤ readingLimit) : (due log w).drop readingLimit = [] :=
  List.drop_eq_nil_of_le ((List.length_filter_le _ _).trans hfew)

end Tracking

def Event.refresh? : Event → Option Refresh
  | .refresh asked => some asked
  | _ => none

def Event.reading? : Event → Option Reading
  | .reconciled reading => some reading
  | _ => none

def Event.incident? : Event → Option Timestamp
  | .incident time => some time
  | _ => none

def refreshesOf (events : List Event) : List Refresh := events.filterMap Event.refresh?

def readingsOf (events : List Event) : List Reading := events.filterMap Event.reading?

def incidentsOf (events : List Event) : List Timestamp := events.filterMap Event.incident?

section Run

variable {events : List Event} {s : State} {refresh : Refresh}

lemma refreshReadiness_log (s : State) (refresh : Refresh) :
    (refreshReadiness s refresh).readings = s.readings ∧ (refreshReadiness s refresh).incidents = s.incidents := by
  unfold refreshReadiness
  dsimp only
  split <;> exact ⟨rfl, rfl⟩

lemma run_concat (events : List Event) (event : Event) : run (events ++ [event]) = step (run events) event :=
  List.foldl_append

lemma filterMap_concat {α β : Type*} (f : α → Option β) (l : List α) (a : α) :
    (l ++ [a]).filterMap f = l.filterMap f ++ (f a).toList := by
  rw [List.filterMap_append, List.filterMap_cons, List.filterMap_nil]
  cases f a <;> rfl

lemma run_log (events : List Event) :
    (run events).readings = readingsOf events ∧ (run events).incidents = incidentsOf events := by
  induction events using List.reverseRecOn with
  | nil => exact ⟨rfl, rfl⟩
  | append_singleton events event ih =>
    rw [run_concat, readingsOf, incidentsOf, filterMap_concat, filterMap_concat]
    cases event with
    | reconciled reading => exact ⟨congrArg (· ++ [reading]) ih.1, ih.2.trans (List.append_nil _).symm⟩
    | incident time => exact ⟨ih.1.trans (List.append_nil _).symm, congrArg (· ++ [time]) ih.2⟩
    | refresh asked =>
      obtain ⟨hreadings, hincidents⟩ := refreshReadiness_log (run events) asked
      exact ⟨hreadings.trans (ih.1.trans (List.append_nil _).symm),
        hincidents.trans (ih.2.trans (List.append_nil _).symm)⟩

lemma ordered_earlier {event : Event}
    (h : (readingsOf (events ++ [event])).Pairwise (·.createdAt < ·.createdAt)) :
    (readingsOf events).Pairwise (·.createdAt < ·.createdAt) := by
  rw [readingsOf, filterMap_concat] at h
  exact (List.pairwise_append.mp h).1

def Kept (refreshes : List Refresh) (s : State) : Prop :=
  ∀ w, s.watermark = some w → w.netOfPaperOnly = true ∧ ∃ read rest net, w.Tracks refreshes s.readings read rest net

lemma refreshReadiness_cases (s : State) (refresh : Refresh) :
    ((phase3Start refresh.settings s.phase3StartedAt refresh.now).1 = none ∧
      (refreshReadiness s refresh).watermark = s.watermark ∧
        (refreshReadiness s refresh).report = some (notStarted refresh.now)) ∨
    ∃ start, (phase3Start refresh.settings s.phase3StartedAt refresh.now).1 = some start ∧
      (refreshReadiness s refresh).watermark =
          some (updateDrawdown s.watermark s.readings (paperOnlyMarks refresh.positions start) start) ∧
        (refreshReadiness s refresh).report = some (reportOf s refresh start
          (updateDrawdown s.watermark s.readings (paperOnlyMarks refresh.positions start) start)) := by
  unfold refreshReadiness
  dsimp only
  split
  · exact Or.inl ⟨‹_›, rfl, rfl⟩
  · rename_i start hstart
    exact Or.inr ⟨start, hstart, rfl, rfl⟩

def dueAt (earlier : List Event) (refresh : Refresh) (start : Timestamp) : List Reading :=
  due (readingsOf earlier) (startWatermark (run earlier).watermark (paperOnlyMarks refresh.positions start) start)

lemma kept_run (hordered : (readingsOf events).Pairwise (·.createdAt < ·.createdAt)) :
    Kept (refreshesOf events) (run events) := by
  induction events using List.reverseRecOn with
  | nil => exact fun _ h => nomatch h
  | append_singleton events event ih =>
    have hearlier := ih (ordered_earlier hordered)
    rw [run_concat, refreshesOf, filterMap_concat]
    cases event with
    | reconciled reading =>
      intro w hw
      obtain ⟨hnet, read, rest, net, htracks⟩ := hearlier w hw
      exact ⟨hnet, read, _, net, (htracks.log_append [reading]).mono _⟩
    | incident time =>
      intro w hw
      obtain ⟨hnet, read, rest, net, htracks⟩ := hearlier w hw
      exact ⟨hnet, read, rest, net, htracks.mono _⟩
    | refresh refresh =>
      change Kept (refreshesOf events ++ [refresh]) (refreshReadiness (run events) refresh)
      have hmono : ∀ w, (run events).watermark = some w → w.netOfPaperOnly = true ∧ ∃ read rest net,
          w.Tracks (refreshesOf events ++ [refresh]) (run events).readings read rest net := by
        intro w hw
        obtain ⟨hnet, read, rest, net, htracks⟩ := hearlier w hw
        exact ⟨hnet, read, rest, net, htracks.mono [refresh]⟩
      intro w hw
      rw [(refreshReadiness_log (run events) refresh).1]
      rcases refreshReadiness_cases (run events) refresh with ⟨-, hwatermark, -⟩ | ⟨start, -, hwatermark, -⟩
      · exact hmono w (hwatermark.symm.trans hw)
      · obtain rfl := Option.some.inj (hwatermark.symm.trans hw)
        have hlog : (run events).readings.Pairwise (·.createdAt < ·.createdAt) := by
          rw [(run_log events).1]
          exact ordered_earlier hordered
        obtain ⟨hnet, read, net, htracks, -⟩ :=
          tracks_updateDrawdown (List.mem_append_right _ (List.mem_singleton_self refresh)) hlog hmono
        exact ⟨hnet, _, _, net, htracks⟩

lemma tracks_refresh (refresh : Refresh) (start : Timestamp)
    (hordered : (readingsOf events).Pairwise (·.createdAt < ·.createdAt)) :
    ∃ read net, (updateDrawdown (run events).watermark (run events).readings
        (paperOnlyMarks refresh.positions start) start).Tracks (refreshesOf events ++ [refresh]) (readingsOf events)
          (read ++ (dueAt events refresh start).take readingLimit) ((dueAt events refresh start).drop readingLimit) net ∧
        (updateDrawdown (run events).watermark (run events).readings
          (paperOnlyMarks refresh.positions start) start).since = start := by
  have hkept (w : Watermark) (hw : (run events).watermark = some w) : w.netOfPaperOnly = true ∧ ∃ read rest net,
      w.Tracks (refreshesOf events ++ [refresh]) (readingsOf events) read rest net := by
    obtain ⟨hnet, read, rest, net, htracks⟩ := kept_run hordered w hw
    rw [(run_log events).1] at htracks
    exact ⟨hnet, read, rest, net, htracks.mono [refresh]⟩
  rw [(run_log events).1]
  exact (tracks_updateDrawdown (List.mem_append_right _ (List.mem_singleton_self refresh)) hordered hkept).2

/-- Whatever the refreshes read at a time, the drawdown that is kept is the worst fall of one series: the
first readings since its start, in order, each once and net of what a refresh knew of paper-only profit. A
refresh reads on through all that is due, up to its limit. -/
theorem drawdown_run (events : List Event) (hordered : (readingsOf events).Pairwise (·.createdAt < ·.createdAt))
    (w : Watermark) (hw : (run events).watermark = some w) :
    ∃ read rest net, (readingsOf events).filter (w.since ≤ ·.createdAt) = read ++ rest ∧
      w.lastTs = read.getLast?.map Reading.createdAt ∧
      List.Forall₂ (NetOf (refreshesOf events) w.since) (read.filter (·.equity.isSome)) net ∧
        IsGreatest (insert 0 (falls fallPct 0 net)) w.maxDdPct ∧
      ∀ earlier refresh start, events = earlier ++ [.refresh refresh] →
        (phase3Start refresh.settings (run earlier).phase3StartedAt refresh.now).1 = some start →
          ∃ before, read = before ++ (dueAt earlier refresh start).take readingLimit ∧
            rest = (dueAt earlier refresh start).drop readingLimit := by
  by_cases hends : ∃ earlier refresh start, events = earlier ++ [.refresh refresh] ∧
      (phase3Start refresh.settings (run earlier).phase3StartedAt refresh.now).1 = some start
  · obtain ⟨earlier, refresh, start, rfl, hstart⟩ := hends
    have hlog : readingsOf (earlier ++ [.refresh refresh]) = readingsOf earlier := by
      rw [readingsOf, filterMap_concat]
      exact List.append_nil _
    have hrefreshes : refreshesOf (earlier ++ [.refresh refresh]) = refreshesOf earlier ++ [refresh] :=
      filterMap_concat _ _ _
    have hwatermark : w = updateDrawdown (run earlier).watermark (run earlier).readings
        (paperOnlyMarks refresh.positions start) start := by
      rw [run_concat] at hw
      rcases refreshReadiness_cases (run earlier) refresh with ⟨hnone, -, -⟩ | ⟨start', hstart', hnew, -⟩
      · cases hnone.symm.trans hstart
      · obtain rfl := Option.some.inj (hstart'.symm.trans hstart)
        exact Option.some.inj (hw.symm.trans hnew)
    obtain ⟨read, net, htracks, -⟩ := tracks_refresh refresh start (ordered_earlier hordered)
    rw [← hwatermark, ← hrefreshes] at htracks
    rw [hlog]
    refine ⟨_, _, net, htracks.split, htracks.last, htracks.netted, htracks.isGreatest_worst,
      fun earlier' refresh' start' hsame hstart' => ?_⟩
    obtain ⟨rfl, hevent⟩ := List.append_inj' hsame rfl
    obtain rfl := Event.refresh.inj (List.head_eq_of_cons_eq hevent)
    obtain rfl := Option.some.inj (hstart.symm.trans hstart')
    exact ⟨read, rfl, rfl⟩
  · obtain ⟨-, read, rest, net, htracks⟩ := kept_run hordered w hw
    rw [(run_log events).1] at htracks
    exact ⟨read, rest, net, htracks.split, htracks.last, htracks.netted, htracks.isGreatest_worst,
      fun earlier refresh start hsame hstart => absurd ⟨earlier, refresh, start, hsame, hstart⟩ hends⟩

def smallBar : GoLiveSettings := { phase3StartDate := some 0, goLiveMinClosedTrades := 1, goLiveMinCleanWeeks := 1 }

/-- A paper-only position opens before the second reading and is up by 50 at the second refresh. -/
def twoRefreshes : List Event :=
  [.reconciled ⟨microsPerDay, some 10000⟩, .refresh ⟨5 * microsPerDay, smallBar, [], []⟩,
    .incident (6 * microsPerDay), .reconciled ⟨7 * microsPerDay, some 9900⟩,
    .refresh ⟨20 * microsPerDay, smallBar, [⟨8 * microsPerDay, 100, false, "breakout", "1d", 10, 9, 10, 5, false⟩],
      [⟨6 * microsPerDay, true, none, 0, 50, true, true⟩]⟩]

theorem drawdown_run_twoRefreshes :
    ∃ read rest net, (readingsOf twoRefreshes).filter (0 ≤ ·.createdAt) = read ++ rest ∧
      some (7 * microsPerDay) = read.getLast?.map Reading.createdAt ∧
      List.Forall₂ (NetOf (refreshesOf twoRefreshes) 0) (read.filter (·.equity.isSome)) net ∧
        IsGreatest (insert 0 (falls fallPct 0 net)) (3 / 2) ∧
      ∀ earlier refresh start, twoRefreshes = earlier ++ [.refresh refresh] →
        (phase3Start refresh.settings (run earlier).phase3StartedAt refresh.now).1 = some start →
          ∃ before, read = before ++ (dueAt earlier refresh start).take readingLimit ∧
            rest = (dueAt earlier refresh start).drop readingLimit :=
  drawdown_run twoRefreshes (by decide +kernel) ⟨0, some (7 * microsPerDay), 10000, 3 / 2, true, 50⟩ (by decide +kernel)

end Run

section Bars

variable {settings : GoLiveSettings} {trades : List ReadTrade} {drawdown : ℚ} {weeks : ℕ}

lemma of_blockers_eq_nil (h : blockers settings trades drawdown weeks = []) :
    settings.minTrades ≤ trades.length ∧ (profitFactor trades).any (· < settings.minProfitFactor) = false ∧
      drawdown < settings.maxDrawdown ∧ settings.minWeeks ≤ weeks := by
  rw [blockers, List.append_eq_nil_iff, List.append_eq_nil_iff, List.append_eq_nil_iff] at h
  obtain ⟨⟨⟨htrades, hprofit⟩, hdrawdown⟩, hweeks⟩ := h
  split_ifs at htrades hprofit hdrawdown hweeks
  exact ⟨not_lt.mp ‹_›, Bool.eq_false_iff.mpr ‹_›, not_le.mp ‹_›, not_lt.mp ‹_›⟩

lemma grossLoss_nonneg (trades : List ReadTrade) : 0 ≤ grossLoss trades := by
  rw [grossLoss, neg_nonneg]
  refine (List.sum_le_card_nsmul _ 0 fun pnl hpnl => ?_).trans_eq (nsmul_zero _)
  obtain ⟨trade, htrade, rfl⟩ := List.mem_map.mp hpnl
  exact (of_decide_eq_true (List.mem_filter.mp htrade).2).le

lemma grossWin_nonneg (trades : List ReadTrade) : 0 ≤ grossWin trades := by
  refine List.sum_nonneg fun pnl hpnl => ?_
  obtain ⟨trade, htrade, rfl⟩ := List.mem_map.mp hpnl
  exact (of_decide_eq_true (List.mem_filter.mp htrade).2).le

/-- No loss at all counts as an infinite factor, no trade as none. -/
lemma wins_of_profitFactor {least : ℚ} (h : (profitFactor trades).any (· < least) = false) :
    least * grossLoss trades ≤ grossWin trades ∧ (0 < least → 0 < grossWin trades) := by
  have hwin := grossWin_nonneg trades
  rw [profitFactor] at h
  split_ifs at h with hloss hpositive
  · rw [Option.any_some, decide_eq_false_iff_not, not_lt, le_div_iff₀ hloss] at h
    exact ⟨h, fun hleast => (mul_pos hleast hloss).trans_le h⟩
  · have hzero : grossLoss trades = 0 := le_antisymm (not_lt.mp hloss) (grossLoss_nonneg trades)
    rw [hzero, mul_zero]
    exact ⟨hwin, fun _ => hpositive⟩
  · have hzero : grossLoss trades = 0 := le_antisymm (not_lt.mp hloss) (grossLoss_nonneg trades)
    rw [Option.any_some, decide_eq_false_iff_not, not_lt] at h
    rw [hzero, mul_zero]
    exact ⟨hwin, fun hleast => absurd hleast (not_lt.mpr h)⟩

end Bars

section Weeks

variable {weeks : List ℤ} {first weekStart : ℤ} {fuel : ℕ}

lemma cleanFrom_clean {k : ℕ} (h : k < cleanFrom weeks first fuel weekStart) :
    first ≤ weekStart - 7 * k ∧ weekStart - 7 * k ∉ weeks := by
  induction fuel generalizing weekStart k with
  | zero => exact absurd h (Nat.not_lt_zero k)
  | succ fuel ih =>
    rw [cleanFrom] at h
    split_ifs at h with hclean
    · cases k with
      | zero => simpa using hclean
      | succ k =>
        have hrest := ih (Nat.lt_of_succ_lt_succ h)
        rwa [show weekStart - 7 - 7 * (k : ℤ) = weekStart - 7 * ((k + 1 : ℕ) : ℤ) by push_cast; ring] at hrest
    · exact absurd h (Nat.not_lt_zero k)

lemma weekday_monday (date : ℤ) : (monday date + 3) % 7 = 0 := by
  rw [monday, weekday]
  omega

lemma clean_of_lt_cleanWeeks {incidents : List Timestamp} {start now time : Timestamp} {n : ℤ}
    (hn : n ≤ cleanWeeks incidents start now) (htime : time ∈ incidents) (hstart : start ≤ time) :
    utcDate time < lastWeek now - 7 * (n - 1) ∨ lastWeek now + 7 ≤ utcDate time := by
  by_contra hwithin
  rw [not_or, not_lt, not_le] at hwithin
  obtain ⟨hlow, hhigh⟩ := hwithin
  have hlast : (lastWeek now + 3) % 7 = 0 := by
    have h := weekday_monday (utcDate now)
    rw [lastWeek]
    omega
  have hweek := weekday_monday (utcDate time)
  have hbounds : monday (utcDate time) ≤ utcDate time ∧ utcDate time ≤ monday (utcDate time) + 6 := by
    rw [monday, weekday]
    omega
  obtain ⟨k, hk⟩ : ∃ k : ℕ, monday (utcDate time) = lastWeek now - 7 * k :=
    ⟨((lastWeek now - monday (utcDate time)) / 7).toNat, by omega⟩
  have hclean : k < cleanWeeks incidents start now := by omega
  refine (cleanFrom_clean hclean).2 (hk ▸ List.mem_map.mpr ⟨time, List.mem_filter.mpr ⟨htime, decide_eq_true hstart⟩, rfl⟩)

lemma started_of_cleanWeeks {incidents : List Timestamp} {start now : Timestamp} {n : ℤ}
    (hn : n ≤ cleanWeeks incidents start now) (hpos : 0 < n) : utcDate start ≤ lastWeek now - 7 * (n - 1) := by
  obtain ⟨k, rfl⟩ : ∃ k : ℕ, n = k + 1 := ⟨(n - 1).toNat, by omega⟩
  have hclean : k < cleanWeeks incidents start now := by omega
  have h := (cleanFrom_clean hclean).1
  rwa [add_sub_cancel_right]

end Weeks

structure BarMet (earlier : List Event) (refresh : Refresh) (start : Timestamp) : Prop where
  trades : refresh.settings.minTrades ≤
    ((closedTrades refresh.executions start).filter fun trade => !trade.paperOnly).length
  profit : refresh.settings.minProfitFactor *
      grossLoss ((closedTrades refresh.executions start).filter fun trade => !trade.paperOnly) ≤
    grossWin ((closedTrades refresh.executions start).filter fun trade => !trade.paperOnly)
  wins : 0 < refresh.settings.minProfitFactor →
    0 < grossWin ((closedTrades refresh.executions start).filter fun trade => !trade.paperOnly)
  drawdown : ∃ read rest net, (readingsOf earlier).filter (start ≤ ·.createdAt) = read ++ rest ∧
    ((readingsOf earlier).length ≤ readingLimit → rest = []) ∧
      List.Forall₂ (NetOf (refreshesOf earlier ++ [refresh]) start) (read.filter (·.equity.isSome)) net ∧
        ∀ fall ∈ falls fallPct 0 net, fall < refresh.settings.maxDrawdown + 1 / 20000
  clean : ∀ time ∈ incidentsOf earlier, start ≤ time →
    utcDate time < lastWeek refresh.now - 7 * (refresh.settings.minWeeks - 1) ∨ lastWeek refresh.now + 7 ≤ utcDate time
  weeks : 0 < refresh.settings.minWeeks →
    utcDate start ≤ lastWeek refresh.now - 7 * (refresh.settings.minWeeks - 1)

section Guard

variable {events : List Event}

lemma run_report {report : Report} (h : (run events).report = some report) : ∃ earlier refresh later,
    events = earlier ++ .refresh refresh :: later ∧ (∀ event ∈ later, event.refresh? = none) ∧
      (refreshReadiness (run earlier) refresh).report = some report := by
  induction events using List.reverseRecOn with
  | nil => exact nomatch h
  | append_singleton events event ih =>
    rw [run_concat] at h
    have hkept (hevent : event.refresh? = none) (hreport : (run events).report = some report) :
        ∃ earlier refresh later, events ++ [event] = earlier ++ .refresh refresh :: later ∧
          (∀ event ∈ later, event.refresh? = none) ∧ (refreshReadiness (run earlier) refresh).report = some report := by
      obtain ⟨earlier, refresh, later, rfl, hlater, hlast⟩ := ih hreport
      refine ⟨earlier, refresh, later ++ [event], List.append_assoc _ _ _, fun other hother => ?_, hlast⟩
      rcases List.mem_append.mp hother with hmem | hmem
      · exact hlater other hmem
      · exact List.mem_singleton.mp hmem ▸ hevent
    cases event with
    | reconciled reading => exact hkept rfl h
    | incident time => exact hkept rfl h
    | refresh asked => exact ⟨events, asked, [], rfl, fun _ hmem => absurd hmem List.not_mem_nil, h⟩

lemma ordered_before {earlier : List Event} {refresh : Refresh} {later : List Event}
    (h : (readingsOf (earlier ++ .refresh refresh :: later)).Pairwise (·.createdAt < ·.createdAt)) :
    (readingsOf earlier).Pairwise (·.createdAt < ·.createdAt) := by
  rw [readingsOf, List.filterMap_append] at h
  exact (List.pairwise_append.mp h).1

lemma barMet_of_ready {earlier : List Event} {refresh : Refresh} {start : Timestamp}
    (hordered : (readingsOf earlier).Pairwise (·.createdAt < ·.createdAt))
    (h : (reportOf (run earlier) refresh start (updateDrawdown (run earlier).watermark (run earlier).readings
      (paperOnlyMarks refresh.positions start) start)).ready = true) : BarMet earlier refresh start := by
  obtain ⟨htrades, hprofit, hdrawdown, hweeks⟩ := of_blockers_eq_nil (of_decide_eq_true h)
  obtain ⟨hwins, hwin⟩ := wins_of_profitFactor hprofit
  obtain ⟨read, net, htracks, hsince⟩ := tracks_refresh refresh start hordered
  rw [(run_log earlier).2] at hweeks
  have hread := htracks.split
  have hnetted := htracks.netted
  rw [hsince] at hread hnetted
  refine ⟨htrades, hwins, hwin, ⟨_, _, net, hread, drop_due_of_few _, hnetted, fun fall hfall => ?_⟩,
    fun time htime hstart => clean_of_lt_cleanWeeks hweeks htime hstart, started_of_cleanWeeks hweeks⟩
  have hround := (abs_le.mp (Rounding.abs_toDigits_sub_le 4 (updateDrawdown (run earlier).watermark
    (run earlier).readings (paperOnlyMarks refresh.positions start) start).maxDdPct)).1
  have hfallen := htracks.isGreatest_worst.2 (Set.mem_insert_of_mem 0 hfall)
  norm_num at hround
  linarith

/-- When live execution meets no blocker, the last refresh is at most two hours old and saw the bar met:
enough trades that are not paper-only, the wins over the losses, every fall of the net equity within the limit,
and the last weeks since the start of Phase 3 without an incident. -/
theorem live_unlocked (controls : Automation.ControlSettings) (stored : Automation.RuntimeState) (events : List Event)
    (now : Timestamp) (hlive : controls.executionMode = "live")
    (hopen : Automation.executionBlockers controls stored (readinessReady (run events) now) = [])
    (hordered : (readingsOf events).Pairwise (·.createdAt < ·.createdAt)) :
    ∃ earlier refresh later start, events = earlier ++ .refresh refresh :: later ∧
      (∀ event ∈ later, event.refresh? = none) ∧ now - refresh.now ≤ readinessMaxAge ∧
        (phase3Start refresh.settings (run earlier).phase3StartedAt refresh.now).1 = some start ∧
          BarMet earlier refresh start := by
  have hready : readinessReady (run events) now = true := by
    rw [Automation.executionBlockers, if_pos hlive] at hopen
    have hguard := (List.append_eq_nil_iff.mp (List.append_eq_nil_iff.mp hopen).2).2
    rw [Automation.goLiveGuardBlockers] at hguard
    have hfirst := (List.append_eq_nil_iff.mp (List.append_eq_nil_iff.mp hguard).1).1
    by_contra hnot
    rw [if_neg hnot] at hfirst
    exact List.cons_ne_nil _ _ hfirst
  cases hreport : (run events).report with
  | none =>
    rw [readinessReady, hreport] at hready
    exact absurd hready Bool.false_ne_true
  | some report =>
    rw [readinessReady, hreport, Option.any_some, Bool.and_eq_true, decide_eq_true_eq] at hready
    obtain ⟨earlier, refresh, later, rfl, hlater, hlast⟩ := run_report hreport
    rcases refreshReadiness_cases (run earlier) refresh with ⟨-, -, hnone⟩ | ⟨start, hstart, -, hsome⟩
    · obtain rfl := Option.some.inj (hnone.symm.trans hlast)
      exact absurd hready.2 Bool.false_ne_true
    · obtain rfl := Option.some.inj (hsome.symm.trans hlast)
      exact ⟨earlier, refresh, later, start, rfl, hlater, hready.1, hstart,
        barMet_of_ready (ordered_before hordered) hready.2⟩

def liveControls : Automation.ControlSettings where
  executionMode := "live"
  enableRealTrading := true
  paperTradingEnabled := false
  institutionalControlsEnabled := true
  microLiveMaxRiskPct := 1 / 10
  liveOperatorAcknowledgement := Automation.operatorAcknowledgement

theorem live_unlocked_twoRefreshes :
    ∃ earlier refresh later start, twoRefreshes = earlier ++ .refresh refresh :: later ∧
      (∀ event ∈ later, event.refresh? = none) ∧ 20 * microsPerDay + 1 - refresh.now ≤ readinessMaxAge ∧
        (phase3Start refresh.settings (run earlier).phase3StartedAt refresh.now).1 = some start ∧
          BarMet earlier refresh start :=
  live_unlocked liveControls {} twoRefreshes (20 * microsPerDay + 1) rfl (by decide +kernel) (by decide +kernel)

end Guard

end AlgoTrader.Performance.GoLive
