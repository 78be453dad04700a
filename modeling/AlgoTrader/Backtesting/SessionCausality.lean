import AlgoTrader.Backtesting.Intraday
import Mathlib.Data.List.Dedup

/-! The session helpers never look ahead: the flag of a bar reads the next bar's date and
nothing later, the session ATR of a bar reads sessions that ended before it. -/

namespace AlgoTrader.Backtesting

open Utils.Time

section Sorted

variable {α : Type*} [LinearOrder α]

lemma take_idxOf_eq_filter {l : List α} {d : α} (h : l.Pairwise (· < ·)) (hd : d ∈ l) :
    l.take (l.idxOf d) = l.filter (· < d) := by
  induction l with
  | nil => simp at hd
  | cons a rest ih =>
    obtain ⟨hhead, hrest⟩ := List.pairwise_cons.mp h
    by_cases hda : a = d
    · subst hda
      have hnone : rest.filter (· < a) = [] := by
        rw [List.filter_eq_nil_iff]
        intro x hx
        simpa using (hhead x hx).le
      simp [hnone]
    · have hmem : d ∈ rest := by
        rcases List.mem_cons.mp hd with rfl | hmem
        · exact absurd rfl hda
        · exact hmem
      rw [List.idxOf_cons_ne rest hda, List.take_succ_cons, ih hrest hmem,
        List.filter_cons_of_pos (by simpa using hhead d hmem)]

lemma eq_of_mem_iff {l m : List α} (hl : l.Pairwise (· < ·)) (hm : m.Pairwise (· < ·))
    (h : ∀ x, x ∈ l ↔ x ∈ m) : l = m := by
  have hperm : l.Perm m := by
    apply (List.perm_ext_iff_of_nodup ?_ ?_).mpr h
    · exact hl.imp fun hlt => hlt.ne
    · exact hm.imp fun hlt => hlt.ne
  exact hperm.eq_of_pairwise (fun a b _ _ hab hba => absurd hab hba.asymm) hl hm

end Sorted

variable {clock : NewYorkClock} {frame : Frame}

lemma lastBarOfSession_getElem? (i : ℕ) : (lastBarOfSession clock frame)[i]? =
    (frame[i]?).map fun bar => match frame[i + 1]? with
      | none => true
      | some next => decide (sessionOf clock bar ≠ sessionOf clock next) := by
  induction frame generalizing i with
  | nil => simp [lastBarOfSession]
  | cons a rest ih =>
    cases rest with
    | nil => cases i <;> simp [lastBarOfSession]
    | cons b rest =>
      cases i with
      | zero => simp [lastBarOfSession]
      | succ i => simpa [lastBarOfSession] using ih i

lemma sessions_pairwise (clock : NewYorkClock) (frame : Frame) : (sessions clock frame).Pairwise (· < ·) := by
  have hsorted := List.pairwise_insertionSort (· ≤ ·) (frame.map (sessionOf clock)).dedup
  have hnodup : (sessions clock frame).Nodup :=
    (List.perm_insertionSort _ _).nodup_iff.mpr (List.nodup_dedup _)
  exact (hsorted.and hnodup).imp fun hab => lt_of_le_of_ne hab.1 hab.2

lemma mem_sessions {session : ℤ} :
    session ∈ sessions clock frame ↔ ∃ bar ∈ frame, sessionOf clock bar = session := by
  rw [sessions, (List.perm_insertionSort _ _).mem_iff, List.mem_dedup, List.mem_map]

def priorSessions (clock : NewYorkClock) (frame : Frame) (session : ℤ) : List ℤ :=
  (sessions clock frame).filter (· < session)

lemma trueRanges_take (n : ℕ) (prev : Option ℚ) (days : List DailyRange) :
    (trueRanges prev days).take n = trueRanges prev (days.take n) := by
  induction days generalizing n prev with
  | nil => simp [trueRanges]
  | cons day rest ih =>
    cases n with
    | zero => simp [trueRanges]
    | succ n => cases prev <;> simp [trueRanges, ih]

lemma rollingMean_take (period minPeriods k : ℕ) (values : List ℚ) :
    rollingMean period minPeriods values k = rollingMean period minPeriods (values.take (k + 1)) k := by
  unfold rollingMean
  rw [List.take_take, min_self]

def atrBefore (clock : NewYorkClock) (frame : Frame) (session : ℤ) : Option ℚ :=
  match (priorSessions clock frame session).length with
  | 0 => none
  | k + 1 => rollingMean sessionAtrPeriod (max 3 (sessionAtrPeriod / 3))
      (trueRanges none ((priorSessions clock frame session).map (dailyRange clock frame))) k

lemma sessionAtrByBar_getElem? (i : ℕ) : (sessionAtrByBar clock frame)[i]? =
    (frame[i]?).map fun bar => atrBefore clock frame (sessionOf clock bar) := by
  rw [sessionAtrByBar, List.getElem?_map]
  cases hbar : frame[i]? with
  | none => rfl
  | some bar =>
    simp only [Option.map_some, Option.some.injEq]
    have hmem : sessionOf clock bar ∈ sessions clock frame :=
      mem_sessions.mpr ⟨bar, List.mem_of_getElem? hbar, rfl⟩
    have htake := take_idxOf_eq_filter (sessions_pairwise clock frame) hmem
    have hlength : (priorSessions clock frame (sessionOf clock bar)).length =
        (sessions clock frame).idxOf (sessionOf clock bar) := by
      rw [priorSessions, ← htake, List.length_take]
      exact min_eq_left (List.idxOf_lt_length_iff.mpr hmem).le
    rw [atrBefore, hlength]
    cases hidx : (sessions clock frame).idxOf (sessionOf clock bar) with
    | zero => rfl
    | succ k =>
      dsimp only
      rw [rollingMean_take, trueRanges_take, ← List.map_take, ← hidx, htake]
      rfl

lemma filter_session_take {i : ℕ} {bar : Bar} {session : ℤ} (hsorted : TimeSorted frame)
    (hbar : frame[i]? = some bar) (hlt : session < sessionOf clock bar) :
    frame.filter (fun b => sessionOf clock b = session) =
      (frame.take (i + 1)).filter fun b => sessionOf clock b = session := by
  conv_lhs => rw [← List.take_append_drop (i + 1) frame, List.filter_append]
  have hlater : (frame.drop (i + 1)).filter (fun b => sessionOf clock b = session) = [] := by
    rw [List.filter_eq_nil_iff]
    intro later hlater
    obtain ⟨j, hj⟩ := List.mem_iff_getElem?.mp hlater
    rw [List.getElem?_drop] at hj
    have htime := hsorted.le_of_lt hbar hj (by omega)
    have hdate : sessionOf clock bar ≤ sessionOf clock later := clock.date_mono htime
    simp only [decide_eq_true_eq]
    omega
  rw [hlater, List.append_nil]

lemma priorSessions_take {i : ℕ} {bar : Bar} (hsorted : TimeSorted frame) (hbar : frame[i]? = some bar) :
    priorSessions clock frame (sessionOf clock bar) =
      priorSessions clock (frame.take (i + 1)) (sessionOf clock bar) := by
  apply eq_of_mem_iff
  · exact (sessions_pairwise clock frame).filter _
  · exact (sessions_pairwise clock _).filter _
  · intro session
    simp only [priorSessions, List.mem_filter, decide_eq_true_eq, mem_sessions]
    refine and_congr_left fun hlt => ?_
    have hsame := filter_session_take hsorted hbar hlt
    constructor
    · rintro ⟨b, hb, hsession⟩
      have hmem : b ∈ frame.filter fun b => sessionOf clock b = session := by
        simpa [hsession] using hb
      rw [hsame] at hmem
      exact ⟨b, (List.mem_filter.mp hmem).1, hsession⟩
    · rintro ⟨b, hb, hsession⟩
      exact ⟨b, List.mem_of_mem_take hb, hsession⟩

theorem atrBefore_take {i : ℕ} {bar : Bar} (hsorted : TimeSorted frame) (hbar : frame[i]? = some bar) :
    atrBefore clock frame (sessionOf clock bar) =
      atrBefore clock (frame.take (i + 1)) (sessionOf clock bar) := by
  have hdays : (priorSessions clock frame (sessionOf clock bar)).map (dailyRange clock frame) =
      (priorSessions clock (frame.take (i + 1)) (sessionOf clock bar)).map
        (dailyRange clock (frame.take (i + 1))) := by
    rw [priorSessions_take hsorted hbar]
    apply List.map_congr_left
    intro session hsession
    have hlt : session < sessionOf clock bar := by simpa using (List.mem_filter.mp hsession).2
    unfold dailyRange
    rw [filter_session_take hsorted hbar hlt]
  unfold atrBefore
  rw [hdays, priorSessions_take hsorted hbar]

end AlgoTrader.Backtesting
