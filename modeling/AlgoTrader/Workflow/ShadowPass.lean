import AlgoTrader.Lib.BoundedLoop
import AlgoTrader.Workflow.ShadowRefresh

/-! What one scoring of a symbol's setups decides: each setup by the bars after its signal, and each one
that fired while an earlier one was in force skipped. -/

namespace AlgoTrader.Workflow

open Backtesting BoundedLoop

def Entry.exit (e : Entry) : Option ℤ := (e.stopTarget.filter fun leg => leg.status = .closed).map (·.exitDate)

def Entry.crosses (e : Entry) (bar : Row) : Bool := (crossed e.short e.stop e.target bar).isSome

def Entry.riskless (e : Entry) (bar : Row) : Prop :=
  ∃ fill, cost.entryFillPrice bar.openPrice e.side false = .ok fill ∧ |fill - e.stop| ≤ 0

section Setup

variable {e e' : Entry} (h : e.setup = e'.setup)

@[simp] lemma Entry.setup_crosses (e : Entry) : e.setup.crosses = e.crosses := rfl
@[simp] lemma Entry.setup_riskless (e : Entry) : e.setup.riskless = e.riskless := rfl
@[simp] lemma Entry.setup_signalBar (e : Entry) : e.setup.signalBar = e.signalBar := rfl
@[simp] lemma Entry.setup_specKey (e : Entry) : e.setup.specKey = e.specKey := rfl

include h

lemma Entry.crosses_eq : e.crosses = e'.crosses := by rw [← setup_crosses, h, setup_crosses]
lemma Entry.riskless_eq : e.riskless = e'.riskless := by rw [← setup_riskless, h, setup_riskless]
lemma Entry.signalBar_eq : e.signalBar = e'.signalBar := by rw [← setup_signalBar, h, setup_signalBar]
lemma Entry.specKey_eq : e.specKey = e'.specKey := by rw [← setup_specKey, h, setup_specKey]

end Setup

structure Entry.ExitOn (e : Entry) (bars : List Row) : Prop where
  crossing : ∀ day, e.exit = some day → ∃ bar ∈ bars, e.signalBar < bar.day ∧ e.crosses bar = true ∧ bar.day = day
  first : ∀ bar ∈ bars, e.signalBar < bar.day → e.crosses bar = true → ∃ day, e.exit = some day ∧ day ≤ bar.day

inductive Fate (bars : List Row) (e : Entry) : Prop where
  | waiting (hstatus : e.status = .pending) (hfirst : bars.find? (fun bar => e.signalBar < bar.day) = none)
  | noRisk (bar : Row) (hstatus : e.status = .noRisk)
      (hfirst : bars.find? (fun bar => e.signalBar < bar.day) = some bar) (hrisk : e.riskless bar)
  | taken (bar : Row) (htaken : e.taken = true)
      (hfirst : bars.find? (fun bar => e.signalBar < bar.day) = some bar) (hrisk : ¬ e.riskless bar)
      (hexit : e.ExitOn bars)

section Follow

variable {entry : Entry} {bars rest : List Row} {first index : ℕ} {fill risk raw : ℚ} {reason : LegReason}

lemma leg_ok {l : Leg} (h : leg entry bars first fill risk index raw reason = .ok l) :
    l.status = .closed ∧ l.exitDate = ((bars[index]?).map (·.day)).getD 0 := by
  simp only [leg, bind_eq_ok, pure_eq_ok] at h
  obtain ⟨price, _, rfl⟩ := h
  exact ⟨rfl, rfl⟩

lemma follow_ok {horizon : ℤ} {timed timed' hit : Option Leg} (hrest : bars.drop index = rest)
    (hsorted : rest.Pairwise fun a b => a.day < b.day)
    (h : follow entry bars first fill risk horizon index rest timed = .ok (hit, timed')) :
    match hit with
    | none => ∀ bar ∈ rest, entry.crosses bar = false
    | some l => l.status = .closed ∧ ∃ bar ∈ rest, entry.crosses bar = true ∧ l.exitDate = bar.day ∧
        ∀ other ∈ rest, entry.crosses other = true → bar.day ≤ other.day := by
  induction rest generalizing index timed with
  | nil =>
    simp only [follow, pure_eq_ok, Prod.mk.injEq] at h
    obtain ⟨rfl, _⟩ := h
    simp
  | cons bar rest ih =>
    simp only [follow, bind_eq_ok] at h
    obtain ⟨timed, _, h⟩ := h
    have hbar : bars[index]? = some bar := by
      rw [← Nat.add_zero index, ← List.getElem?_drop, hrest]
      rfl
    have htail : bars.drop (index + 1) = rest := by rw [← List.tail_drop, hrest, List.tail_cons]
    obtain ⟨hafter, hsortedRest⟩ := List.pairwise_cons.mp hsorted
    cases hcross : crossed entry.short entry.stop entry.target bar with
    | some level =>
      obtain ⟨raw, reason⟩ := level
      simp only [hcross, bind_eq_ok, pure_eq_ok, Prod.mk.injEq] at h
      obtain ⟨l, hleg, rfl, _⟩ := h
      obtain ⟨hclosed, hdate⟩ := leg_ok hleg
      rw [hbar] at hdate
      refine ⟨hclosed, bar, List.mem_cons_self, ?_, hdate, ?_⟩
      · rw [Entry.crosses, hcross]
        rfl
      · intro other hother _
        rcases List.mem_cons.mp hother with rfl | hlater
        · exact le_rfl
        · exact (hafter other hlater).le
    | none =>
      simp only [hcross] at h
      have hnot : entry.crosses bar = false := by rw [Entry.crosses, hcross]; rfl
      have hlater := ih htail hsortedRest h
      cases hit with
      | none =>
        intro other hother
        rcases List.mem_cons.mp hother with rfl | hmem
        · exact hnot
        · exact hlater other hmem
      | some l =>
        obtain ⟨hclosed, found, hfound, hcrosses, hdate, hfirst⟩ := hlater
        refine ⟨hclosed, found, List.mem_cons_of_mem _ hfound, hcrosses, hdate, ?_⟩
        intro other hother hcrossesOther
        rcases List.mem_cons.mp hother with rfl | hmem
        · cases hnot.symm.trans hcrossesOther
        · exact hfirst other hmem hcrossesOther

lemma hitOrMark_exit {hit : Option Leg} {l : Leg} (hclosed : ∀ x, hit = some x → x.status = .closed)
    (h : hitOrMark entry bars first fill risk hit = .ok l) :
    ((some l : Option Leg).filter fun leg => leg.status = .closed).map (·.exitDate) = hit.map (·.exitDate) := by
  cases hit with
  | some x =>
    simp only [hitOrMark, pure_eq_ok] at h
    subst h
    simp [Option.filter, hclosed x rfl]
  | none =>
    simp only [hitOrMark, bind_eq_ok, pure_eq_ok] at h
    obtain ⟨mark, _, rfl⟩ := h
    simp [Option.filter]

lemma scoreFilled_ok {entryDay today : ℤ} {e : Entry} (hsorted : (bars.drop first).Pairwise fun a b => a.day < b.day)
    (hdrop : ∀ bar, bar ∈ bars.drop first ↔ bar ∈ bars ∧ entry.signalBar < bar.day)
    (h : scoreFilled entry bars first fill risk entryDay today = .ok e) :
    e.setup = entry.setup ∧ e.taken = true ∧ e.ExitOn bars := by
  simp only [scoreFilled, bind_eq_ok, pure_eq_ok] at h
  obtain ⟨⟨hit, timed⟩, hfollow, timed', _, l, hmark, he⟩ := h
  have hends := follow_ok rfl hsorted hfollow
  have hclosed : ∀ x, hit = some x → x.status = .closed := by
    rintro x rfl
    exact hends.1
  have hexit : e.exit = hit.map (·.exitDate) := by
    rw [← hitOrMark_exit hclosed hmark, Entry.exit, ← he]
  have hsetup : e.setup = entry.setup := by rw [← he]; rfl
  have hcrosses := Entry.crosses_eq hsetup
  have hsignal := Entry.signalBar_eq hsetup
  refine ⟨hsetup, ?_, ?_, ?_⟩
  · rw [← he, Entry.taken]
    split_ifs <;> simp
  · intro day hday
    rw [hexit] at hday
    cases hit with
    | none => cases hday
    | some x =>
      obtain ⟨_, bar, hbar, hcross, hdate, _⟩ := hends
      obtain ⟨hmem, hafter⟩ := (hdrop bar).mp hbar
      refine ⟨bar, hmem, hsignal ▸ hafter, hcrosses ▸ hcross, ?_⟩
      exact hdate.symm.trans (Option.some.inj hday)
  · intro bar hbar hafter hcross
    rw [hcrosses] at hcross
    have hmem := (hdrop bar).mpr ⟨hbar, hsignal ▸ hafter⟩
    cases hit with
    | none => cases (hends bar hmem).symm.trans hcross
    | some x =>
      obtain ⟨_, found, _, _, hdate, hfirst⟩ := hends
      exact ⟨x.exitDate, hexit, hdate ▸ hfirst bar hmem hcross⟩

lemma mem_drop_findIdx (hsorted : bars.Pairwise fun a b => a.day < b.day) {day : ℤ}
    (hfirst : bars.findIdx? (fun bar => day < bar.day) = some first) (bar : Row) :
    bar ∈ bars.drop first ↔ bar ∈ bars ∧ day < bar.day := by
  induction bars generalizing first with
  | nil => cases hfirst
  | cons head rest ih =>
    obtain ⟨hafter, hsortedRest⟩ := List.pairwise_cons.mp hsorted
    rw [List.findIdx?_cons] at hfirst
    split_ifs at hfirst with hhead
    · obtain rfl := Option.some.inj hfirst
      have hday : day < head.day := of_decide_eq_true hhead
      refine ⟨fun hmem => ⟨hmem, ?_⟩, And.left⟩
      rcases List.mem_cons.mp hmem with rfl | hlater
      · exact hday
      · exact hday.trans (hafter bar hlater)
    · obtain ⟨k, hk, rfl⟩ := Option.map_eq_some_iff.mp hfirst
      rw [List.drop_succ_cons, ih hsortedRest hk]
      constructor
      · rintro ⟨hmem, hlater⟩
        exact ⟨List.mem_cons_of_mem _ hmem, hlater⟩
      · rintro ⟨hmem, hlater⟩
        rcases List.mem_cons.mp hmem with rfl | hold
        · exact absurd (decide_eq_true hlater) hhead
        · exact ⟨hold, hlater⟩

lemma scoreEntry_ok {today : ℤ} {e : Entry} (hsorted : bars.Pairwise fun a b => a.day < b.day)
    (h : scoreEntry entry bars today = .ok e) : e.setup = entry.setup ∧ Fate bars e := by
  rw [scoreEntry] at h
  have hfind : bars.find? (fun bar => entry.signalBar < bar.day) =
      (bars.findIdx? fun bar => entry.signalBar < bar.day).bind (bars[·]?) := List.find?_eq_bind_findIdx?_getElem?
  cases hfirst : bars.findIdx? (fun bar => entry.signalBar < bar.day) with
  | none =>
    simp only [hfirst, pure_eq_ok] at h
    subst h
    rw [hfirst] at hfind
    exact ⟨rfl, .waiting rfl hfind⟩
  | some first =>
    rw [hfirst, Option.bind_some] at hfind
    simp only [hfirst] at h
    cases hget : bars[first]? with
    | none =>
      simp only [hget, pure_eq_ok] at h
      subst h
      exact ⟨rfl, .waiting rfl (hfind.trans hget)⟩
    | some bar =>
      simp only [hget, bind_eq_ok] at h
      obtain ⟨fill, hfill, h⟩ := h
      split_ifs at h with hrisk
      · obtain rfl := (pure_eq_ok _ _).mp h
        exact ⟨rfl, .noRisk bar rfl (hfind.trans hget) ⟨fill, hfill, hrisk⟩⟩
      · have hsortedDrop := hsorted.sublist (List.drop_sublist first bars)
        obtain ⟨hsetup, htaken, hexit⟩ := scoreFilled_ok hsortedDrop (mem_drop_findIdx hsorted hfirst) h
        refine ⟨hsetup, .taken bar htaken ?_ ?_ hexit⟩
        · rw [Entry.signalBar_eq hsetup, hfind, hget]
        · rw [Entry.riskless_eq hsetup]
          rintro ⟨other, hother, hnone⟩
          obtain rfl := Except.ok.inj (hfill.symm.trans hother)
          exact hrisk hnone

end Follow

def Entry.Blocks (a : Entry) (exitDay : Option ℤ) : Prop :=
  a.status = .pending ∧ exitDay = none ∨ a.taken = true ∧ a.exit = exitDay

def Entry.LeftBy (a : Entry) (day : ℤ) : Prop :=
  a.status ≠ .pending ∧ (a.taken = true → ∃ exitDay, a.exit = some exitDay ∧ exitDay ≤ day)

structure Scanned (bars : List Row) (busy : BusyUntil) (done : List Entry) : Prop where
  fate : ∀ e ∈ done, e.status ≠ .skippedOpen → Fate bars e
  held : ∀ e ∈ done, e.taken = true →
    ∃ exitDay, busy e.specKey = some exitDay ∧ ∀ day, exitDay = some day → e.LeftBy day
  waiting : ∀ e ∈ done, e.status = .pending → busy e.specKey = some none
  cause : ∀ spec exitDay, busy spec = some exitDay → ∃ a ∈ done, a.specKey = spec ∧ a.Blocks exitDay
  apart : done.Pairwise fun a b => a.specKey = b.specKey → b.status ≠ .skippedOpen → a.LeftBy b.signalBar
  skipped : ∀ earlier b, earlier ++ [b] <+: done → b.status = .skippedOpen →
    ∃ a ∈ earlier, a.specKey = b.specKey ∧ ∃ exitDay, a.Blocks exitDay ∧ ∀ day, exitDay = some day → b.signalBar < day

section Scan

variable {bars : List Row} {busy busy' : BusyUntil} {done done' : List Entry} {e : Entry} {today : ℤ}

lemma of_blocked (h : blocked busy e = true) :
    ∃ exitDay, busy e.specKey = some exitDay ∧ ∀ day, exitDay = some day → e.signalBar < day := by
  rw [blocked] at h
  cases hbusy : busy e.specKey with
  | none => simp [hbusy] at h
  | some exitDay =>
    refine ⟨exitDay, rfl, ?_⟩
    rintro day rfl
    simpa [hbusy] using h

lemma of_not_blocked (h : blocked busy e = false) {exitDay : Option ℤ} (hbusy : busy e.specKey = some exitDay) :
    ∃ day, exitDay = some day ∧ day ≤ e.signalBar := by
  rw [blocked, hbusy] at h
  cases exitDay with
  | none => simp at h
  | some day => exact ⟨day, rfl, by simpa using h⟩

lemma Scanned.skip (h : Scanned bars busy done) (hblocked : blocked busy e = true) :
    Scanned bars busy (done ++ [skipOpen e]) := by
  have hstatus : (skipOpen e).status = .skippedOpen := rfl
  constructor
  · intro x hx hnot
    rcases List.mem_append.mp hx with hx | hx
    · exact h.fate x hx hnot
    · obtain rfl := List.mem_singleton.mp hx
      exact absurd hstatus hnot
  · intro x hx htaken
    rcases List.mem_append.mp hx with hx | hx
    · exact h.held x hx htaken
    · obtain rfl := List.mem_singleton.mp hx
      simp [Entry.taken, hstatus] at htaken
  · intro x hx hpending
    rcases List.mem_append.mp hx with hx | hx
    · exact h.waiting x hx hpending
    · obtain rfl := List.mem_singleton.mp hx
      cases hstatus.symm.trans hpending
  · intro spec exitDay hbusy
    obtain ⟨a, ha, hspec, hblocks⟩ := h.cause spec exitDay hbusy
    exact ⟨a, List.mem_append_left _ ha, hspec, hblocks⟩
  · refine List.pairwise_append.mpr ⟨h.apart, List.pairwise_singleton _ _, ?_⟩
    intro a _ b hb _ hnot
    obtain rfl := List.mem_singleton.mp hb
    exact absurd hstatus hnot
  · intro earlier b hprefix hskipped
    rcases List.prefix_concat_iff.mp hprefix with heq | hprefix
    · obtain ⟨rfl, hb⟩ := List.append_inj' heq rfl
      obtain rfl := List.singleton_inj.mp hb
      obtain ⟨exitDay, hbusy, hafter⟩ := of_blocked hblocked
      obtain ⟨a, ha, hspec, hblocks⟩ := h.cause _ exitDay hbusy
      exact ⟨a, ha, hspec, exitDay, hblocks, hafter⟩
    · exact h.skipped earlier b hprefix hskipped

lemma Fate.status (h : Fate bars e) : e.status = .pending ∨ e.status = .noRisk ∨ e.taken = true := by
  cases h with
  | waiting hstatus => exact .inl hstatus
  | noRisk _ hstatus => exact .inr (.inl hstatus)
  | taken _ htaken => exact .inr (.inr htaken)

lemma Fate.exit_after (h : Fate bars e) (htaken : e.taken = true) {day : ℤ} (hexit : e.exit = some day) :
    e.signalBar < day := by
  cases h with
  | waiting hstatus => simp [Entry.taken, hstatus] at htaken
  | noRisk _ hstatus => simp [Entry.taken, hstatus] at htaken
  | taken _ _ _ _ hexits =>
    obtain ⟨bar, _, hafter, _, rfl⟩ := hexits.crossing day hexit
    exact hafter

lemma occupy_spec (busy : BusyUntil) (hfate : Fate bars e) (spec : String) :
    (∃ exitDay, e.specKey = spec ∧ e.Blocks exitDay ∧ occupy busy e spec = some exitDay) ∨
      occupy busy e spec = busy spec ∧ (e.specKey = spec → e.status = .noRisk) := by
  rw [occupy]
  by_cases hspec : e.specKey = spec
  · subst hspec
    rcases hfate.status with hpending | hdud | htaken
    · have hnot : e.taken = false := by simp [Entry.taken, hpending]
      exact .inl ⟨none, rfl, .inl ⟨hpending, rfl⟩, by simp [hnot, hpending]⟩
    · have hnot : e.taken = false := by simp [Entry.taken, hdud]
      exact .inr ⟨by simp [hnot, hdud], fun _ => hdud⟩
    · exact .inl ⟨e.exit, rfl, .inr ⟨htaken, rfl⟩, by simp [htaken, Entry.exit]⟩
  · refine .inr ⟨?_, fun heq => absurd heq hspec⟩
    split_ifs
    · exact Function.update_of_ne (Ne.symm hspec) _ _
    · exact Function.update_of_ne (Ne.symm hspec) _ _
    · rfl

lemma Entry.LeftBy.mono {day later : ℤ} (h : e.LeftBy day) (hle : day ≤ later) : e.LeftBy later := by
  refine ⟨h.1, fun htaken => ?_⟩
  obtain ⟨exitDay, hexit, hday⟩ := h.2 htaken
  exact ⟨exitDay, hexit, hday.trans hle⟩

lemma Scanned.leftBy (h : Scanned bars busy done) (hfree : blocked busy e = false) {a : Entry} (ha : a ∈ done)
    (hspec : a.specKey = e.specKey) : a.LeftBy e.signalBar := by
  refine ⟨?_, ?_⟩
  · intro hpending
    have hbusy := hspec ▸ h.waiting a ha hpending
    obtain ⟨day, hday, _⟩ := of_not_blocked hfree hbusy
    cases hday
  · intro htaken
    obtain ⟨exitDay, hbusy, hleft⟩ := h.held a ha htaken
    obtain ⟨day, rfl, hle⟩ := of_not_blocked hfree (hspec ▸ hbusy)
    exact ((hleft day rfl).mono hle).2 htaken

lemma Scanned.score (h : Scanned bars busy done) (hfree : blocked busy e = false) (hfate : Fate bars e) :
    Scanned bars (occupy busy e) (done ++ [e]) := by
  have hnot : e.status ≠ .skippedOpen := by
    intro hskipped
    rcases hfate.status with hstatus | hstatus | htaken
    · cases hskipped.symm.trans hstatus
    · cases hskipped.symm.trans hstatus
    · simp [Entry.taken, hskipped] at htaken
  constructor
  · intro x hx hdecided
    rcases List.mem_append.mp hx with hx | hx
    · exact h.fate x hx hdecided
    · obtain rfl := List.mem_singleton.mp hx
      exact hfate
  · intro x hx htaken
    rcases occupy_spec busy hfate x.specKey with ⟨exitDay, hspec, hblocks, hbusy⟩ | ⟨hbusy, hsame⟩
    · refine ⟨exitDay, hbusy, ?_⟩
      rintro day rfl
      have hexit : e.exit = some day ∧ e.taken = true := by
        rcases hblocks with ⟨_, hnone⟩ | ⟨htaken, hexit⟩
        · cases hnone
        · exact ⟨hexit, htaken⟩
      rcases List.mem_append.mp hx with hx | hx
      · exact (h.leftBy hfree hx hspec.symm).mono (hfate.exit_after hexit.2 hexit.1).le
      · obtain rfl := List.mem_singleton.mp hx
        refine ⟨?_, fun _ => ⟨day, hexit.1, le_rfl⟩⟩
        intro hpending
        simp [Entry.taken, hpending] at htaken
    · rw [hbusy]
      rcases List.mem_append.mp hx with hx | hx
      · exact h.held x hx htaken
      · obtain rfl := List.mem_singleton.mp hx
        simp [Entry.taken, hsame rfl] at htaken
  · intro x hx hpending
    rcases occupy_spec busy hfate x.specKey with ⟨exitDay, hspec, hblocks, hbusy⟩ | ⟨hbusy, hsame⟩
    · rcases List.mem_append.mp hx with hx | hx
      · exact absurd hpending (h.leftBy hfree hx hspec.symm).1
      · obtain rfl := List.mem_singleton.mp hx
        rcases hblocks with ⟨_, rfl⟩ | ⟨htaken, _⟩
        · exact hbusy
        · simp [Entry.taken, hpending] at htaken
    · rw [hbusy]
      rcases List.mem_append.mp hx with hx | hx
      · exact h.waiting x hx hpending
      · obtain rfl := List.mem_singleton.mp hx
        cases (hsame rfl).symm.trans hpending
  · intro spec exitDay hbusy'
    rcases occupy_spec busy hfate spec with ⟨own, hspec, hblocks, hbusy⟩ | ⟨hbusy, _⟩
    · obtain rfl := Option.some.inj (hbusy.symm.trans hbusy')
      exact ⟨e, by simp, hspec, hblocks⟩
    · obtain ⟨a, ha, hspec, hblocks⟩ := h.cause spec exitDay (hbusy.symm.trans hbusy')
      exact ⟨a, List.mem_append_left _ ha, hspec, hblocks⟩
  · refine List.pairwise_append.mpr ⟨h.apart, List.pairwise_singleton _ _, ?_⟩
    intro a ha b hb hspec _
    obtain rfl := List.mem_singleton.mp hb
    exact h.leftBy hfree ha hspec
  · intro earlier b hprefix hskipped
    rcases List.prefix_concat_iff.mp hprefix with heq | hprefix
    · obtain ⟨_, hb⟩ := List.append_inj' heq rfl
      obtain rfl := List.singleton_inj.mp hb
      exact absurd hskipped hnot
    · exact h.skipped earlier b hprefix hskipped

lemma scanned_next (hsorted : bars.Pairwise fun a b => a.day < b.day) (h : Scanned bars busy done)
    (hnext : scoreNext bars today (busy, done) e = .ok (busy', done')) :
    Scanned bars busy' done' ∧ done'.map Entry.setup = done.map Entry.setup ++ [e.setup] := by
  rw [scoreNext] at hnext
  split_ifs at hnext with hblocked
  · obtain ⟨rfl, rfl⟩ := Prod.mk.inj ((pure_eq_ok _ _).mp hnext)
    refine ⟨h.skip hblocked, ?_⟩
    rw [List.map_append]
    rfl
  · simp only [bind_eq_ok, pure_eq_ok, Prod.mk.injEq] at hnext
    obtain ⟨scored, hscored, rfl, rfl⟩ := hnext
    obtain ⟨hsetup, hfate⟩ := scoreEntry_ok hsorted hscored
    have hfree : blocked busy scored = false := by
      rw [Bool.not_eq_true] at hblocked
      rw [← hblocked, blocked, blocked, Entry.specKey_eq hsetup, Entry.signalBar_eq hsetup]
    refine ⟨h.score hfree hfate, ?_⟩
    rw [List.map_append, List.map_singleton, hsetup]

lemma scanned_foldlM (hsorted : bars.Pairwise fun a b => a.day < b.day) {entries : List Entry}
    (h : Scanned bars busy done) (hfold : entries.foldlM (scoreNext bars today) (busy, done) = .ok (busy', done')) :
    Scanned bars busy' done' ∧ done'.map Entry.setup = done.map Entry.setup ++ entries.map Entry.setup := by
  induction entries generalizing busy done with
  | nil =>
    obtain ⟨rfl, rfl⟩ := Prod.mk.inj ((pure_eq_ok _ _).mp hfold)
    simp [h]
  | cons e rest ih =>
    rw [List.foldlM_cons, bind_eq_ok] at hfold
    obtain ⟨⟨busyNext, doneNext⟩, hnext, hfold⟩ := hfold
    obtain ⟨hscanned, hsetups⟩ := scanned_next hsorted h hnext
    obtain ⟨hall, hsetupsAll⟩ := ih hscanned hfold
    refine ⟨hall, ?_⟩
    rw [hsetupsAll, hsetups, List.append_assoc, List.map_cons, List.singleton_append]

lemma scoreSymbol_ok (hsorted : bars.Pairwise fun a b => a.day < b.day) {entries scored : List Entry}
    (h : scoreSymbol entries bars today = .ok scored) :
    (∃ busy, Scanned bars busy scored) ∧ scored.map Entry.setup = entries.map Entry.setup := by
  simp only [scoreSymbol, bind_eq_ok, pure_eq_ok] at h
  obtain ⟨⟨busy, done⟩, hfold, rfl⟩ := h
  have hempty : Scanned bars (fun _ => none) [] := by constructor <;> simp
  obtain ⟨hscanned, hsetups⟩ := scanned_foldlM hsorted hempty hfold
  exact ⟨⟨busy, hscanned⟩, hsetups⟩

end Scan

end AlgoTrader.Workflow
