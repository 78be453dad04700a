import AlgoTrader.Lib.OneHolder
import AlgoTrader.Workflow.ShadowPass

/-! One open trade at a time for a symbol and strategy, over the daily runs of the shadow ledger. -/

namespace AlgoTrader.Workflow

open Backtesting BoundedLoop OneHolder

/-- The setup of ``a`` is scored before that of ``b``, for the same symbol and strategy. -/
def before (a b : LedgerEntry) : Prop :=
  a.symbol = b.symbol ∧ a.entry.specKey = b.entry.specKey ∧ a.sortKey < b.sortKey

instance (a b : LedgerEntry) : Decidable (before a b) := inferInstanceAs (Decidable (_ ∧ _ ∧ _))

instance : IsStrictOrder LedgerEntry before where
  irrefl _ h := lt_irrefl _ h.2.2
  trans _ _ _ h h' := ⟨h.1.trans h'.1, h.2.1.trans h'.2.1, lt_trans h.2.2 h'.2.2⟩

section Market

variable (market : String → List Row)

/-- The trade of ``a`` has not reached its stop or target by the signal of ``b``. -/
def opens (a b : LedgerEntry) : Prop :=
  ∀ bar ∈ market a.symbol, a.entry.signalBar < bar.day → bar.day ≤ b.entry.signalBar → a.entry.crosses bar = false

instance (a b : LedgerEntry) : Decidable (opens market a b) := List.decidableBAll _ _

def dud (a : LedgerEntry) : Prop :=
  ∃ bar ∈ market a.symbol, a.entry.signalBar < bar.day ∧ a.entry.riskless bar ∧
    ∀ other ∈ market a.symbol, a.entry.signalBar < other.day → bar.day ≤ other.day

/-- The bars read are those of the market up to some session, from the signals of the entries on. -/
structure Reads (symbol : String) (bars : List Row) (entries : List LedgerEntry) : Prop where
  sorted : bars.Pairwise fun a b => a.day < b.day
  sessions : ∃ last, ∀ e ∈ entries, e.symbol = symbol → ∀ bar, e.entry.signalBar < bar.day →
    (bar ∈ bars ↔ bar ∈ market symbol ∧ bar.day ≤ last)

end Market

def Entry.outcome (e : Entry) : Outcome :=
  match e.status with
  | .pending => .waiting
  | .noRisk => .dud
  | .skippedOpen => .skipped
  | .stillOpen => .taken
  | .closed => .taken

def outcomeOf (entries : List LedgerEntry) (a : LedgerEntry) : Outcome :=
  ((entries.find? fun e => e.setup = a).map fun e => e.entry.outcome).getD .waiting

def setups (entries : List LedgerEntry) : Set LedgerEntry := {a | a ∈ entries.map LedgerEntry.setup}

section Outcome

variable {e : Entry}

lemma outcome_skipped : e.outcome = .skipped ↔ e.status = .skippedOpen := by
  cases h : e.status <;> simp [Entry.outcome, h]

lemma outcome_waiting : e.outcome = .waiting ↔ e.status = .pending := by
  cases h : e.status <;> simp [Entry.outcome, h]

lemma outcome_dud : e.outcome = .dud ↔ e.status = .noRisk := by
  cases h : e.status <;> simp [Entry.outcome, h]

lemma outcome_taken : e.outcome = .taken ↔ e.taken = true := by
  cases h : e.status <;> simp [Entry.outcome, Entry.taken, h]

lemma mem_setups {entries : List LedgerEntry} {a : LedgerEntry} :
    a ∈ setups entries ↔ ∃ e ∈ entries, e.setup = a := List.mem_map

lemma setup_mem {entries : List LedgerEntry} {x : LedgerEntry} (h : x ∈ entries) : x.setup ∈ setups entries :=
  mem_setups.mpr ⟨x, h, rfl⟩

end Outcome

section Rows

variable {bars : List Row} {day : ℤ} {bar : Row}

lemma first_after (hsorted : bars.Pairwise fun a b => a.day < b.day)
    (h : bars.find? (fun bar => day < bar.day) = some bar) :
    bar ∈ bars ∧ day < bar.day ∧ ∀ other ∈ bars, day < other.day → bar.day ≤ other.day := by
  obtain ⟨hday, earlier, later, rfl, hearlier⟩ := List.find?_eq_some_iff_append.mp h
  refine ⟨by simp, of_decide_eq_true hday, ?_⟩
  intro other hother hafter
  rcases List.mem_append.mp hother with hmem | hmem
  · have hnot := hearlier other hmem
    simp [hafter] at hnot
  · rcases List.mem_cons.mp hmem with rfl | hlater
    · exact le_rfl
    · exact ((List.pairwise_cons.mp (List.pairwise_append.mp hsorted).2.1).1 other hlater).le

lemma eq_of_day (hsorted : bars.Pairwise fun a b => a.day < b.day) {other : Row} (hbar : bar ∈ bars)
    (hother : other ∈ bars) (heq : bar.day = other.day) : bar = other := by
  have hnodup : (bars.map (·.day)).Nodup := List.pairwise_map.mpr (hsorted.imp fun hlt => hlt.ne)
  exact List.inj_on_of_nodup_map hnodup hbar hother heq

end Rows

section Scored

variable {market : String → List Row} {symbol : String} {bars : List Row} {busy : BusyUntil}
  {scored : List LedgerEntry} {a b : LedgerEntry}
  (hreads : Reads market symbol bars scored) (hscanned : Scanned bars busy (scored.map (·.entry)))
  (hsorted : scored.Pairwise fun a b => a.sortKey < b.sortKey) (hsymbol : ∀ e ∈ scored, e.symbol = symbol)

include hsorted in
lemma rel_of_lt {R : LedgerEntry → LedgerEntry → Prop} (h : scored.Pairwise R) (ha : a ∈ scored) (hb : b ∈ scored)
    (hlt : a.sortKey < b.sortKey) : R a b := by
  induction scored with
  | nil => cases ha
  | cons first rest ih =>
    obtain ⟨hfirst, hrest⟩ := List.pairwise_cons.mp h
    obtain ⟨hlow, hsortedRest⟩ := List.pairwise_cons.mp hsorted
    rcases List.mem_cons.mp ha with rfl | harest
    · rcases List.mem_cons.mp hb with rfl | hbrest
      · exact absurd hlt (lt_irrefl _)
      · exact hfirst b hbrest
    · rcases List.mem_cons.mp hb with rfl | hbrest
      · exact absurd hlt (hlow a harest).asymm
      · exact ih hsortedRest hrest harest hbrest

include hsorted in
lemma outcomeOf_setup (ha : a ∈ scored) : outcomeOf scored a.setup = a.entry.outcome := by
  have hnodup : (scored.map LedgerEntry.sortKey).Nodup := List.pairwise_map.mpr (hsorted.imp fun hlt => hlt.ne)
  rw [outcomeOf]
  cases hfind : scored.find? (fun e => e.setup = a.setup) with
  | none =>
    have hnot := List.find?_eq_none.mp hfind a ha
    simp at hnot
  | some e =>
    have hsetup : e.setup = a.setup := by simpa using List.find?_some hfind
    have hkey : e.setup.sortKey = a.setup.sortKey := congrArg LedgerEntry.sortKey hsetup
    rw [List.inj_on_of_nodup_map hnodup (List.mem_of_find?_eq_some hfind) ha hkey]
    rfl

include hscanned hsorted in
lemma leftBy_of_before (ha : a ∈ scored) (hb : b ∈ scored) (hab : before a b)
    (hdecided : b.entry.status ≠ .skippedOpen) : a.entry.LeftBy b.entry.signalBar :=
  rel_of_lt hsorted (List.pairwise_map.mp hscanned.apart) ha hb hab.2.2 hab.2.1 hdecided

include hscanned hsorted hsymbol in
lemma blocked_by (hb : b ∈ scored) (hskipped : b.entry.status = .skippedOpen) :
    ∃ a ∈ scored, before a b ∧
      ∃ exitDay, a.entry.Blocks exitDay ∧ ∀ day, exitDay = some day → b.entry.signalBar < day := by
  obtain ⟨earlier, later, rfl⟩ := List.append_of_mem hb
  have hprefix : earlier.map (·.entry) ++ [b.entry] <+: (earlier ++ b :: later).map (·.entry) :=
    ⟨later.map (·.entry), by simp⟩
  obtain ⟨x, hx, hspec, hblocks⟩ := hscanned.skipped _ _ hprefix hskipped
  obtain ⟨a, ha, rfl⟩ := List.mem_map.mp hx
  have hmem : a ∈ earlier ++ b :: later := List.mem_append_left _ ha
  have hlt := (List.pairwise_append.mp hsorted).2.2 a ha b List.mem_cons_self
  exact ⟨a, hmem, ⟨(hsymbol a hmem).trans (hsymbol b hb).symm, hspec, hlt⟩, hblocks⟩

include hreads hsymbol in
lemma mem_market (ha : a ∈ scored) {bar : Row} (hbar : bar ∈ bars) (hafter : a.entry.signalBar < bar.day) :
    bar ∈ market a.symbol := by
  obtain ⟨last, hsessions⟩ := hreads.sessions
  rw [hsymbol a ha]
  exact ((hsessions a ha (hsymbol a ha) bar hafter).mp hbar).1

lemma Reads.mem (hreads : Reads market symbol bars scored) (hsymbol : ∀ e ∈ scored, e.symbol = symbol)
    (ha : a ∈ scored) {bar read : Row} (hread : read ∈ bars) (hbar : bar ∈ market a.symbol)
    (hafter : a.entry.signalBar < bar.day) (hle : bar.day ≤ read.day) : bar ∈ bars := by
  obtain ⟨last, hsessions⟩ := hreads.sessions
  have hlast := (hsessions a ha (hsymbol a ha) read (hafter.trans_le hle)).mp hread
  rw [hsymbol a ha] at hbar
  exact (hsessions a ha (hsymbol a ha) bar hafter).mpr ⟨hbar, hle.trans hlast.2⟩

include hscanned in
lemma fate_of_mem (ha : a ∈ scored) (hdecided : a.entry.status ≠ .skippedOpen) : Fate bars a.entry :=
  hscanned.fate a.entry (List.mem_map_of_mem ha) hdecided

include hscanned in
lemma exitOn_of_taken (ha : a ∈ scored) (htaken : a.entry.taken = true) : a.entry.ExitOn bars := by
  have hdecided : a.entry.status ≠ .skippedOpen := by
    intro hskipped
    simp [Entry.taken, hskipped] at htaken
  cases fate_of_mem hscanned ha hdecided with
  | waiting hstatus => simp [Entry.taken, hstatus] at htaken
  | noRisk _ hstatus => simp [Entry.taken, hstatus] at htaken
  | taken _ _ _ _ hexit => exact hexit

include hreads hscanned hsymbol in
lemma dud_of_noRisk (ha : a ∈ scored) (hstatus : a.entry.status = .noRisk) : dud market a := by
  cases fate_of_mem hscanned ha (by simp [hstatus]) with
  | waiting hpending => cases hstatus.symm.trans hpending
  | taken _ htaken => simp [Entry.taken, hstatus] at htaken
  | noRisk bar _ hfirst hrisk =>
    obtain ⟨hbar, hafter, hleast⟩ := first_after hreads.sorted hfirst
    refine ⟨bar, mem_market hreads hsymbol ha hbar hafter, hafter, hrisk, ?_⟩
    intro other hother hlater
    by_contra hearlier
    have hread := hreads.mem hsymbol ha hbar hother hlater (not_le.mp hearlier).le
    exact hearlier (hleast other hread hlater)

include hreads hscanned hsymbol in
lemma not_dud_of_taken (ha : a ∈ scored) (htaken : a.entry.taken = true) : ¬ dud market a := by
  have hdecided : a.entry.status ≠ .skippedOpen := by
    intro hskipped
    simp [Entry.taken, hskipped] at htaken
  rintro ⟨bar, hbar, hafter, hrisk, hleast⟩
  cases fate_of_mem hscanned ha hdecided with
  | waiting hstatus => simp [Entry.taken, hstatus] at htaken
  | noRisk _ hstatus => simp [Entry.taken, hstatus] at htaken
  | taken first _ hfirst hsound _ =>
    obtain ⟨hread, hlater, hleastRead⟩ := first_after hreads.sorted hfirst
    have hle := hleast first (mem_market hreads hsymbol ha hread hlater) hlater
    have hbarRead := hreads.mem hsymbol ha hread hbar hafter hle
    obtain rfl := eq_of_day hreads.sorted hbarRead hread (le_antisymm hle (hleastRead bar hbarRead hafter))
    exact hsound hrisk

include hreads hscanned hsorted hsymbol in
lemma opens_of_blocks {c : LedgerEntry} (ha : a ∈ scored) (hc : c ∈ scored) (hac : before a c)
    (hdecided : c.entry.status ≠ .skippedOpen) {exitDay : Option ℤ} (hblocks : a.entry.Blocks exitDay)
    (hlater : ∀ day, exitDay = some day → b.entry.signalBar < day) : a.entry.taken = true ∧ opens market a b := by
  have hleft := leftBy_of_before hscanned hsorted ha hc hac hdecided
  rcases hblocks with ⟨hpending, _⟩ | ⟨htaken, rfl⟩
  · exact absurd hpending hleft.1
  refine ⟨htaken, ?_⟩
  intro bar hbar hafter hle
  obtain ⟨day, hexit, _⟩ := hleft.2 htaken
  obtain ⟨hcrossing, hfirst⟩ := exitOn_of_taken hscanned ha htaken
  obtain ⟨exitBar, hexitBar, _, _, hday⟩ := hcrossing day hexit
  have hbefore : bar.day < exitBar.day := by
    rw [hday]
    exact hle.trans_lt (hlater day hexit)
  by_contra hcross
  have hread := hreads.mem hsymbol ha hexitBar hbar hafter hbefore.le
  obtain ⟨first, hfirstExit, hfirstLe⟩ := hfirst bar hread hafter (by simpa using hcross)
  obtain rfl := Option.some.inj (hexit.symm.trans hfirstExit)
  exact absurd hfirstLe (not_le.mpr (hday ▸ hbefore))

include hreads hscanned hsorted hsymbol in
theorem pass_of_scanned : Pass before (opens market) (dud market) (setups scored) (outcomeOf scored) := by
  have houtcome {e : LedgerEntry} (he : e ∈ scored) := outcomeOf_setup hsorted he
  constructor
  · intro x hx y hy hxy hwaiting
    obtain ⟨a, ha, rfl⟩ := mem_setups.mp hx
    obtain ⟨b, hb, rfl⟩ := mem_setups.mp hy
    rw [houtcome ha, outcome_waiting] at hwaiting
    rw [houtcome hb, outcome_skipped]
    by_contra hdecided
    exact (leftBy_of_before hscanned hsorted ha hb hxy hdecided).1 hwaiting
  · intro x hx y hy hxy htaken hdecided hopen
    obtain ⟨a, ha, rfl⟩ := mem_setups.mp hx
    obtain ⟨b, hb, rfl⟩ := mem_setups.mp hy
    rw [houtcome ha, outcome_taken] at htaken
    rw [houtcome hb, Ne, outcome_skipped] at hdecided
    obtain ⟨day, hexit, hle⟩ := (leftBy_of_before hscanned hsorted ha hb hxy hdecided).2 htaken
    obtain ⟨bar, hbar, hafter, hcross, rfl⟩ := (exitOn_of_taken hscanned ha htaken).crossing day hexit
    cases hcross.symm.trans (hopen bar (mem_market hreads hsymbol ha hbar hafter) hafter hle)
  · intro y hy hskipped z hz hyz hdecided
    obtain ⟨b, hb, rfl⟩ := mem_setups.mp hy
    obtain ⟨c, hc, rfl⟩ := mem_setups.mp hz
    rw [houtcome hb, outcome_skipped] at hskipped
    rw [houtcome hc, Ne, outcome_skipped] at hdecided
    obtain ⟨a, ha, hab, exitDay, hblocks, hlater⟩ := blocked_by hscanned hsorted hsymbol hb hskipped
    have hac : before a c := IsTrans.trans a b c hab hyz
    obtain ⟨htaken, hopen⟩ := opens_of_blocks hreads hscanned hsorted hsymbol ha hc hac hdecided hblocks hlater
    exact ⟨a.setup, setup_mem ha, hab, (houtcome ha).trans (outcome_taken.mpr htaken), hopen⟩
  · intro x hx hdud
    obtain ⟨a, ha, rfl⟩ := mem_setups.mp hx
    rw [houtcome ha, outcome_dud] at hdud
    have hreal : dud market a := dud_of_noRisk hreads hscanned hsymbol ha hdud
    exact hreal
  · intro x hx htaken
    obtain ⟨a, ha, rfl⟩ := mem_setups.mp hx
    rw [houtcome ha, outcome_taken] at htaken
    have hreal : ¬ dud market a := not_dud_of_taken hreads hscanned hsymbol ha htaken
    exact hreal

end Scored

end AlgoTrader.Workflow
