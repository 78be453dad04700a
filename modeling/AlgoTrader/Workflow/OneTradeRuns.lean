import AlgoTrader.Lib.Table
import AlgoTrader.Workflow.OneOpenTrade

/-! The daily runs keep one open trade at a time as long as no trade still open is dropped. -/

namespace AlgoTrader.Workflow

open Backtesting BoundedLoop OneHolder

section Rescore

variable {entries own : List LedgerEntry} {scored : List Entry} {symbol : String}

lemma mem_ownEntries {e : LedgerEntry} : e ∈ ownEntries entries symbol ↔ e ∈ entries ∧ e.symbol = symbol := by
  rw [ownEntries, List.mem_insertionSort, List.mem_filter, decide_eq_true_eq]

lemma key_eq_of_sortKey {a b : LedgerEntry} (hsymbol : a.symbol = b.symbol) (h : a.sortKey = b.sortKey) :
    a.key = b.key := by
  simp only [LedgerEntry.sortKey, EmbeddingLike.apply_eq_iff_eq, Prod.mk.injEq] at h
  rw [LedgerEntry.key, LedgerEntry.key, hsymbol, h.1, h.2.2]

lemma ownEntries_sorted (hnodup : (entries.map LedgerEntry.key).Nodup) :
    (ownEntries entries symbol).Pairwise fun a b => a.sortKey < b.sortKey := by
  have : Std.Total fun a b : LedgerEntry => a.sortKey ≤ b.sortKey := ⟨fun a b => le_total a.sortKey b.sortKey⟩
  have : IsTrans LedgerEntry fun a b => a.sortKey ≤ b.sortKey := ⟨fun _ _ _ h h' => le_trans h h'⟩
  have hle : (ownEntries entries symbol).Pairwise fun a b => a.sortKey ≤ b.sortKey :=
    List.pairwise_insertionSort _ _
  have hperm : (ownEntries entries symbol).Perm (entries.filter fun e => e.symbol = symbol) :=
    List.perm_insertionSort _ _
  have hkeys : (ownEntries entries symbol).Pairwise fun a b => a.key ≠ b.key := by
    rw [← List.pairwise_map]
    exact (hperm.map _).nodup_iff.mpr (hnodup.sublist (List.filter_sublist.map _))
  refine (hle.and hkeys).imp_of_mem ?_
  intro a b ha hb h
  have hsame : a.symbol = b.symbol := (mem_ownEntries.mp ha).2.trans (mem_ownEntries.mp hb).2.symm
  exact lt_of_le_of_ne h.1 fun heq => h.2 (key_eq_of_sortKey hsame heq)

lemma scoredEntries_map (h : scored.map Entry.setup = own.map fun e => e.entry.setup) :
    (scoredEntries own scored).map (·.entry) = scored ∧
      (scoredEntries own scored).map LedgerEntry.setup = own.map LedgerEntry.setup := by
  induction own generalizing scored with
  | nil =>
    obtain rfl : scored = [] := by simpa using h
    exact ⟨rfl, rfl⟩
  | cons e rest ih =>
    cases scored with
    | nil => cases h
    | cons first scored =>
      obtain ⟨hfirst, hrest⟩ := List.cons.inj h
      obtain ⟨hentries, hsetups⟩ := ih hrest
      refine ⟨congrArg (first :: ·) hentries, ?_⟩
      rw [scoredEntries, List.zipWith_cons_cons, List.map_cons, List.map_cons]
      refine congrArg₂ List.cons ?_ hsetups
      change ({ e with entry := first.setup, scored := false } : LedgerEntry) = _
      rw [hfirst]
      rfl

lemma scored_of_mem {s : LedgerEntry} (h : s ∈ scoredEntries own scored) : s.scored = true := by
  induction own generalizing scored with
  | nil => cases h
  | cons e rest ih =>
    cases scored with
    | nil => cases h
    | cons first scored =>
      rcases List.mem_cons.mp h with rfl | h
      · rfl
      · exact ih h

end Rescore

section WriteBack

variable {entries scored : List LedgerEntry} {symbol : String} {e s : LedgerEntry}
  (hnodup : (entries.map LedgerEntry.key).Nodup)
  (hown : scored.map LedgerEntry.setup = (ownEntries entries symbol).map LedgerEntry.setup)

lemma key_eq_of_setup (h : e.setup = s.setup) : e.key = s.key := by
  have hkey : e.setup.key = s.setup.key := congrArg LedgerEntry.key h
  exact hkey

include hown in
lemma exists_entry (hs : s ∈ scored) : ∃ e ∈ entries, e.setup = s.setup ∧ s.symbol = symbol := by
  obtain ⟨e, he, heq⟩ := List.mem_map.mp (hown ▸ List.mem_map_of_mem hs)
  obtain ⟨hmem, hsymbol⟩ := mem_ownEntries.mp he
  have hsame : e.setup.symbol = s.setup.symbol := congrArg LedgerEntry.symbol heq
  exact ⟨e, hmem, heq, hsame.symm.trans hsymbol⟩

include hown in
lemma exists_scored (he : e ∈ entries) (hsymbol : e.symbol = symbol) : ∃ s ∈ scored, s.setup = e.setup :=
  List.mem_map.mp (hown ▸ List.mem_map_of_mem (mem_ownEntries.mpr ⟨he, hsymbol⟩))

include hnodup hown in
lemma scored_sorted : scored.Pairwise fun a b => a.sortKey < b.sortKey := by
  have hpairs : ((ownEntries entries symbol).map LedgerEntry.setup).Pairwise fun a b => a.sortKey < b.sortKey :=
    List.pairwise_map.mpr (ownEntries_sorted hnodup)
  rw [← hown, List.pairwise_map] at hpairs
  exact hpairs

include hnodup hown in
lemma mem_of_find {key : ℤ × String × String} (he : e ∈ entries) (hkey : e.key = key)
    (hfind : scored.find? (fun s => s.key = key) = some s) : s ∈ scored ∧ s.setup = e.setup := by
  have hs := List.mem_of_find?_eq_some hfind
  obtain ⟨e', he', heq, _⟩ := exists_entry hown hs
  have hskey : s.key = key := by simpa using List.find?_some hfind
  have hsame : e'.key = e.key := (key_eq_of_setup heq).trans (hskey.trans hkey.symm)
  rw [List.inj_on_of_nodup_map hnodup he' he hsame] at heq
  exact ⟨hs, heq.symm⟩

include hnodup hown in
lemma writeBack_setups : (writeBack entries scored).map LedgerEntry.setup = entries.map LedgerEntry.setup := by
  rw [writeBack]
  refine Table.map_key_map fun e he => ?_
  cases hfind : scored.find? (fun s => s.key = e.key) with
  | none => rfl
  | some s => exact (mem_of_find hnodup hown he rfl hfind).2

include hnodup hown in
lemma mem_writeBack : e ∈ writeBack entries scored ↔ e ∈ scored ∨ e ∈ entries ∧ e.symbol ≠ symbol := by
  rw [writeBack, List.mem_map]
  constructor
  · rintro ⟨old, hold, rfl⟩
    cases hfind : scored.find? (fun s => s.key = old.key) with
    | some s => exact .inl (mem_of_find hnodup hown hold rfl hfind).1
    | none =>
      refine .inr ⟨hold, fun hsymbol => ?_⟩
      obtain ⟨s, hs, hsetup⟩ := exists_scored hown hold hsymbol
      have hnot := List.find?_eq_none.mp hfind s hs
      simp [key_eq_of_setup hsetup] at hnot
  · rintro (hs | ⟨he, hsymbol⟩)
    · obtain ⟨old, hold, hsetup, _⟩ := exists_entry hown hs
      refine ⟨old, hold, ?_⟩
      cases hfind : scored.find? (fun s => s.key = old.key) with
      | none =>
        have hnot := List.find?_eq_none.mp hfind e hs
        simp [key_eq_of_setup hsetup] at hnot
      | some s =>
        obtain ⟨hmem, hsame⟩ := mem_of_find hnodup hown hold rfl hfind
        have hkeys : (scored.map LedgerEntry.sortKey).Nodup :=
          List.pairwise_map.mpr ((scored_sorted hnodup hown).imp fun hlt => hlt.ne)
        have hkey : s.setup.sortKey = e.setup.sortKey := congrArg LedgerEntry.sortKey (hsame.trans hsetup)
        exact List.inj_on_of_nodup_map hkeys hmem hs hkey
    · refine ⟨e, he, ?_⟩
      cases hfind : scored.find? (fun s => s.key = e.key) with
      | none => rfl
      | some s =>
        obtain ⟨hs, hsetup⟩ := mem_of_find hnodup hown he rfl hfind
        obtain ⟨_, _, _, hother⟩ := exists_entry hown hs
        have hsame : s.setup.symbol = e.setup.symbol := congrArg LedgerEntry.symbol hsetup
        exact absurd (hsame.symm.trans hother) hsymbol

end WriteBack

structure Rescored (entries : List LedgerEntry) (symbol : String) (bars : List Row)
    (scored entries' : List LedgerEntry) : Prop where
  scanned : ∃ busy, Scanned bars busy (scored.map (·.entry))
  sorted : scored.Pairwise fun a b => a.sortKey < b.sortKey
  own : ∀ e ∈ scored, e.symbol = symbol
  marked : ∀ e ∈ scored, e.scored = true
  setups_eq : entries'.map LedgerEntry.setup = entries.map LedgerEntry.setup
  mem_iff : ∀ e, e ∈ entries' ↔ e ∈ scored ∨ e ∈ entries ∧ e.symbol ≠ symbol

lemma rescore_ok {entries entries' : List LedgerEntry} {symbol : String} {bars : List Row} {today : ℤ}
    (hnodup : (entries.map LedgerEntry.key).Nodup) (hsorted : bars.Pairwise fun a b => a.day < b.day)
    (h : rescore entries symbol bars today = .ok entries') :
    ∃ scored, Rescored entries symbol bars scored entries' := by
  simp only [rescore, bind_eq_ok, pure_eq_ok] at h
  obtain ⟨decided, hdecided, rfl⟩ := h
  obtain ⟨⟨busy, hscanned⟩, hmap⟩ := scoreSymbol_ok hsorted hdecided
  rw [List.map_map] at hmap
  obtain ⟨hentries, hown⟩ := scoredEntries_map hmap
  refine ⟨scoredEntries (ownEntries entries symbol) decided, ⟨busy, hentries.symm ▸ hscanned⟩, ?_, ?_, ?_, ?_, ?_⟩
  · exact scored_sorted hnodup hown
  · exact fun e he => (exists_entry hown he).choose_spec.2.2
  · exact fun e he => scored_of_mem he
  · exact writeBack_setups hnodup hown
  · exact fun e => mem_writeBack hnodup hown

section Ledger

variable (market : String → List Row)

/-- The setups ever taken followed each other, and every scored entry that came while one was open is
skipped. -/
structure OneTrade (l : ShadowLedger) : Prop where
  apart : ∀ a ∈ l.trades, ∀ b ∈ l.trades, before a b → ¬ opens market a b
  recorded : ∀ t ∈ l.trades, ∀ e ∈ l.entries, e.scored = true → before t e → opens market t e →
    e.entry.status = .skippedOpen

/-- A new signal comes after the trades of its symbol and strategy, each trade whose row was dropped had left
by the signals scored again, and the bars read are the market's. -/
structure Orderly (l : ShadowLedger) (i : LedgerRun) : Prop where
  inOrder : ∀ e ∈ ingest l i, e ∉ l.entries → ∀ t ∈ l.trades, ¬ before e t
  left : ∀ t ∈ l.trades, t ∉ (ingest l i).map LedgerEntry.setup → ∀ e ∈ ingest l i,
    e.symbol ∈ symbolsToScore (ingest l i) → before t e → ¬ opens market t e
  reads : ∀ symbol ∈ symbolsToScore (ingest l i), ∀ bars, i.bars symbol = some bars →
    Reads market symbol bars (ingest l i)

def Clear (l : ShadowLedger) (i : LedgerRun) : Prop :=
  i.enabled → i.afterScan → l.doneOn ≠ some i.today → Orderly market l i

structure Inv (l : ShadowLedger) : Prop where
  nodup : (l.entries.map LedgerEntry.key).Nodup
  settled : Settled before (opens market) (dud market) (setups l.entries) {t | t ∈ l.trades}
  known : ∀ e ∈ l.entries, e.entry.taken = true → e.setup ∈ l.trades
  recorded : ∀ t ∈ l.trades, ∀ e ∈ l.entries, e.scored = true → before t e → opens market t e →
    e.entry.status = .skippedOpen

def DroppedLeft (symbols : List String) (l : ShadowLedger) : Prop :=
  ∀ t ∈ l.trades, t ∉ setups l.entries → ∀ b ∈ setups l.entries, b.symbol ∈ symbols → before t b →
    ¬ opens market t b

end Ledger

section Score

variable {market : String → List Row} {symbol : String} {bars : List Row} {today : ℤ} {l l' : ShadowLedger}
  {entries entries' scored : List LedgerEntry}

lemma Inv.oneTrade (h : Inv market l) : OneTrade market l := ⟨h.settled.apart, h.recorded⟩

lemma Reads.of_setups (h : Reads market symbol bars entries) (hsub : setups entries' ⊆ setups entries) :
    Reads market symbol bars entries' := by
  obtain ⟨last, hsessions⟩ := h.sessions
  refine ⟨h.sorted, last, ?_⟩
  intro e he hsymbol bar hafter
  obtain ⟨old, hold, hsetup⟩ := mem_setups.mp (hsub (setup_mem he))
  have hday : old.setup.entry.signalBar = e.setup.entry.signalBar := congrArg (fun x => x.entry.signalBar) hsetup
  have hsame : old.setup.symbol = e.setup.symbol := congrArg LedgerEntry.symbol hsetup
  refine hsessions old hold (hsame.trans hsymbol) bar ?_
  exact hday.trans_lt hafter

lemma Rescored.setups_eq' (h : Rescored entries symbol bars scored entries') : setups entries' = setups entries := by
  rw [setups, setups, h.setups_eq]

lemma Rescored.scored_sub (h : Rescored entries symbol bars scored entries') : setups scored ⊆ setups entries' := by
  rintro x hx
  obtain ⟨e, he, rfl⟩ := mem_setups.mp hx
  exact setup_mem ((h.mem_iff e).mpr (.inl he))

lemma Rescored.settled (h : Rescored entries symbol bars scored entries') {trades : Set LedgerEntry}
    (hsettled : Settled before (opens market) (dud market) (setups entries) trades)
    (hreads : Reads market symbol bars entries)
    (hleft : ∀ t ∈ trades, t ∉ setups entries → ∀ b ∈ setups entries, b.symbol = symbol → before t b →
      ¬ opens market t b) :
    Settled before (opens market) (dud market) (setups entries')
        (trades ∪ {a ∈ setups scored | outcomeOf scored a = .taken}) ∧
      ∀ a ∈ trades ∪ {a ∈ setups scored | outcomeOf scored a = .taken}, ∀ b ∈ scored, before a b →
        opens market a b → b.entry.status = .skippedOpen := by
  obtain ⟨busy, hscanned⟩ := h.scanned
  have hsub : setups scored ⊆ setups entries := Set.Subset.trans h.scored_sub h.setups_eq'.subset
  have hpass := pass_of_scanned (hreads.of_setups hsub) hscanned h.sorted h.own
  have hclosed : ∀ a ∈ setups entries, ∀ b ∈ setups scored, before a b → a ∈ setups scored := by
    intro a ha b hb hab
    rw [← h.setups_eq'] at ha
    obtain ⟨e, he, rfl⟩ := mem_setups.mp ha
    obtain ⟨s, hs, rfl⟩ := mem_setups.mp hb
    rcases (h.mem_iff e).mp he with hmem | ⟨_, hother⟩
    · exact setup_mem hmem
    · exact absurd (hab.1.trans (h.own s hs)) hother
  have hdropped : ∀ a ∈ trades, a ∉ setups entries → ∀ b ∈ setups scored, before a b → ¬ opens market a b := by
    intro a ha hnot b hb
    obtain ⟨s, hs, rfl⟩ := mem_setups.mp hb
    exact hleft a ha hnot s.setup (hsub hb) (h.own s hs)
  have hfinite : (setups scored).Finite := List.finite_toSet _
  rw [h.setups_eq']
  refine ⟨hsettled.pass hpass hsub hfinite hclosed hdropped, ?_⟩
  intro a ha b hb hab hopen
  have hskipped := skipped_of_holds hsettled hpass hsub hfinite hclosed hdropped ha (setup_mem hb) hab hopen
  rwa [outcomeOf_setup h.sorted hb, outcome_skipped] at hskipped

lemma Rescored.trades_eq (h : Rescored l.entries symbol bars scored entries')
    (hknown : ∀ e ∈ l.entries, e.entry.taken = true → e.setup ∈ l.trades) :
    {t | t ∈ l.trades ++ (entries'.filter fun e => e.entry.taken).map LedgerEntry.setup} =
      {t | t ∈ l.trades} ∪ {a ∈ setups scored | outcomeOf scored a = .taken} := by
  ext t
  rw [Set.mem_ofPred_eq, List.mem_append, Set.mem_union]
  constructor
  · rintro (hold | hnew)
    · exact .inl hold
    · obtain ⟨e, he, rfl⟩ := List.mem_map.mp hnew
      obtain ⟨hmem, htaken⟩ := List.mem_filter.mp he
      rcases (h.mem_iff e).mp hmem with hscored | ⟨hkept, _⟩
      · exact .inr ⟨setup_mem hscored, (outcomeOf_setup h.sorted hscored).trans (outcome_taken.mpr htaken)⟩
      · exact .inl (hknown e hkept htaken)
  · rintro (hold | ⟨hmem, houtcome⟩)
    · exact .inl hold
    · obtain ⟨e, he, rfl⟩ := mem_setups.mp hmem
      rw [outcomeOf_setup h.sorted he, outcome_taken] at houtcome
      exact .inr (List.mem_map_of_mem (List.mem_filter.mpr ⟨(h.mem_iff e).mpr (.inl he), houtcome⟩))

lemma score_ok (h : l.score symbol bars today = .ok l') : ∃ entries', rescore l.entries symbol bars today = .ok entries' ∧
    l' = { l with
      entries := entries'
      scoredSymbols := symbol :: l.scoredSymbols
      trades := l.trades ++ (entries'.filter fun e => e.entry.taken).map LedgerEntry.setup } := by
  simp only [ShadowLedger.score, bind_eq_ok, pure_eq_ok] at h
  obtain ⟨entries', hrescore, rfl⟩ := h
  exact ⟨entries', hrescore, rfl⟩

lemma Inv.score (hinv : Inv market l) (hreads : Reads market symbol bars l.entries) {symbols : List String}
    (hleft : DroppedLeft market symbols l) (hsymbol : symbol ∈ symbols) (h : l.score symbol bars today = .ok l') :
    Inv market l' ∧ DroppedLeft market symbols l' ∧ setups l'.entries = setups l.entries := by
  obtain ⟨entries', hrescore, rfl⟩ := score_ok h
  obtain ⟨scored, hscored⟩ := rescore_ok hinv.nodup hreads.sorted hrescore
  have hdropped : ∀ t ∈ {t | t ∈ l.trades}, t ∉ setups l.entries → ∀ b ∈ setups l.entries, b.symbol = symbol →
      before t b → ¬ opens market t b := fun t ht hnot b hb hsame => hleft t ht hnot b hb (hsame ▸ hsymbol)
  obtain ⟨hsettled, hskipped⟩ := hscored.settled hinv.settled hreads hdropped
  have htrades := hscored.trades_eq hinv.known
  have hset := hscored.setups_eq'
  refine ⟨⟨?_, ?_, ?_, ?_⟩, ?_, hset⟩
  · have hkeys : (entries'.map LedgerEntry.setup).map LedgerEntry.key =
        (l.entries.map LedgerEntry.setup).map LedgerEntry.key := by rw [hscored.setups_eq]
    rw [List.map_map, List.map_map] at hkeys
    exact hkeys.symm ▸ hinv.nodup
  · exact htrades.symm ▸ hsettled
  · intro e he htaken
    exact List.mem_append_right _ (List.mem_map_of_mem (List.mem_filter.mpr ⟨he, htaken⟩))
  · intro t ht e he hmarked hbefore hopen
    have hmem : t ∈ {t | t ∈ l.trades} ∪ {a ∈ setups scored | outcomeOf scored a = .taken} := htrades ▸ ht
    rcases (hscored.mem_iff e).mp he with hown | ⟨hkept, hother⟩
    · exact hskipped t hmem e hown hbefore hopen
    · rcases hmem with hold | ⟨hnew, _⟩
      · exact hinv.recorded t hold e hkept hmarked hbefore hopen
      · obtain ⟨s, hs, rfl⟩ := mem_setups.mp hnew
        exact absurd (hbefore.1.symm.trans (hscored.own s hs)) hother
  · intro t ht hnot b hb
    have hmem : t ∈ {t | t ∈ l.trades} ∪ {a ∈ setups scored | outcomeOf scored a = .taken} := htrades ▸ ht
    rcases hmem with hold | ⟨hnew, _⟩
    · exact hleft t hold (hset ▸ hnot) b (hset ▸ hb)
    · exact absurd (hscored.scored_sub hnew) hnot

lemma Inv.scoreSymbols {i : LedgerRun} {symbols rest : List String} {budget : ℕ} (hinv : Inv market l)
    (hreads : ∀ symbol ∈ symbols, ∀ bars, i.bars symbol = some bars → Reads market symbol bars l.entries)
    (hleft : DroppedLeft market symbols l) (hrest : ∀ symbol ∈ rest, symbol ∈ symbols)
    (h : ShadowLedger.scoreSymbols i rest budget l = .ok l') : Inv market l' := by
  induction rest generalizing budget l with
  | nil =>
    obtain rfl := (pure_eq_ok _ _).mp h
    exact hinv
  | cons symbol rest ih =>
    have hlater : ∀ symbol ∈ rest, symbol ∈ symbols := fun x hx => hrest x (List.mem_cons_of_mem _ hx)
    rw [ShadowLedger.scoreSymbols.eq_def] at h
    dsimp only at h
    split_ifs at h
    · exact ih hinv hreads hleft hlater h
    · cases budget with
      | zero =>
        obtain rfl := (pure_eq_ok _ _).mp h
        exact hinv
      | succ budget =>
        cases hbars : i.bars symbol with
        | none =>
          simp only [hbars] at h
          exact ih hinv hreads hleft hlater h
        | some bars =>
          simp only [hbars, bind_eq_ok] at h
          obtain ⟨scored, hscore, h⟩ := h
          have hmem := hrest symbol List.mem_cons_self
          obtain ⟨hinv', hleft', hset⟩ := hinv.score (hreads symbol hmem bars hbars) hleft hmem hscore
          refine ih hinv' ?_ hleft' hlater h
          exact fun x hx read hread => (hreads x hx read hread).of_setups hset.subset

end Score

section Ingest

variable {market : String → List Row} {l : ShadowLedger} {i : LedgerRun} {entries : List LedgerEntry} {day : ℤ}

/-- Rows were added after those there were, each as it was ingested and under a key of its own. -/
structure Grown (entries entries' : List LedgerEntry) : Prop where
  kept : ∀ e ∈ entries, e ∈ entries'
  fresh : ∀ e ∈ entries', e ∉ entries → e.scored = false ∧ e.entry.taken = false
  nodup : (entries.map LedgerEntry.key).Nodup → (entries'.map LedgerEntry.key).Nodup

lemma Grown.refl : Grown entries entries := ⟨fun _ h => h, fun _ h hnot => absurd h hnot, fun h => h⟩

lemma Grown.trans {entries' entries'' : List LedgerEntry} (h : Grown entries entries')
    (h' : Grown entries' entries'') : Grown entries entries'' := by
  refine ⟨fun e he => h'.kept e (h.kept e he), ?_, fun hnodup => h'.nodup (h.nodup hnodup)⟩
  intro e he hnot
  by_cases hmem : e ∈ entries'
  · exact h.fresh e hmem hnot
  · exact h'.fresh e he hmem

lemma entryOf_ok {item : WatchlistSignal} {e : LedgerEntry} (h : entryOf item day = some e) :
    e.scored = false ∧ e.entry.taken = false := by
  rw [entryOf] at h
  split at h
  · dsimp only at h
    split_ifs at h
    obtain rfl := Option.some.inj h
    exact ⟨rfl, rfl⟩
  · cases h

lemma addSignal_grown (item : WatchlistSignal) : Grown entries (addSignal day entries item) := by
  rw [addSignal]
  cases hentry : entryOf item day with
  | none => exact Grown.refl
  | some new =>
    dsimp only
    split_ifs with hold
    · exact Grown.refl
    · refine ⟨fun e he => List.mem_append_left _ he, ?_, ?_⟩
      · intro e he hnot
        rcases List.mem_append.mp he with hmem | hmem
        · exact absurd hmem hnot
        · obtain rfl := List.mem_singleton.mp hmem
          exact entryOf_ok hentry
      · intro hnodup
        rw [List.map_append, List.map_singleton, List.nodup_append]
        refine ⟨hnodup, List.nodup_singleton _, ?_⟩
        rintro key hkey _ hnew rfl
        obtain rfl := List.mem_singleton.mp hnew
        obtain ⟨e, he, hsame⟩ := List.mem_map.mp hkey
        exact hold (List.any_eq_true.mpr ⟨e, he, decide_eq_true hsame⟩)

lemma foldl_grown {α : Type*} {add : List LedgerEntry → α → List LedgerEntry}
    (hadd : ∀ entries a, Grown entries (add entries a)) (as : List α) : Grown entries (as.foldl add entries) := by
  induction as generalizing entries with
  | nil => exact Grown.refl
  | cons a as ih => exact (hadd entries a).trans ih

lemma ingest_grown (l : ShadowLedger) (i : LedgerRun) : Grown l.entries (ingest l i) := by
  apply foldl_grown
  intro entries day
  rw [addDay]
  split_ifs
  · exact foldl_grown (fun entries item => addSignal_grown item) _
  · exact Grown.refl

lemma Inv.ingested (hinv : Inv market l)
    (hnew : ∀ e ∈ ingest l i, e ∉ l.entries → ∀ t ∈ l.trades, ¬ before e t) : Inv market (l.ingested i) := by
  obtain ⟨hkept, hfresh, hnodup⟩ := ingest_grown l i
  refine ⟨hnodup hinv.nodup, hinv.settled.extend ?_, ?_, ?_⟩
  · intro a ha hnot t ht
    obtain ⟨e, he, rfl⟩ := mem_setups.mp ha
    exact hnew e he (fun hold => hnot (setup_mem hold)) t ht
  · intro e he htaken
    by_cases hold : e ∈ l.entries
    · exact hinv.known e hold htaken
    · cases (hfresh e he hold).2.symm.trans htaken
  · intro t ht e he hmarked
    by_cases hold : e ∈ l.entries
    · exact hinv.recorded t ht e hold hmarked
    · cases (hfresh e he hold).1.symm.trans hmarked

lemma Inv.drop (hinv : Inv market l) (today : ℤ) : Inv market (l.drop today) := by
  have hsub : ∀ e ∈ (l.drop today).entries, e ∈ l.entries := fun e he => (List.mem_filter.mp he).1
  refine ⟨hinv.nodup.sublist (List.filter_sublist.map _), hinv.settled.anti ?_, ?_, ?_⟩
  · rintro a ha
    obtain ⟨e, he, rfl⟩ := mem_setups.mp ha
    exact setup_mem (hsub e he)
  · exact fun e he => hinv.known e (hsub e he)
  · exact fun t ht e he => hinv.recorded t ht e (hsub e he)

lemma Inv.step (hinv : Inv market l) (hclear : Clear market l i) : Inv market (l.step i) := by
  rw [ShadowLedger.step]
  cases hrefresh : l.refresh i with
  | error _ => exact hinv
  | ok next =>
    rw [ShadowLedger.refresh] at hrefresh
    split_ifs at hrefresh with hidle
    · obtain rfl := (pure_eq_ok _ _).mp hrefresh
      exact hinv
    · simp only [not_or, not_not] at hidle
      obtain ⟨hnew, htrades, hreads⟩ := hclear hidle.1 hidle.2.1 hidle.2.2
      simp only [bind_eq_ok, pure_eq_ok] at hrefresh
      obtain ⟨scored, hscored, rfl⟩ := hrefresh
      have hleft : DroppedLeft market (symbolsToScore (ingest l i)) (l.ingested i) := by
        intro t ht hnot b hb
        obtain ⟨e, he, rfl⟩ := mem_setups.mp hb
        exact htrades t ht hnot e he
      have hfinished := (hinv.ingested hnew).scoreSymbols hreads hleft (fun _ h => h) hscored
      have hdropped := hfinished.drop i.today
      exact ⟨hdropped.nodup, hdropped.settled, hdropped.known, hdropped.recorded⟩

theorem one_trade_at_a_time (runs : List LedgerRun) (h : Runs.Allowed ShadowLedger.step (Clear market) {} runs) :
    Runs.Always ShadowLedger.step (OneTrade market) {} runs := by
  have hstart : Inv market {} := by
    refine ⟨List.nodup_nil, ⟨?_, ?_, ?_⟩, ?_, ?_⟩
    all_goals intro a ha
    all_goals cases ha
  exact Runs.always_of_allowed (fun _ _ hinv hclear => hinv.step hclear) (fun _ hinv => hinv.oneTrade) hstart h

end Ingest

lemma reads_filter {market : String → List Row} {symbol : String} {entries : List LedgerEntry}
    (hsorted : (market symbol).Pairwise fun a b => a.day < b.day) (last : ℤ) :
    Reads market symbol ((market symbol).filter fun bar => bar.day ≤ last) entries := by
  refine ⟨hsorted.filter _, last, ?_⟩
  intro e _ _ bar _
  rw [List.mem_filter, decide_eq_true_eq]

-- One strategy's signals on one symbol, scored before the session of their day.
section Sample

def sampleSignal (signalBar : ℤ) : WatchlistSignal :=
  { symbol := "AAPL"
    specKey := "momentum"
    signalBar := some signalBar
    price := some 100
    stop := some 90
    target := some 110 }

def sampleRun (market : String → List Row) (signalDays : List ℤ) (today : ℤ) : LedgerRun :=
  { today := today
    watchlist := fun day => if day ∈ signalDays then { final := true, signals := [sampleSignal (day - 1)] } else {}
    bars := fun symbol => some ((market symbol).filter fun bar => bar.day ≤ today - 1)
    budget := 5 }

lemma sampleRun_reads {market : String → List Row} {signalDays : List ℤ} {today : ℤ} {symbol : String}
    {bars : List Row} {entries : List LedgerEntry} (hsorted : ∀ symbol, (market symbol).Pairwise fun a b => a.day < b.day)
    (h : (sampleRun market signalDays today).bars symbol = some bars) : Reads market symbol bars entries := by
  obtain rfl := Option.some.inj h
  exact reads_filter (hsorted symbol) (today - 1)

def quietMarket (_ : String) : List Row := [1, 49, 61, 62].map fun day => ⟨day, 100, 101, 99, 100⟩

def risingMarket (_ : String) : List Row := [⟨1, 100, 101, 99, 100⟩, ⟨2, 100, 101, 99, 100⟩, ⟨3, 100, 112, 99, 111⟩]

theorem one_trade_at_a_time_skipped :
    Runs.Always ShadowLedger.step (OneTrade risingMarket) {} ([1, 3, 4].map (sampleRun risingMarket [1, 3])) ∧
      (Runs.run ShadowLedger.step {} ([1, 3, 4].map (sampleRun risingMarket [1, 3]))).entries.map
        (fun e => e.entry.status) = [.closed, .skippedOpen] := by
  refine ⟨one_trade_at_a_time _ ?_, by decide +kernel⟩
  have hsorted : ∀ symbol, (risingMarket symbol).Pairwise fun a b => a.day < b.day := by
    intro symbol
    simp [risingMarket]
  have hclear : ∀ l today, (∀ e ∈ ingest l (sampleRun risingMarket [1, 3] today), e ∉ l.entries →
      ∀ t ∈ l.trades, ¬ before e t) → (∀ t ∈ l.trades,
        t ∈ (ingest l (sampleRun risingMarket [1, 3] today)).map LedgerEntry.setup) →
      Clear risingMarket l (sampleRun risingMarket [1, 3] today) := by
    intro l today hnew hkept _ _ _
    exact ⟨hnew, fun t ht hnot => absurd (hkept t ht) hnot, fun _ _ _ hbars => sampleRun_reads hsorted hbars⟩
  refine ⟨hclear _ _ ?_ ?_, hclear _ _ ?_ ?_, hclear _ _ ?_ ?_, trivial⟩
  all_goals decide +kernel

/-- The row of a trade never closed is dropped after its sixty days, and the signal skipped for it is scored
as a trade. -/
theorem dropped_trade_forgotten :
    ∃ market : String → List Row, ∃ runs : List LedgerRun,
      (∀ i ∈ runs, ∀ symbol bars, i.bars symbol = some bars → ∀ entries, Reads market symbol bars entries) ∧
        ¬ Runs.Always ShadowLedger.step (OneTrade market) {} runs := by
  have hsorted : ∀ symbol, (quietMarket symbol).Pairwise fun a b => a.day < b.day := by
    intro symbol
    simp [quietMarket]
  refine ⟨quietMarket, [1, 50, 62, 63].map (sampleRun quietMarket [1, 50, 63]), ?_, ?_⟩
  · intro i hi symbol bars hbars entries
    obtain ⟨today, _, rfl⟩ := List.mem_map.mp hi
    exact sampleRun_reads hsorted hbars
  · intro hall
    have hbroken : ∃ a ∈ (Runs.run ShadowLedger.step {} ([1, 50, 62, 63].map (sampleRun quietMarket [1, 50, 63]))).trades,
        ∃ b ∈ (Runs.run ShadowLedger.step {} ([1, 50, 62, 63].map (sampleRun quietMarket [1, 50, 63]))).trades,
          before a b ∧ opens quietMarket a b := by decide +kernel
    obtain ⟨a, ha, b, hb, hab, hopen⟩ := hbroken
    exact hall.last.apart a ha b hb hab hopen

end Sample

end AlgoTrader.Workflow
