import AlgoTrader.Lib.Table
import AlgoTrader.Workflow.PaperOnlyPass
import Mathlib.Data.List.Perm.Subperm

/-! What a paper-only entry leaves of the day's trades, of its group's entries and of the paper-only places. -/

namespace AlgoTrader.Workflow.PaperOnly

/-- The symbols with a paper-only order that may fill still, or a position one has filled into. -/
def paperOnlySymbols (a : Account) : List String :=
  (((a.rows.filter fun row => row.live && row.paperOnly).map (·.symbol) ++
    (a.positions.filter (·.paperOnly)).map (·.symbol)).map bare).dedup.filter (· ≠ "")

/-- The positions are the broker's, and each live paper-only order or position shows as one: the newest placed
or filled row of the symbol is paper-only and, for an order, of today and unfilled. -/
structure ReadsTrue (s : PassSettings) (a : Account) : Prop where
  fromBroker : s.risk.simulatesItself = false
  working : ∀ row ∈ a.rows, row.live → row.paperOnly → ∃ newest, latest a (bare row.symbol) = some newest ∧
    newest.paperOnly ∧ newest.status.unfilled ∧ a.today ≤ newest.day
  held : ∀ position ∈ a.positions, position.paperOnly →
    (latest a (bare position.symbol)).all fun row => row.paperOnly

structure Pass.ReadsPaper (p : Pass) (s : PassSettings) (a : Account) (c : Considered) : Prop where
  idle : p.executing = none
  considered : c.symbol ≠ "" ∧ c.admitted
  fresh : c.paperOnly ∧ p.paper = none
  read : ∃ book, (p.blockers s a c).2.paper = some (some book)

/-- The condition on the steps: paper's book is read for a paper-only candidate only where it shows them. -/
def Clear (s : PassSettings) (st : State) : Event → Prop
  | .consider c => ∀ p, st.pass = some p → p.ReadsPaper s st.account c → ReadsTrue s st.account
  | _ => True

def added (read a : Account) : ℤ := a.rows.length - read.rows.length

/-- What an entry leaves of the day: the room of the rules, less the rows beyond one that were added since. -/
structure RoomLeft (s : PassSettings) (read a : Account) (symbol : String) : Prop where
  trades : countSince a ≤ s.maxTradesPerDay - leaveForEtoro + (added read a - 1)
  bucket : 0 < s.maxDailyEntriesPerCorrelationBucket → s.bucketOf symbol ≠ unknownBucket →
    entriesTodayByBucket s a (s.bucketOf symbol) ≤
      s.maxDailyEntriesPerCorrelationBucket - leaveInGroup + (added read a - 1)

def PlacesKept (st : State) : Prop := (paperOnlySymbols st.account).length ≤ maxOpenPaperOnly

-- Between passes, or in one that has not read paper's book since it last proposed.
def Unread (st : State) : Prop := ∀ p, st.pass = some p → p.paper = none ∧ p.executing = none

section Account

variable {s : PassSettings} {a a' : Account} {symbol : String}

lemma mem_paperOnlySymbols : symbol ∈ paperOnlySymbols a ↔ symbol ≠ "" ∧
    ((∃ row ∈ a.rows, row.live ∧ row.paperOnly ∧ bare row.symbol = symbol) ∨
      ∃ position ∈ a.positions, position.paperOnly ∧ bare position.symbol = symbol) := by
  simp only [paperOnlySymbols, List.mem_filter, List.mem_dedup, List.mem_map, List.mem_append, Bool.and_eq_true,
    decide_eq_true_eq]
  constructor
  · rintro ⟨⟨_, ⟨row, ⟨hrow, hlive, hown⟩, rfl⟩ | ⟨position, ⟨hposition, hown⟩, rfl⟩, rfl⟩, hne⟩
    · exact ⟨hne, .inl ⟨row, hrow, hlive, hown, rfl⟩⟩
    · exact ⟨hne, .inr ⟨position, hposition, hown, rfl⟩⟩
  · rintro ⟨hne, ⟨row, hrow, hlive, hown, rfl⟩ | ⟨position, hposition, hown, rfl⟩⟩
    · exact ⟨⟨_, .inl ⟨row, ⟨hrow, hlive, hown⟩, rfl⟩, rfl⟩, hne⟩
    · exact ⟨⟨_, .inr ⟨position, ⟨hposition, hown⟩, rfl⟩, rfl⟩, hne⟩

lemma paperOnlySymbols_nodup (a : Account) : (paperOnlySymbols a).Nodup := (List.nodup_dedup _).filter _

lemma length_le_of_subset {l : List String} (h : ∀ symbol ∈ paperOnlySymbols a, symbol ∈ l) :
    (paperOnlySymbols a).length ≤ l.length :=
  ((paperOnlySymbols_nodup a).subperm h).length_le

lemma bare_empty : bare "" = "" := by decide +kernel

lemma latest_eq {row : ExecutionRow} (h : latest a symbol = some row) : row ∈ a.rows.take bookRows ∧
    bare row.symbol = symbol := by
  have hfound := List.find?_some h
  simp only [Bool.and_eq_true, decide_eq_true_eq] at hfound
  exact ⟨List.mem_of_find?_eq_some h, hfound.1⟩

lemma mem_paperBook (hreads : ReadsTrue s a) (h : symbol ∈ paperOnlySymbols a) : symbol ∈ (paperBook s a).paperOnly := by
  obtain ⟨hne, hcase⟩ := mem_paperOnlySymbols.mp h
  have hall : (latest a symbol).all (fun row => row.paperOnly) = true := by
    rcases hcase with ⟨order, horder, hlive, hpaper, rfl⟩ | ⟨position, hposition, hpaper, rfl⟩
    · obtain ⟨newest, hlatest, hown, _⟩ := hreads.working order horder hlive hpaper
      rw [hlatest]
      exact hown
    · exact hreads.held position hposition hpaper
  refine List.mem_filter.mpr ⟨List.mem_append.mpr ?_, hall⟩
  by_cases hheld : symbol ∈ heldSymbols s a
  · exact .inl hheld
  · right
    rcases hcase with ⟨order, horder, hlive, hpaper, rfl⟩ | ⟨position, hposition, _, rfl⟩
    · obtain ⟨newest, hlatest, _, hunfilled, htoday⟩ := hreads.working order horder hlive hpaper
      obtain ⟨hwindow, hsymbol⟩ := latest_eq hlatest
      simp only [unfilledSymbols, List.mem_filter, List.mem_dedup, decide_eq_true_eq, hlatest, Option.any_some]
      exact ⟨hsymbol ▸ List.mem_map_of_mem hwindow, hne, hheld, hunfilled, htoday⟩
    · refine absurd ?_ hheld
      simp only [heldSymbols, contextPositions, hreads.fromBroker, Bool.false_eq_true, if_false, List.mem_dedup]
      refine List.mem_map_of_mem (List.mem_filter.mpr ⟨hposition, decide_eq_true ?_⟩)
      intro hempty
      exact hne (by rw [hempty, bare_empty])

structure Grows (s : PassSettings) (a a' : Account) : Prop where
  rows : a.rows.length ≤ a'.rows.length
  trades : countSince a' + a.rows.length ≤ countSince a + a'.rows.length
  buckets : ∀ bucket,
    entriesTodayByBucket s a' bucket + a.rows.length ≤ entriesTodayByBucket s a bucket + a'.rows.length

lemma Grows.refl : Grows s a a := ⟨le_rfl, le_rfl, fun _ => le_rfl⟩

lemma Grows.trans {a'' : Account} (h : Grows s a a') (h' : Grows s a' a'') : Grows s a a'' := by
  refine ⟨h.rows.trans h'.rows, ?_, fun bucket => ?_⟩
  · have htrades := h.trades
    have htrades' := h'.trades
    omega
  · have hbucket := h.buckets bucket
    have hbucket' := h'.buckets bucket
    omega

lemma RoomLeft.grow {read : Account} (h : RoomLeft s read a symbol) (hgrows : Grows s a a') :
    RoomLeft s read a' symbol := by
  refine ⟨?_, fun hcap hknown => ?_⟩
  · have hleft := h.trades
    have hcount := hgrows.trades
    rw [added] at hleft ⊢
    omega
  · have hleft := h.bucket hcap hknown
    have hcount := hgrows.buckets (s.bucketOf symbol)
    rw [added] at hleft ⊢
    omega

structure Shrinks (s : PassSettings) (a a' : Account) : Prop where
  grows : Grows s a a'
  symbols : ∀ symbol ∈ paperOnlySymbols a', symbol ∈ paperOnlySymbols a

-- The number of rows is what it was.
lemma Grows.of_le (hrows : a'.rows.length = a.rows.length) (htrades : countSince a' ≤ countSince a)
    (hbuckets : ∀ bucket, entriesTodayByBucket s a' bucket ≤ entriesTodayByBucket s a bucket) : Grows s a a' := by
  refine ⟨hrows.ge, ?_, fun bucket => ?_⟩
  · rw [hrows]
    exact Nat.add_le_add_right htrades _
  · rw [hrows]
    exact Nat.add_le_add_right (hbuckets bucket) _

end Account

section Shrinks

variable {s : PassSettings} {a : Account}

lemma Shrinks.refl : Shrinks s a a := ⟨.refl, fun _ h => h⟩

structure Later (row row' : ExecutionRow) : Prop where
  same : row'.symbol = row.symbol ∧ row'.paperOnly = row.paperOnly ∧ row'.day = row.day
  live : row'.live → row.live
  entry : row'.status.isEntry → row.status.isEntry

lemma shrinks_setRow {f : ExecutionRow → ExecutionRow} {index : ℕ}
    (hf : ∀ row, a.rows[index]? = some row → Later row (f row)) : Shrinks s a (a.setRow index f) := by
  refine ⟨.of_le (List.length_modify _ _ _) (Table.countP_modify_le fun row hold hrow => ?_) fun bucket => ?_,
    fun symbol h => ?_⟩
  · rw [(hf row hold).same.2.2] at hrow
    exact hrow
  · change ((a.rows.modify index f).take bucketRows).countP _ ≤ _
    rw [List.take_modify]
    refine Table.countP_modify_le fun row hold hrow => ?_
    have hindex : a.rows[index]? = some row := by
      rw [List.getElem?_take] at hold
      split_ifs at hold
      exact hold
    obtain ⟨hsymbol, _, hday⟩ := (hf row hindex).same
    simp only [decide_eq_true_eq, hsymbol, hday] at hrow ⊢
    exact ⟨hrow.1, (hf row hindex).entry hrow.2.1, hrow.2.2⟩
  · obtain ⟨hne, hcase⟩ := mem_paperOnlySymbols.mp h
    refine mem_paperOnlySymbols.mpr ⟨hne, hcase.imp_left ?_⟩
    rintro ⟨row, hrow, hlive, hown, hsymbol⟩
    rcases Table.mem_modify hrow with hold | ⟨old, hold, hindex, rfl⟩
    · exact ⟨row, hold, hlive, hown, hsymbol⟩
    · obtain ⟨hsame, hpaper, _⟩ := (hf old hindex).same
      exact ⟨old, hold, (hf old hindex).live hlive, hpaper ▸ hown, hsame ▸ hsymbol⟩

lemma later_working {live : Bool} {row : ExecutionRow} (h : live → row.live) : Later row { row with live := live } :=
  ⟨⟨rfl, rfl, rfl⟩, h, fun hentry => hentry⟩

lemma shrinks_cancel (index : ℕ) : Shrinks s a (a.cancel index) :=
  shrinks_setRow fun _ _ => later_working fun h => absurd h Bool.false_ne_true

lemma shrinks_record (index : ℕ) (status : RowStatus) : Shrinks s a (a.record index status) := by
  refine shrinks_setRow fun row _ => ?_
  split_ifs with h
  · refine ⟨⟨rfl, rfl, rfl⟩, fun hlive => hlive, fun _ => ?_⟩
    rw [RowStatus.isEntry, h.1, Bool.true_or]
  · exact ⟨⟨rfl, rfl, rfl⟩, fun hlive => hlive, fun hentry => hentry⟩

lemma addPosition_rows (a : Account) (symbol : String) (paperOnly : Bool) :
    (a.addPosition symbol paperOnly).rows = a.rows ∧ (a.addPosition symbol paperOnly).today = a.today := by
  rw [Account.addPosition]
  split_ifs <;> exact ⟨rfl, rfl⟩

lemma grows_addPosition (symbol : String) (paperOnly : Bool) : Grows s a (a.addPosition symbol paperOnly) := by
  obtain ⟨hrows, htoday⟩ := addPosition_rows a symbol paperOnly
  refine .of_le (by rw [hrows]) ?_ fun bucket => ?_
  · rw [countSince, hrows, htoday]
    exact le_rfl
  · rw [entriesTodayByBucket, hrows, htoday]
    exact le_rfl

lemma mem_addPosition {symbol : String} {paperOnly : Bool} {position : Position}
    (h : position ∈ (a.addPosition symbol paperOnly).positions) (hown : position.paperOnly) :
    (∃ old ∈ a.positions, old.paperOnly ∧ bare old.symbol = bare position.symbol) ∨
      paperOnly = true ∧ bare position.symbol = bare symbol := by
  rw [Account.addPosition] at h
  split_ifs at h
  · obtain ⟨old, hold, rfl⟩ := List.mem_map.mp h
    split_ifs at hown ⊢ with hsame
    · rcases Bool.or_eq_true_iff.mp hown with holdOwn | hnew
      · exact .inl ⟨old, hold, holdOwn, rfl⟩
      · exact .inr ⟨hnew, hsame⟩
    · exact .inl ⟨old, hold, hown, rfl⟩
  · rcases List.mem_cons.mp h with rfl | hold
    · exact .inr ⟨hown, rfl⟩
    · exact .inl ⟨position, hold, hown, rfl⟩

lemma paperOnlySymbols_addPosition {symbol : String} {paperOnly : Bool} {x : String}
    (h : x ∈ paperOnlySymbols (a.addPosition symbol paperOnly)) :
    x ∈ paperOnlySymbols a ∨ paperOnly = true ∧ x = bare symbol := by
  obtain ⟨hne, hcase⟩ := mem_paperOnlySymbols.mp h
  rcases hcase with ⟨row, hrow, hlive, hown, hsymbol⟩ | ⟨position, hposition, hown, rfl⟩
  · rw [(addPosition_rows a symbol paperOnly).1] at hrow
    exact .inl (mem_paperOnlySymbols.mpr ⟨hne, .inl ⟨row, hrow, hlive, hown, hsymbol⟩⟩)
  · rcases mem_addPosition hposition hown with ⟨old, hold, holdOwn, hsame⟩ | hnew
    · exact .inl (mem_paperOnlySymbols.mpr ⟨hne, .inr ⟨old, hold, holdOwn, hsame⟩⟩)
    · exact .inr hnew

lemma shrinks_fill (index : ℕ) (live : Bool) : Shrinks s a (a.fill index live) := by
  rw [Account.fill]
  cases hrow : a.rows[index]? with
  | none => exact Shrinks.refl
  | some row =>
    dsimp only
    split_ifs with hlive
    · have hset : Shrinks s a (a.setRow index fun row => { row with live := live }) := by
        refine shrinks_setRow fun other hother => later_working fun _ => ?_
        rwa [Option.some.inj (hother.symm.trans hrow)]
      refine ⟨hset.grows.trans (grows_addPosition _ _), fun x hx => ?_⟩
      rcases paperOnlySymbols_addPosition hx with hold | ⟨hown, rfl⟩
      · exact hset.symbols x hold
      · obtain ⟨hne, _⟩ := mem_paperOnlySymbols.mp hx
        exact mem_paperOnlySymbols.mpr ⟨hne, .inl ⟨row, List.mem_of_getElem? hrow, hlive, hown, rfl⟩⟩
    · exact Shrinks.refl

lemma shrinks_close (symbol : String) : Shrinks s a (a.close symbol) := by
  refine ⟨.of_le rfl le_rfl fun _ => le_rfl, fun x h => ?_⟩
  obtain ⟨hne, hcase⟩ := mem_paperOnlySymbols.mp h
  refine mem_paperOnlySymbols.mpr ⟨hne, hcase.imp_right ?_⟩
  rintro ⟨position, hposition, hown⟩
  exact ⟨position, (List.mem_filter.mp hposition).1, hown⟩

lemma shrinks_nextDay : Shrinks s a { a with today := a.today + 1 } := by
  refine ⟨.of_le rfl ?_ fun bucket => ?_, fun _ h => h⟩
  · refine List.countP_mono_left fun row _ hday => ?_
    simp only [decide_eq_true_eq] at hday ⊢
    omega
  · refine List.countP_mono_left fun row _ hday => ?_
    simp only [decide_eq_true_eq] at hday ⊢
    exact ⟨by omega, hday.2⟩

end Shrinks

section Pass

variable {s : PassSettings} {a : Account} {p p' : Pass} {c : Considered} {book : Book}

structure Reads (s : PassSettings) (a : Account) (c : Considered) (p p' : Pass) : Prop where
  executing : p'.executing = p.executing
  paper : p'.paper = p.paper ∨
    (c.paperOnly ∧ p.paper = none) ∧ ∀ book, p'.paper = some (some book) → book = paperBook s a

lemma Reads.refl : Reads s a c p p := ⟨rfl, .inl rfl⟩

lemma readPaper_spec (hown : c.paperOnly) (s : PassSettings) (a : Account) (p : Pass) :
    Reads s a c p (p.readPaper s a c).2 ∧ (p.readPaper s a c).2.paper = some (p.readPaper s a c).1 := by
  refine ⟨⟨rfl, ?_⟩, rfl⟩
  rw [Pass.readPaper]
  cases hpaper : p.paper with
  | some kept => exact .inl rfl
  | none =>
    refine .inr ⟨⟨hown, rfl⟩, fun book hbook => ?_⟩
    dsimp only [Option.getD_none] at hbook
    split_ifs at hbook
    · exact (Option.some.inj (Option.some.inj hbook)).symm
    · cases hbook

-- An empty list of blockers of a paper-only candidate that is not dropped comes from a book with room for it.
lemma blockers_spec (p : Pass) (s : PassSettings) (a : Account) (c : Considered) :
    Reads s a c p (p.blockers s a c).2 ∧
      ((p.blockers s a c).1 = [] → c.paperOnly → ¬ c.dropped → ∃ book, (p.blockers s a c).2.paper = some (some book) ∧
        headroom s book c.symbol.toUpper = none ∧ bookHeadroom s book (bare c.symbol.toUpper) = none) := by
  have hrefused {reason : Blocker} {p' : Pass} (hreads : Reads s a c p p') : Reads s a c p ([reason], p').2 ∧
      (([reason], p').1 = [] → c.paperOnly → ¬ c.dropped → ∃ book, ([reason], p').2.paper = some (some book) ∧
        headroom s book c.symbol.toUpper = none ∧ bookHeadroom s book (bare c.symbol.toUpper) = none) :=
    ⟨hreads, fun h => absurd h (List.cons_ne_nil _ _)⟩
  rw [Pass.blockers]
  by_cases hother : ¬ c.paperOnly ∨ c.dropped
  · rw [if_pos hother]
    exact ⟨.refl, fun _ hown hdropped => absurd hother (by simp [hown, hdropped])⟩
  have hown : c.paperOnly = true := by
    by_contra hnot
    exact hother (.inl hnot)
  rw [if_neg hother]
  by_cases hlimit : maxPerPass ≤ p.paperOnlyCreated
  · rw [if_pos hlimit]
    exact hrefused .refl
  rw [if_neg hlimit]
  by_cases hbudget : c.budgetSpent
  · rw [if_pos hbudget]
    exact hrefused .refl
  rw [if_neg hbudget, Pass.readHeld]
  cases p.held.getD c.etoroHeld with
  | none => exact hrefused ⟨rfl, .inl rfl⟩
  | some held =>
    dsimp only
    by_cases hheld : c.symbol.toUpper ∈ held
    · rw [if_pos hheld]
      exact hrefused ⟨rfl, .inl rfl⟩
    rw [if_neg hheld]
    obtain ⟨hread, hpaper⟩ := readPaper_spec hown s a { p with held := some (some held) }
    have hreads : Reads s a c p (Pass.readPaper { p with held := some (some held) } s a c).2 :=
      ⟨hread.executing, hread.paper⟩
    generalize Pass.readPaper { p with held := some (some held) } s a c = outcome at hreads hpaper ⊢
    obtain ⟨paper, p'⟩ := outcome
    cases paper with
    | none => exact hrefused hreads
    | some book =>
      dsimp only
      cases hroom : (headroom s book c.symbol.toUpper).or (bookHeadroom s book (bare c.symbol.toUpper)) with
      | some reason => exact hrefused hreads
      | none =>
        obtain ⟨hday, hbook⟩ := Option.or_eq_none_iff.mp hroom
        exact ⟨hreads, fun _ _ _ => ⟨book, hpaper, hday, hbook⟩⟩

end Pass

inductive Moved (s : PassSettings) (st : State) : Event → State → Prop
  | shrinks {e : Event} {a : Account} (h : Shrinks s st.account a) : Moved s st e ⟨a, st.pass⟩
  | passes {e : Event} {pass : Option Pass} (h : Unread ⟨st.account, pass⟩) : Moved s st e ⟨st.account, pass⟩
  | entered (symbol : String) (entry : Entry) :
      Moved s st (.enter symbol entry) ⟨st.account.enter symbol false entry, st.pass⟩
  | considered {p : Pass} {c : Considered} (hpass : st.pass = some p) (hidle : p.executing = none)
      (hconsidered : c.symbol ≠ "" ∧ c.admitted) :
      Moved s st (.consider c) ⟨st.account, some (p.blockers s st.account c).2⟩
  | proposed {p : Pass} {c : Considered} (hpass : st.pass = some p) (hidle : p.executing = none)
      (hconsidered : c.symbol ≠ "" ∧ c.admitted) (hclear : (p.blockers s st.account c).1 = []) (hdropped : ¬ c.dropped) :
      Moved s st (.consider c)
        ⟨st.account, some { (p.blockers s st.account c).2.created c with executing := some c }⟩
  | executed {p : Pass} {c : Considered} (hpass : st.pass = some p) (hexecuting : p.executing = some c)
      (entry : Entry) :
      Moved s st (.execute entry)
        ⟨st.account.enter c.symbol c.paperOnly entry, some { p with executing := none }⟩

lemma step_moved (s : PassSettings) (st : State) (e : Event) : Moved s st e (step s st e) := by
  cases e with
  | startPass =>
    rw [step]
    split_ifs
    · exact .passes fun p hp => by rw [← Option.some.inj hp]; exact ⟨rfl, rfl⟩
    · exact .shrinks .refl
  | consider c =>
    rw [step]
    cases hpass : st.pass with
    | none =>
      have hsame : Moved s st (.consider c) ⟨st.account, st.pass⟩ := .shrinks .refl
      rwa [hpass] at hsame
    | some p =>
      rw [Option.map_some, consider]
      split_ifs with hpassed
      · have hsame : Moved s st (.consider c) ⟨st.account, st.pass⟩ := .shrinks .refl
        rwa [hpass] at hsame
      · simp only [not_or, Option.not_isSome_iff_eq_none, not_not] at hpassed
        dsimp only
        split_ifs with hstop
        · exact .considered hpass hpassed.1 hpassed.2
        · simp only [not_or, not_not] at hstop
          exact .proposed hpass hpassed.1 hpassed.2 hstop.1 hstop.2.1
  | execute entry =>
    rw [step]
    cases hexecuting : st.executing with
    | none => exact .shrinks .refl
    | some c =>
      obtain ⟨p, hpass, hp⟩ := Option.bind_eq_some_iff.mp hexecuting
      rw [Option.elim_some, hpass]
      exact .executed hpass hp entry
  | endPass => exact .passes fun p hp => absurd hp (by simp)
  | enter symbol entry => exact .entered symbol entry
  | fill index live => exact .shrinks (shrinks_fill index live)
  | cancel index => exact .shrinks (shrinks_cancel index)
  | record index status => exact .shrinks (shrinks_record index status)
  | close symbol => exact .shrinks (shrinks_close symbol)
  | nextDay => exact .shrinks shrinks_nextDay

section Entry

variable {s : PassSettings} {a : Account} {symbol : String} {paperOnly : Bool} {x : String}

lemma grows_addRow (status : RowStatus) (live : Bool) : Grows s a (a.addRow symbol paperOnly status live) := by
  have hrows : (a.addRow symbol paperOnly status live).rows.length = a.rows.length + 1 := rfl
  refine ⟨by omega, ?_, fun bucket => ?_⟩
  · rw [hrows, countSince, countSince, Account.addRow, List.countP_cons]
    dsimp only
    split_ifs <;> omega
  · have hwindow : (a.rows.take (bucketRows - 1)).Sublist (a.rows.take bucketRows) :=
      (List.take_prefix_take_left (by decide)).sublist
    have hcount := hwindow.countP_le (p := fun row : ExecutionRow =>
      decide (a.today ≤ row.day ∧ row.status.isEntry ∧ row.symbol ≠ "" ∧ s.bucketOf row.symbol.toUpper = bucket))
    rw [hrows, entriesTodayByBucket, entriesTodayByBucket, Account.addRow, List.take_cons (by decide), List.countP_cons]
    dsimp only
    split_ifs <;> omega

lemma grows_submit (outcome : Outcome) : Grows s a (a.submit symbol paperOnly outcome) := by
  cases outcome with
  | refused => exact grows_addRow _ _
  | working status => exact grows_addRow _ _
  | filled => exact (grows_addRow _ _).trans (grows_addPosition _ _)

lemma grows_settle (raised : Settled) : Grows s a (a.settle symbol paperOnly raised) := by
  cases raised <;> exact grows_addRow _ _

lemma grows_enter (entry : Entry) : Grows s a (a.enter symbol paperOnly entry) := by
  obtain ⟨outcome, raised⟩ := entry
  have hsubmit : Grows s a (outcome.elim a (a.submit symbol paperOnly)) := by
    cases outcome with
    | none => exact .refl
    | some outcome => exact grows_submit outcome
  refine hsubmit.trans ?_
  cases raised with
  | none => exact .refl
  | some raised => exact grows_settle raised

lemma paperOnlySymbols_addRow {status : RowStatus} {live : Bool}
    (h : x ∈ paperOnlySymbols (a.addRow symbol paperOnly status live)) :
    x ∈ paperOnlySymbols a ∨ paperOnly = true ∧ x = bare symbol := by
  obtain ⟨hne, hcase⟩ := mem_paperOnlySymbols.mp h
  rcases hcase with ⟨row, hrow, hlive, hown, rfl⟩ | hposition
  · rcases List.mem_cons.mp hrow with rfl | hold
    · exact .inr ⟨hown, rfl⟩
    · exact .inl (mem_paperOnlySymbols.mpr ⟨hne, .inl ⟨row, hold, hlive, hown, rfl⟩⟩)
  · exact .inl (mem_paperOnlySymbols.mpr ⟨hne, .inr hposition⟩)

lemma paperOnlySymbols_submit {outcome : Outcome} (h : x ∈ paperOnlySymbols (a.submit symbol paperOnly outcome)) :
    x ∈ paperOnlySymbols a ∨ paperOnly = true ∧ x = bare symbol := by
  cases outcome with
  | refused => exact paperOnlySymbols_addRow h
  | working status => exact paperOnlySymbols_addRow h
  | filled =>
    rcases paperOnlySymbols_addPosition h with hrow | hnew
    · exact paperOnlySymbols_addRow hrow
    · exact .inr hnew

lemma paperOnlySymbols_enter {entry : Entry} (h : x ∈ paperOnlySymbols (a.enter symbol paperOnly entry)) :
    x ∈ paperOnlySymbols a ∨ paperOnly = true ∧ x = bare symbol := by
  obtain ⟨outcome, raised⟩ := entry
  have hsubmit (h : x ∈ paperOnlySymbols (outcome.elim a (a.submit symbol paperOnly))) :
      x ∈ paperOnlySymbols a ∨ paperOnly = true ∧ x = bare symbol := by
    cases outcome with
    | none => exact .inl h
    | some outcome => exact paperOnlySymbols_submit h
  cases raised with
  | none => exact hsubmit h
  | some raised =>
    have hrow : x ∈ paperOnlySymbols (outcome.elim a (a.submit symbol paperOnly)) ∨ paperOnly = true ∧ x = bare symbol := by
      cases raised <;> exact paperOnlySymbols_addRow h
    rcases hrow with hold | hnew
    · exact hsubmit hold
    · exact .inr hnew

end Entry

/-- A book counts the day's trades and entries, but for the rows added since the account was ``read``. -/
structure Covers (s : PassSettings) (read a : Account) (book : Book) : Prop where
  trades : countSince a ≤ book.trades + added read a
  buckets : ∀ bucket, entriesTodayByBucket s a bucket ≤ book.byBucket bucket + added read a

structure DayRoom (s : PassSettings) (read : Account) (st : State) : Prop where
  rows : read.rows.length ≤ st.account.rows.length
  cached : ∀ p book, st.pass = some p → p.paper = some (some book) → Covers s read st.account book
  executing : ∀ p c, st.pass = some p → p.executing = some c → c.paperOnly →
    RoomLeft s read st.account c.symbol.toUpper

structure Places (st : State) : Prop where
  kept : PlacesKept st
  cached : ∀ p book, st.pass = some p → p.paper = some (some book) →
    ∀ symbol ∈ paperOnlySymbols st.account, symbol ∈ book.paperOnly
  executing : ∀ p c, st.pass = some p → p.executing = some c → p.paper = none ∧ (c.paperOnly →
    ∃ places : List String, places.length < maxOpenPaperOnly ∧ ∀ symbol ∈ paperOnlySymbols st.account, symbol ∈ places)

section Runs

variable {s : PassSettings} {st st' : State} {e : Event} {read a a' : Account} {c : Considered} {p : Pass} {book : Book}

lemma Covers.grow (h : Covers s read a book) (hgrows : Grows s a a') : Covers s read a' book := by
  refine ⟨?_, fun bucket => ?_⟩
  · have htrades := h.trades
    have hcount := hgrows.trades
    rw [added] at htrades ⊢
    omega
  · have hbucket := h.buckets bucket
    have hcount := hgrows.buckets bucket
    rw [added] at hbucket ⊢
    omega

lemma covers_paperBook (hrows : read.rows.length ≤ a.rows.length) : Covers s read a (paperBook s a) := by
  have hadded : 0 ≤ added read a := by
    rw [added]
    omega
  exact ⟨le_add_of_nonneg_right hadded, fun _ => le_add_of_nonneg_right hadded⟩

lemma headroom_none {symbol : String} (h : headroom s book symbol = none) :
    book.trades + 1 + leaveForEtoro ≤ s.maxTradesPerDay ∧
      (0 < s.maxDailyEntriesPerCorrelationBucket → s.bucketOf symbol ≠ unknownBucket →
        book.byBucket (s.bucketOf symbol) + 1 + leaveInGroup ≤ s.maxDailyEntriesPerCorrelationBucket) := by
  rw [headroom] at h
  dsimp only at h
  split_ifs at h with htrades hbucket
  refine ⟨not_lt.mp htrades, fun hcap hknown => ?_⟩
  by_contra hover
  exact hbucket ⟨hcap, hknown, not_le.mp hover⟩

lemma bookHeadroom_none {symbol : String} (h : bookHeadroom s book symbol = none) :
    book.paperOnly.length < maxOpenPaperOnly := by
  rw [bookHeadroom] at h
  by_contra hfull
  rw [not_lt] at hfull
  rw [if_pos hfull] at h
  split_ifs at h

lemma Covers.roomLeft (h : Covers s read a book) {symbol : String} (hroom : headroom s book symbol = none) :
    RoomLeft s read a symbol := by
  obtain ⟨htrades, hgroup⟩ := headroom_none hroom
  refine ⟨?_, fun hcap hknown => ?_⟩
  · have hcount := h.trades
    omega
  · have hcount := h.buckets (s.bucketOf symbol)
    have hleft := hgroup hcap hknown
    omega

lemma DayRoom.covers (h : DayRoom s read st) (hpass : st.pass = some p)
    (hpaper : (p.blockers s st.account c).2.paper = some (some book)) : Covers s read st.account book := by
  rcases (blockers_spec p s st.account c).1.paper with hsame | ⟨_, hnew⟩
  · exact h.cached p book hpass (hsame ▸ hpaper)
  · exact hnew book hpaper ▸ covers_paperBook h.rows

lemma Places.covers (h : Places st) (hpass : st.pass = some p) (hidle : p.executing = none)
    (hconsidered : c.symbol ≠ "" ∧ c.admitted) (hclear : Clear s st (.consider c))
    (hpaper : (p.blockers s st.account c).2.paper = some (some book)) :
    ∀ symbol ∈ paperOnlySymbols st.account, symbol ∈ book.paperOnly := by
  rcases (blockers_spec p s st.account c).1.paper with hsame | ⟨hfresh, hnew⟩
  · exact h.cached p book hpass (hsame ▸ hpaper)
  · rw [hnew book hpaper]
    exact fun symbol hsymbol => mem_paperBook (hclear p hpass ⟨hidle, hconsidered, hfresh, book, hpaper⟩) hsymbol

lemma DayRoom.grow {st' : State} (h : DayRoom s read st) (hgrows : Grows s st.account st'.account)
    (hpass : st'.pass = st.pass) : DayRoom s read st' :=
  ⟨h.rows.trans hgrows.rows, fun p book hp hb => (h.cached p book (hpass ▸ hp) hb).grow hgrows,
    fun p c hp hc hown => (h.executing p c (hpass ▸ hp) hc hown).grow hgrows⟩

lemma DayRoom.step (h : DayRoom s read st) (hmoved : Moved s st e st') : DayRoom s read st' := by
  cases hmoved with
  | shrinks hshrinks => exact h.grow hshrinks.grows rfl
  | passes hunread =>
    refine ⟨h.rows, fun p book hp hb => ?_, fun p c hp hc => ?_⟩
    · cases (hunread p hp).1.symm.trans hb
    · cases (hunread p hp).2.symm.trans hc
  | entered symbol entry => exact h.grow (grows_enter entry) rfl
  | @considered p c hpass hidle =>
    refine ⟨h.rows, fun q book hq hb => ?_, fun q c' hq hc => ?_⟩
    · obtain rfl := Option.some.inj hq
      exact h.covers hpass hb
    · obtain rfl := Option.some.inj hq
      cases hidle.symm.trans ((blockers_spec p s st.account c).1.executing.symm.trans hc)
  | @proposed p c hpass hidle _ hclear hdropped =>
    refine ⟨h.rows, fun q book hq hb => ?_, fun q c' hq hc hown => ?_⟩
    · obtain rfl := Option.some.inj hq
      cases hb
    · obtain rfl := Option.some.inj hq
      obtain rfl := Option.some.inj hc
      obtain ⟨book, hpaper, hday, _⟩ := (blockers_spec p s st.account c).2 hclear hown hdropped
      exact (h.covers hpass hpaper).roomLeft hday
  | @executed p c hpass hexecuting entry =>
    refine ⟨h.rows.trans (grows_enter (s := s) entry).rows, fun q book hq hb => ?_, fun q c' hq hc => ?_⟩
    · obtain rfl := Option.some.inj hq
      exact (h.cached p book hpass hb).grow (grows_enter entry)
    · obtain rfl := Option.some.inj hq
      cases hc

lemma Places.shrink {st' : State} (h : Places st)
    (hsymbols : ∀ symbol ∈ paperOnlySymbols st'.account, symbol ∈ paperOnlySymbols st.account)
    (hpass : st'.pass = st.pass) : Places st' := by
  refine ⟨(length_le_of_subset hsymbols).trans h.kept, fun p book hp hb symbol hsymbol => ?_, fun p c hp hc => ?_⟩
  · exact h.cached p book (hpass ▸ hp) hb symbol (hsymbols symbol hsymbol)
  · obtain ⟨hpaper, hplaces⟩ := h.executing p c (hpass ▸ hp) hc
    refine ⟨hpaper, fun hown => ?_⟩
    obtain ⟨places, hfew, hmem⟩ := hplaces hown
    exact ⟨places, hfew, fun symbol hsymbol => hmem symbol (hsymbols symbol hsymbol)⟩

lemma Places.step (h : Places st) (hclear : Clear s st e) (hmoved : Moved s st e st') : Places st' := by
  cases hmoved with
  | shrinks hshrinks => exact h.shrink hshrinks.symbols rfl
  | passes hunread =>
    refine ⟨h.kept, fun p book hp hb => ?_, fun p c hp hc => ?_⟩
    · cases (hunread p hp).1.symm.trans hb
    · cases (hunread p hp).2.symm.trans hc
  | entered symbol entry =>
    refine h.shrink (fun x hx => ?_) rfl
    rcases paperOnlySymbols_enter hx with hold | ⟨hown, _⟩
    · exact hold
    · cases hown
  | @considered p c hpass hidle hconsidered =>
    refine ⟨h.kept, fun q book hq hb => ?_, fun q c' hq hc => ?_⟩
    · obtain rfl := Option.some.inj hq
      exact h.covers hpass hidle hconsidered hclear hb
    · obtain rfl := Option.some.inj hq
      cases hidle.symm.trans ((blockers_spec p s st.account c).1.executing.symm.trans hc)
  | @proposed p c hpass hidle hconsidered hempty hdropped =>
    refine ⟨h.kept, fun q book hq hb => ?_, fun q c' hq hc => ?_⟩
    · obtain rfl := Option.some.inj hq
      cases hb
    · obtain rfl := Option.some.inj hq
      obtain rfl := Option.some.inj hc
      refine ⟨rfl, fun hown => ?_⟩
      obtain ⟨book, hpaper, _, hbook⟩ := (blockers_spec p s st.account c).2 hempty hown hdropped
      exact ⟨book.paperOnly, bookHeadroom_none hbook, h.covers hpass hidle hconsidered hclear hpaper⟩
  | @executed p c hpass hexecuting entry =>
    obtain ⟨hnone, hplaces⟩ := h.executing p c hpass hexecuting
    refine ⟨?_, fun q book hq hb => ?_, fun q c' hq hc => ?_⟩
    · by_cases hown : c.paperOnly = true
      · obtain ⟨places, hfew, hmem⟩ := hplaces hown
        have hsubset : ∀ x ∈ paperOnlySymbols (st.account.enter c.symbol c.paperOnly entry),
            x ∈ bare c.symbol :: places := by
          intro x hx
          rcases paperOnlySymbols_enter hx with hold | ⟨_, rfl⟩
          · exact List.mem_cons_of_mem _ (hmem x hold)
          · exact List.mem_cons_self
        exact (length_le_of_subset hsubset).trans hfew
      · refine (length_le_of_subset fun x hx => ?_).trans h.kept
        rcases paperOnlySymbols_enter hx with hold | ⟨hnew, _⟩
        · exact hold
        · exact absurd hnew hown
    · obtain rfl := Option.some.inj hq
      cases hnone.symm.trans hb
    · obtain rfl := Option.some.inj hq
      cases hc

lemma dayRoom_of_unread {st : State} (h : Unread st) : DayRoom s st.account st := by
  refine ⟨le_rfl, fun p book hp hb => ?_, fun p c hp hc => ?_⟩
  · cases (h p hp).1.symm.trans hb
  · cases (h p hp).2.symm.trans hc

lemma dayRoom_run {read : State} (hunread : Unread read) (events : List Event) :
    DayRoom s read.account (Runs.run (step s) read events) :=
  Runs.invariant_of_step (fun st e h => h.step (step_moved s st e)) (dayRoom_of_unread hunread) events

lemma places_start : Places {} :=
  ⟨Nat.zero_le _, fun _ _ h => absurd h (by simp), fun _ _ h => absurd h (by simp)⟩

theorem paper_only_room (s : PassSettings) :
    (∀ read events c entry, Unread read → (Runs.run (step s) read events).executing = some c → c.paperOnly →
      RoomLeft s read.account (step s (Runs.run (step s) read events) (.execute entry)).account c.symbol.toUpper) ∧
    ∀ events, Runs.Allowed (step s) (Clear s) {} events → Runs.Always (step s) PlacesKept {} events := by
  constructor
  · intro read events c entry hunread hexecuting hown
    have hentered : (step s (Runs.run (step s) read events) (.execute entry)).account =
        (Runs.run (step s) read events).account.enter c.symbol c.paperOnly entry := by
      rw [step, hexecuting, Option.elim_some]
    obtain ⟨p, hpass, hp⟩ := Option.bind_eq_some_iff.mp hexecuting
    rw [hentered]
    exact ((dayRoom_run hunread events).executing p c hpass hp hown).grow (grows_enter entry)
  · intro events hclear
    exact Runs.always_of_allowed (I := Places) (fun st e h hallowed => h.step hallowed (step_moved s st e))
      (fun st h => h.kept) places_start hclear

def candidate (symbol : String) : Considered := { symbol := symbol, paperOnly := true }

def passOf (entry : Entry) (symbol : String) : List Event :=
  [.startPass, .consider (candidate symbol), .execute entry, .endPass]

def placed : Entry := { outcome := some (.working .accepted) }

def grouped : PassSettings := { bucketOf := fun symbol => if symbol = "AAPL" then "tech" else unknownBucket }

theorem paper_only_room_one_filled :
    RoomLeft grouped {} (step grouped (Runs.run (step grouped) {} [.startPass, .consider (candidate "aapl")])
      (.execute { outcome := some .filled })).account "AAPL" ∧
    Runs.Always (step grouped) PlacesKept {} (passOf placed "aapl" ++ .fill 0 false :: passOf placed "MSFT") := by
  have hupper : "aapl".toUpper = "AAPL" := by decide +kernel
  refine ⟨?_, (paper_only_room grouped).2 _ ?_⟩
  · rw [← hupper]
    exact (paper_only_room grouped).1 {} [.startPass, .consider (candidate "aapl")] (candidate "aapl")
      { outcome := some .filled } (fun p hp => absurd hp (by simp)) (by decide +kernel) rfl
  · exact ⟨trivial, fun _ _ _ => ⟨rfl, by decide +kernel, by decide +kernel⟩, trivial, trivial, trivial, trivial,
      fun _ _ _ => ⟨rfl, by decide +kernel, by decide +kernel⟩, trivial, trivial, trivial⟩

def roomy : PassSettings := { maxTradesPerDay := 1000, maxOpenPositions := 100, risk := { portfolioMaxHeatPct := 0 } }

def threeTrades : List Event := List.replicate 3 (.enter "T" { outcome := some .refused })

-- A second row of the entry, for the day and for the group; another thread's entry after the book was read. Then
-- places: five orders carried over a day; a row that is not paper-only over one; a window of other rows; an
-- account without positions of its own.
theorem paper_only_room_exceeded :
    ¬ (countSince (Runs.run (step grouped) {} (threeTrades ++ passOf { placed with raised := some .failed } "AAPL")).account ≤
      grouped.maxTradesPerDay - leaveForEtoro) ∧
    ¬ (entriesTodayByBucket grouped (Runs.run (step grouped) {} (passOf { placed with raised := some .simulated }
      "AAPL")).account "tech" ≤ grouped.maxDailyEntriesPerCorrelationBucket - leaveInGroup) ∧
    ¬ (countSince (Runs.run (step grouped) {} (threeTrades ++
      [.startPass, .consider { candidate "AAPL" with automatic := false }, .enter "T" placed,
        .consider (candidate "MSFT"), .execute placed])).account ≤ grouped.maxTradesPerDay - leaveForEtoro) ∧
    ¬ PlacesKept (Runs.run (step roomy) {} (["A", "B", "C", "D", "E"].flatMap (passOf placed) ++
      .nextDay :: passOf placed "F")) ∧
    ¬ PlacesKept (Runs.run (step roomy) {} (passOf placed "A" ++ .enter "A" placed ::
      ["B", "C", "D", "E", "F"].flatMap (passOf placed))) ∧
    ¬ PlacesKept (Runs.run (step roomy) {} (["A", "B", "C", "D", "E"].flatMap (passOf placed) ++
      List.replicate bookRows (.enter "T" { outcome := some .refused }) ++ passOf placed "F")) ∧
    ¬ PlacesKept (Runs.run (step { roomy with risk.paperBroker := .selfSimulated }) {}
      (["A", "B", "C", "D", "E", "F"].flatMap (passOf { outcome := some .filled }))) := by
  unfold PlacesKept
  refine ⟨?_, ?_, ?_, ?_, ?_, ?_, ?_⟩ <;> decide +kernel

end Runs

end AlgoTrader.Workflow.PaperOnly
