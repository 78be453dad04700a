import AlgoTrader.Broker.OvernightAlert
import Mathlib.Data.Int.ConditionallyCompleteOrder
import Mathlib.Tactic.Linarith

/-! What the overnight alert sends over a run of checks and restarts: no kind twice a day, no stop hit
twice, and no more than three tries. -/

namespace AlgoTrader.Broker.OvernightAlert

open Utils.Time (Timestamp microsPerDay microsPerMinute weekday utcDate utcDate_mono)

section Windows

variable {clock : SessionClock} {now : Timestamp}

lemma sub_three_le_lastSessionDate (clock : SessionClock) (now : Timestamp) :
    clock.date now - 3 ≤ lastSessionDate clock now := by
  rw [lastSessionDate, backToWeekday]
  split_ifs <;> omega

lemma le_closes_back (clock : SessionClock) (now : Timestamp) {day : ℤ} (h : clock.date now - 3 ≤ day)
    (hle : day ≤ clock.date now) : now ≤ clock.closes day + 5 * microsPerDay := by
  have hnow := clock.le_closes now
  have hone := clock.closes_succ (clock.date now - 1)
  have htwo := clock.closes_succ (clock.date now - 2)
  have hthree := clock.closes_succ (clock.date now - 3)
  rw [Int.sub_add_cancel] at hone
  rw [show clock.date now - 2 + 1 = clock.date now - 1 by omega] at htwo
  rw [show clock.date now - 3 + 1 = clock.date now - 2 by omega] at hthree
  simp only [microsPerDay, microsPerMinute] at hnow hone htwo hthree ⊢
  obtain rfl | rfl | rfl | rfl : day = clock.date now ∨ day = clock.date now - 1 ∨ day = clock.date now - 2 ∨
      day = clock.date now - 3 := by omega
  all_goals linarith

lemma lastSessionDate_le (clock : SessionClock) (now : Timestamp) : lastSessionDate clock now ≤ clock.date now := by
  rw [lastSessionDate, backToWeekday]
  split_ifs <;> omega

lemma seenCutoff_le_windowStart (clock : SessionClock) (now : Timestamp) :
    seenCutoff now ≤ signalWindowStart clock now := by
  have h := le_closes_back clock now (sub_three_le_lastSessionDate clock now) (lastSessionDate_le clock now)
  have hdays : 5 * microsPerDay ≤ signalSeenDays * microsPerDay := by decide
  rw [seenCutoff, signalWindowStart]
  linarith

end Windows

section Candidates

variable {clock : SessionClock} {t : Tick} {day : ℤ} {memo : Memo} {positions : List Position} {found : Found}

lemma readReference_memo (position : Position) : (readReference clock t memo position).2.done = memo.done ∧
    (readReference clock t memo position).2.seen = memo.seen ∧
      (readReference clock t memo position).2.signals = memo.signals ∧
        (readReference clock t memo position).2.quoteReads = memo.quoteReads := by
  rw [readReference]
  split
  · exact ⟨rfl, rfl, rfl, rfl⟩
  · split_ifs <;> exact ⟨rfl, rfl, rfl, rfl⟩

lemma kinds_memo (clock : SessionClock) (t : Tick) (memo : Memo) (position : Position) : (kinds clock t memo position).2.done = memo.done ∧
    (kinds clock t memo position).2.seen = memo.seen ∧ (kinds clock t memo position).2.signals = memo.signals ∧
      (kinds clock t memo position).2.quoteReads = memo.quoteReads := by
  rw [kinds]
  dsimp only
  split_ifs
  · rw [reference]
    split
    · split_ifs
      · exact ⟨rfl, rfl, rfl, rfl⟩
      · exact readReference_memo position
    · exact readReference_memo position
  · exact ⟨rfl, rfl, rfl, rfl⟩

lemma refreshSignalStops_memo : (refreshSignalStops t memo).done = memo.done ∧
    (refreshSignalStops t memo).seen = memo.seen ∧ (refreshSignalStops t memo).quoteReads = memo.quoteReads := by
  rw [refreshSignalStops]
  split
  · exact ⟨rfl, rfl, rfl⟩
  · split_ifs <;> exact ⟨rfl, rfl, rfl⟩

lemma candidates_memo (clock : SessionClock) (t : Tick) (day : ℤ) (memo : Memo) (positions : List Position) :
    (candidates clock t day memo positions).2.done = memo.done ∧
      (candidates clock t day memo positions).2.seen = memo.seen ∧
        (candidates clock t day memo positions).2.quoteReads = memo.quoteReads := by
  induction positions generalizing memo with
  | nil => exact ⟨rfl, rfl, rfl⟩
  | cons position rest ih =>
    obtain ⟨hdone, hseen, -, hquotes⟩ := kinds_memo clock t memo position
    obtain ⟨hdone', hseen', hquotes'⟩ := ih (kinds clock t memo position).2
    exact ⟨hdone'.trans hdone, hseen'.trans hseen, hquotes'.trans hquotes⟩

lemma signals_of_kinds (memo : Memo) (position : Position) : ∀ hit ∈ (kinds clock t memo position).1.hits,
    hit.symbol = position.symbol ∧ seenCutoff t.now ≤ hit.closedAt := by
  intro hit hhit
  have hmem : hit ∈ signalStops clock t memo position.symbol := hhit
  simp only [signalStops, List.mem_filter, Bool.and_eq_true, decide_eq_true_eq] at hmem
  exact ⟨hmem.2.1.1.1, (seenCutoff_le_windowStart clock t.now).trans hmem.2.1.2⟩

structure Candidate (t : Tick) (day : ℤ) (done : List Key) (positions : List Position) (found : Found) : Prop where
  position : found.position ∈ positions
  open_ : ∀ kind ∈ found.kinds, (day, found.position.symbol, kind) ∉ done
  hits : ∀ hit ∈ found.hits, seenCutoff t.now ≤ hit.closedAt

lemma candidate_of_kinds (memo : Memo) (position : Position) (rest : List Position) :
    Candidate t day memo.done (position :: rest) (notDone day (kinds clock t memo position).2.done
      (kinds clock t memo position).1) where
  position := List.mem_cons_self
  open_ := fun kind hkind => by
    rw [← (kinds_memo clock t memo position).1]
    exact of_decide_eq_true (List.mem_filter.mp hkind).2
  hits := fun hit hhit => (signals_of_kinds memo position hit hhit).2

lemma mem_candidates (h : found ∈ (candidates clock t day memo positions).1) :
    Candidate t day memo.done positions found := by
  induction positions generalizing memo with
  | nil => exact absurd h List.not_mem_nil
  | cons position rest ih =>
    have hlater (hmem : found ∈ (candidates clock t day (kinds clock t memo position).2 rest).1) :
        Candidate t day memo.done (position :: rest) found := by
      obtain ⟨hposition, hopen, hhits⟩ := ih hmem
      rw [(kinds_memo clock t memo position).1] at hopen
      exact ⟨List.mem_cons_of_mem _ hposition, hopen, hhits⟩
    rw [candidates] at h
    dsimp only at h
    split_ifs at h
    · exact hlater h
    · rcases List.mem_cons.mp h with rfl | hmem
      · exact candidate_of_kinds memo position rest
      · exact hlater hmem

lemma candidates_sublist (memo : Memo) (positions : List Position) :
    ((candidates clock t day memo positions).1.map Found.position).Sublist positions := by
  induction positions generalizing memo with
  | nil => exact List.Sublist.slnil
  | cons position rest ih =>
    rw [candidates]
    dsimp only
    split_ifs
    · exact (ih _).cons _
    · exact (ih _).cons_cons _

end Candidates

lemma counts_not_mem {clock : SessionClock} {now : Timestamp} {known : List String} {holding : Holding}
    (h : counts clock now known holding = true) : base holding.symbol ∉ known := by
  simp only [counts, Bool.and_eq_true, decide_eq_true_eq] at h
  exact h.1.2

lemma nodup_addCard {clock : SessionClock} {now : Timestamp} {loaded : Loaded} {out : List Position} (card : Holding)
    (h : (out.map Position.symbol).Nodup) : ((addCard clock now loaded out card).map Position.symbol).Nodup := by
  rw [addCard]
  split_ifs with hcounts
  · rw [List.map_append, List.nodup_append]
    refine ⟨h, List.nodup_singleton _, fun symbol hsymbol other hother heq => ?_⟩
    rw [heq, List.mem_singleton.mp hother] at hsymbol
    exact counts_not_mem hcounts hsymbol
  · exact h

lemma nodup_positions (clock : SessionClock) (now : Timestamp) (loaded : Loaded) :
    ((positions clock now loaded).map Position.symbol).Nodup := by
  have hlive : ((loaded.cards.foldl (addCard clock now loaded) []).map Position.symbol).Nodup :=
    List.foldlRecOn loaded.cards (motive := fun out : List Position => (out.map Position.symbol).Nodup) _ List.nodup_nil
      fun out hout card _ => nodup_addCard card hout
  rw [positions]
  split
  · exact hlive
  · rename_i test mark _
    split_ifs with hcounts
    · rw [List.map_append, List.nodup_append]
      refine ⟨hlive, List.nodup_singleton _, fun symbol hsymbol other hother heq => ?_⟩
      rw [heq, List.mem_singleton.mp hother] at hsymbol
      exact counts_not_mem hcounts hsymbol
    · exact hlive

section Due

variable {t : Tick} {day : ℤ} {data : Stored} {seen : String → Option Timestamp} {found : Found}

lemma mem_named {hit : Hit} (h : hit ∈ found.named) : .signalStop ∈ found.kinds ∧ hit ∈ found.hits := by
  rw [Found.named] at h
  split_ifs at h with hkind
  · exact ⟨hkind, h⟩
  · exact absurd h List.not_mem_nil

lemma dropHits_kinds (found : Found) : (dropHits seen found).kinds.Sublist found.kinds := by
  rw [dropHits]
  split_ifs
  · exact List.filter_sublist
  · exact List.Sublist.refl _

lemma dropHits_position (found : Found) : (dropHits seen found).position = found.position := by
  rw [dropHits]
  split_ifs <;> rfl

lemma dropHits_hits (h : .signalStop ∈ (dropHits seen found).kinds) : (dropHits seen found).hits ≠ [] ∧
    ∀ hit ∈ (dropHits seen found).hits, hit ∈ found.hits ∧ newerThan (seen found.position.symbol) hit = true := by
  have hkind : .signalStop ∈ found.kinds := (dropHits_kinds found).subset h
  have hdrop : dropHits seen found = { found with
      hits := found.hits.filter (newerThan (seen found.position.symbol))
      kinds := found.kinds.filter fun kind => kind ≠ .signalStop ||
        found.hits.filter (newerThan (seen found.position.symbol)) ≠ [] } := by
    rw [dropHits]
    exact if_pos hkind
  rw [hdrop] at h ⊢
  refine ⟨?_, fun hit hhit => List.mem_filter.mp hhit⟩
  have hkept := (List.mem_filter.mp h).2
  simpa using hkept

structure DueOf (data : Stored) (seen : String → Option Timestamp) (candidate found : Found) : Prop where
  position : found.position = candidate.position
  kinds : found.kinds.Sublist candidate.kinds
  unspent : ∀ kind ∈ found.kinds, spent data found.position.symbol kind = false
  named : .signalStop ∈ found.kinds → found.hits ≠ [] ∧
    ∀ hit ∈ found.hits, hit ∈ candidate.hits ∧ newerThan (seen found.position.symbol) hit = true

lemma dueOf (candidate : Found) : DueOf data seen candidate (unspent data (dropHits seen candidate)) where
  position := dropHits_position candidate
  kinds := List.filter_sublist.trans (dropHits_kinds candidate)
  unspent := fun kind hkind => by simpa [unspent] using (List.mem_filter.mp hkind).2
  named := fun hkind => by
    have hposition : (unspent data (dropHits seen candidate)).position = candidate.position := dropHits_position candidate
    rw [hposition]
    exact dropHits_hits (List.filter_sublist.subset hkind)

lemma mem_due {candidates : List Found} (h : found ∈ due data seen candidates) :
    ∃ candidate ∈ candidates, DueOf data seen candidate found := by
  rw [due, List.map_map] at h
  obtain ⟨candidate, hcandidate, rfl⟩ := List.mem_map.mp (List.mem_filter.mp h).1
  exact ⟨candidate, hcandidate, dueOf candidate⟩

lemma due_positions (data : Stored) (seen : String → Option Timestamp) (candidates : List Found) :
    ((due data seen candidates).map Found.position).Sublist (candidates.map Found.position) := by
  rw [due, List.map_map]
  have hmap : (candidates.map (unspent data ∘ dropHits seen)).map Found.position = candidates.map Found.position := by
    rw [List.map_map]
    exact List.map_congr_left fun candidate _ => dropHits_position candidate
  exact hmap ▸ List.filter_sublist.map Found.position

lemma le_newestHit {hits : List Hit} {hit : Hit} (h : hit ∈ hits) :
    ∃ last, newestHit hits = some last ∧ hit.closedAt ≤ last := by
  induction hits with
  | nil => exact absurd h List.not_mem_nil
  | cons first rest ih =>
    rw [newestHit, List.foldr_cons, ← newestHit]
    rcases List.mem_cons.mp h with rfl | hrest
    · cases newestHit rest with
      | none => exact ⟨_, rfl, le_rfl⟩
      | some last => exact ⟨_, rfl, le_max_left _ _⟩
    · obtain ⟨last, hlast, hle⟩ := ih hrest
      rw [hlast]
      exact ⟨_, rfl, hle.trans (le_max_right _ _)⟩

end Due

def alertKeys (alert : Alert) : List Key := alert.kinds.map fun kind => (alert.day, alert.symbol, kind)

def alertItems (alert : Alert) : List (String × Timestamp) := alert.hits.map fun hit => (alert.symbol, hit.closedAt)

def Stored.has (data : Stored) (key : Key) : Prop := data.dubaiDate = some key.1 ∧ data.sent key.2.1 key.2.2 = true

def knows (day : ℤ) (done : List Key) (data : Stored) (key : Key) : Prop := key.1 = day ∧ (key ∈ done ∨ data.has key)

def expired (day : ℤ) (key : Key) : Prop := key.1 < day

def successes (alerts : List Alert) : List Alert := alerts.filter Alert.sent

/-- What is known of the alerts that were sent, of the keys through this list and the stored data. -/
def Accounts (now : Timestamp) (done : List Key) (data : Stored) (mark : String → Option Timestamp)
    (alerts : List Alert) : Prop :=
  Remembered.Ledger alertKeys alertItems (knows (alertDay now) done data) (expired (alertDay now)) mark (seenCutoff now)
    (successes alerts)

section Sending

variable {t : Tick} {done : List Key} {w : Sending} {found : Found}

lemma successes_append (alerts : List Alert) (alert : Alert) :
    successes (alerts ++ [alert]) = successes alerts ++ if alert.sent then [alert] else [] := by
  rw [successes, List.filter_append]
  cases h : alert.sent <;> simp [successes, h]

structure Ready (t : Tick) (done : List Key) (w : Sending) (found : Found) : Prop where
  unknown : ∀ kind ∈ found.kinds, (alertDay t.now, found.position.symbol, kind) ∉ done ∧
    w.data.sent found.position.symbol kind = false
  left : ∀ kind ∈ found.kinds, w.data.failed found.position.symbol kind < maxSendAttempts
  named : .signalStop ∈ found.kinds → found.hits ≠ [] ∧ ∀ hit ∈ found.hits, seenCutoff t.now ≤ hit.closedAt ∧
    ∀ newest, w.memo.seen found.position.symbol = some newest → newest < hit.closedAt

structure Consistent (t : Tick) (done : List Key) (stored : Stored) (w : Sending) : Prop where
  accounts : Accounts t.now done w.data w.memo.seen w.alerts
  date : w.data.dubaiDate = some (alertDay t.now)
  seen : w.data.signalSeen = w.memo.seen
  sent : ∀ symbol kind, w.data.sent symbol kind = true →
    (alertDay t.now, symbol, kind) ∈ w.memo.done ∨ stored.has (alertDay t.now, symbol, kind)

lemma consistent_fail {stored : Stored} (h : Consistent t done stored w) :
    Consistent t done stored (w.fail (alertDay t.now) found) where
  accounts := by
    have hsame : successes (w.fail (alertDay t.now) found).alerts = successes w.alerts :=
      (successes_append _ _).trans (List.append_nil _)
    rw [Accounts, hsame]
    exact h.accounts
  date := h.date
  seen := h.seen
  sent := h.sent

lemma seen_succeed (symbol : String) (newest : Timestamp) (hready : Ready t done w found)
    (hseen : w.memo.seen symbol = some newest) :
    ∃ newer, (w.succeed (alertDay t.now) found).memo.seen symbol = some newer ∧ newest ≤ newer := by
  simp only [Sending.succeed]
  split_ifs with hkind
  · by_cases hsymbol : symbol = found.position.symbol
    · subst hsymbol
      rw [Function.update_self]
      obtain ⟨hsome, hhits⟩ := hready.named hkind
      obtain ⟨hit, hhit⟩ := List.exists_mem_of_ne_nil _ hsome
      obtain ⟨last, hlast, hle⟩ := le_newestHit hhit
      exact ⟨last, hlast, ((hhits hit hhit).2 newest hseen).le.trans hle⟩
    · rw [Function.update_of_ne hsymbol]
      exact ⟨newest, hseen, le_rfl⟩
  · exact ⟨newest, hseen, le_rfl⟩

lemma consistent_succeed {stored : Stored} (h : Consistent t done stored w) (hready : Ready t done w found) :
    Consistent t done stored (w.succeed (alertDay t.now) found) where
  accounts := by
    have hadd : successes (w.succeed (alertDay t.now) found).alerts =
        successes w.alerts ++ [⟨alertDay t.now, found.position.symbol, found.kinds, found.named, true⟩] :=
      successes_append _ _
    rw [Accounts, hadd]
    refine h.accounts.add (fun key hkey => ?_) (fun item hitem => ?_) (fun key hkey => ?_)
      (fun symbol newest hseen => seen_succeed symbol newest hready hseen) (fun item hitem => ?_)
    · obtain ⟨kind, hkind, rfl⟩ := List.mem_map.mp hkey
      obtain ⟨hdone, hsent⟩ := hready.unknown kind hkind
      refine ⟨fun hknows => ?_, lt_irrefl _⟩
      rcases hknows.2 with hmem | hhas
      · exact hdone hmem
      · exact Bool.false_ne_true (hsent.symm.trans hhas.2)
    · obtain ⟨hit, hhit, rfl⟩ := List.mem_map.mp hitem
      obtain ⟨hkind, hhits⟩ := mem_named hhit
      exact (hready.named hkind).2 hit hhits
    · rcases hkey with hknows | hnew
      · refine ⟨hknows.1, hknows.2.imp_right fun hhas => ⟨hhas.1, ?_⟩⟩
        simp only [Sending.succeed]
        by_cases hsymbol : key.2.1 = found.position.symbol
        · rw [hsymbol, Function.update_self, ← hsymbol, hhas.2, Bool.true_or]
        · rw [Function.update_of_ne hsymbol]
          exact hhas.2
      · obtain ⟨kind, hkind, rfl⟩ := List.mem_map.mp hnew
        refine ⟨rfl, Or.inr ⟨h.date, ?_⟩⟩
        simp only [Sending.succeed, Function.update_self]
        simp [hkind]
    · obtain ⟨hit, hhit, rfl⟩ := List.mem_map.mp hitem
      obtain ⟨hkind, hhits⟩ := mem_named hhit
      simp only [Sending.succeed, if_pos hkind, Function.update_self]
      exact le_newestHit hhits
  date := h.date
  seen := rfl
  sent := fun symbol kind hsent => by
    by_cases hnew : symbol = found.position.symbol ∧ kind ∈ found.kinds
    · obtain ⟨rfl, hkind⟩ := hnew
      exact Or.inl (List.mem_append_right _ (List.mem_map.mpr ⟨kind, hkind, rfl⟩))
    · have hbefore : w.data.sent symbol kind = true := by
        simp only [Sending.succeed] at hsent
        by_cases hsymbol : symbol = found.position.symbol
        · subst hsymbol
          rw [Function.update_self, Bool.or_eq_true, decide_eq_true_eq] at hsent
          exact hsent.resolve_right fun hkind => hnew ⟨rfl, hkind⟩
        · rwa [Function.update_of_ne hsymbol] at hsent
      exact (h.sent symbol kind hbefore).imp_left (List.mem_append_left _)

lemma ready_sendOne {other : Found} (hother : Ready t done w other) (hsymbol : other.position.symbol ≠ found.position.symbol) :
    Ready t done (sendOne t (alertDay t.now) w found) other := by
  rw [sendOne]
  split_ifs
  · refine ⟨fun kind hkind => ⟨(hother.unknown kind hkind).1, ?_⟩, hother.left, fun hkind => ?_⟩
    · simp only [Sending.succeed, Function.update_of_ne hsymbol]
      exact (hother.unknown kind hkind).2
    · obtain ⟨hsome, hhits⟩ := hother.named hkind
      refine ⟨hsome, fun hit hhit => ⟨(hhits hit hhit).1, fun newest hnewest => (hhits hit hhit).2 newest ?_⟩⟩
      simp only [Sending.succeed] at hnewest
      split_ifs at hnewest
      · rwa [Function.update_of_ne hsymbol] at hnewest
      · exact hnewest
  · refine ⟨hother.unknown, fun kind hkind => ?_, hother.named⟩
    simp only [Sending.fail, Function.update_of_ne hsymbol]
    exact hother.left kind hkind

lemma consistent_sendAll {stored : Stored} {due : List Found} (h : Consistent t done stored w)
    (hready : ∀ found ∈ due, Ready t done w found) (hnodup : (due.map fun found => found.position.symbol).Nodup) :
    Consistent t done stored (due.foldl (sendOne t (alertDay t.now)) w) := by
  induction due generalizing w with
  | nil => exact h
  | cons found rest ih =>
    obtain ⟨hfirst, hrest⟩ := List.nodup_cons.mp hnodup
    have hnext : Consistent t done stored (sendOne t (alertDay t.now) w found) := by
      rw [sendOne]
      split_ifs
      · exact consistent_succeed h (hready found List.mem_cons_self)
      · exact consistent_fail h
    refine ih hnext (fun other hother => ?_) hrest
    exact ready_sendOne (hready other (List.mem_cons_of_mem _ hother)) fun heq =>
      hfirst (List.mem_map.mpr ⟨other, hother, heq⟩)

end Sending

section Check

variable {clock : SessionClock} {t : Tick} {s : State} {memo : Memo} {now next : Timestamp}
variable {done done' : List Key} {data data' : Stored} {mark mark' : String → Option Timestamp} {alerts : List Alert}

lemma Accounts.mono (h : Accounts now done data mark alerts)
    (hknown : ∀ key : Key, key.1 = alertDay now → key ∈ done ∨ data.has key → key ∈ done' ∨ data'.has key)
    (hmark : ∀ symbol newest, mark symbol = some newest →
      (∃ newer, mark' symbol = some newer ∧ newest ≤ newer) ∨ newest < seenCutoff now) :
    Accounts now done' data' mark' alerts :=
  Remembered.Ledger.mono h (fun key hknows => Or.inl ⟨hknows.1, hknown key hknows.1 hknows.2⟩) (fun _ hexpired => hexpired)
    hmark le_rfl

lemma alertDay_mono (h : now ≤ next) : alertDay now ≤ alertDay next :=
  utcDate_mono (Int.add_le_add_right h _)

lemma Accounts.advance (h : Accounts now done data mark alerts) (hnext : now ≤ next) :
    Accounts next (done.filter (·.1 = alertDay next)) data mark alerts := by
  refine Remembered.Ledger.mono h (fun key hknows => ?_) (fun key hexpired => hexpired.trans_le (alertDay_mono hnext))
    (fun symbol newest hnewest => Or.inl ⟨newest, hnewest, le_rfl⟩) (Int.sub_le_sub_right hnext _)
  rcases (alertDay_mono hnext).lt_or_eq with hlt | heq
  · exact Or.inr (hknows.1.trans_lt hlt)
  · have hday : key.1 = alertDay next := hknows.1.trans heq
    exact Or.inl ⟨hday, hknows.2.imp_left fun hmem => List.mem_filter.mpr ⟨hmem, decide_eq_true hday⟩⟩

def Held (now : Timestamp) (s : State) : Prop :=
  Accounts now s.memo.done s.stored (fun symbol => newest (s.memo.seen symbol) (s.stored.signalSeen symbol)) s.alerts

def Persisted (now : Timestamp) (s : State) : Prop := Accounts now [] s.stored s.stored.signalSeen s.alerts

lemma le_newest_left (a : Timestamp) (b : Option Timestamp) : ∃ c, newest (some a) b = some c ∧ a ≤ c := by
  cases b with
  | none => exact ⟨a, rfl, le_rfl⟩
  | some b => exact ⟨max a b, rfl, le_max_left a b⟩

lemma le_newest_right (a : Option Timestamp) (b : Timestamp) : ∃ c, newest a (some b) = some c ∧ b ≤ c := by
  cases a with
  | none => exact ⟨b, rfl, le_rfl⟩
  | some a => exact ⟨max a b, rfl, le_max_right a b⟩

lemma le_mergeSeen {stored : Stored} {symbol : String} {last : Timestamp}
    (h : newest (memo.seen symbol) (stored.signalSeen symbol) = some last) :
    mergeSeen t memo stored symbol = some last ∨ last < seenCutoff t.now := by
  rw [mergeSeen, h]
  by_cases hcutoff : seenCutoff t.now ≤ last
  · exact Or.inl (Option.filter_some_pos (decide_eq_true hcutoff))
  · exact Or.inr (not_le.mp hcutoff)

lemma has_dayData {day : ℤ} {stored : Stored} {seen : String → Option Timestamp} {key : Key} (hday : key.1 = day) :
    (dayData day stored seen).has key ↔ stored.has key := by
  rw [dayData]
  split_ifs with hdate
  · exact Iff.rfl
  · exact ⟨fun h => absurd h.2 Bool.false_ne_true, fun h => absurd (hday ▸ h.1) hdate⟩

lemma date_dayData (day : ℤ) (stored : Stored) (seen : String → Option Timestamp) :
    (dayData day stored seen).dubaiDate = some day ∧ (dayData day stored seen).signalSeen = seen := by
  rw [dayData]
  split_ifs with hdate
  · exact ⟨hdate, rfl⟩
  · exact ⟨rfl, rfl⟩

lemma quotes_memo (t : Tick) (day : ℤ) (memo : Memo) (due : List Found) :
    (quotes t day memo due).done = memo.done ∧ (quotes t day memo due).seen = memo.seen := by
  rw [quotes]
  split_ifs <;> exact ⟨rfl, rfl⟩

def sendingOf (t : Tick) (s : State) (memo : Memo) (found : List Found) : Sending :=
  let seen := mergeSeen t memo s.stored
  let data := dayData (alertDay t.now) s.stored seen
  let merged := { memo with
    seen := seen
    done := memo.done ++ (found.map (dropHits seen)).flatMap (spentKeys (alertDay t.now) data) }
  ⟨quotes t (alertDay t.now) merged (due data seen found), data, s.alerts⟩

lemma sendingOf_spec (t : Tick) (s : State) (memo : Memo) (found : List Found) :
    (sendingOf t s memo found).data = dayData (alertDay t.now) s.stored (mergeSeen t memo s.stored) ∧
      (sendingOf t s memo found).memo.seen = mergeSeen t memo s.stored ∧
        (sendingOf t s memo found).alerts = s.alerts ∧
          ∀ key ∈ memo.done, key ∈ (sendingOf t s memo found).memo.done := by
  refine ⟨rfl, (quotes_memo _ _ _ _).2, rfl, fun key hkey => ?_⟩
  rw [sendingOf]
  dsimp only
  rw [(quotes_memo _ _ _ _).1]
  exact List.mem_append_left _ hkey

lemma consistent_sendingOf (found : List Found) (h : Accounts t.now done s.stored mark s.alerts)
    (hmark : ∀ symbol newest, mark symbol = some newest →
      (∃ newer, mergeSeen t memo s.stored symbol = some newer ∧ newest ≤ newer) ∨ newest < seenCutoff t.now) :
    Consistent t done s.stored (sendingOf t s memo found) := by
  obtain ⟨hdata, hseen, halerts, -⟩ := sendingOf_spec t s memo found
  obtain ⟨hdate, hdataSeen⟩ := date_dayData (alertDay t.now) s.stored (mergeSeen t memo s.stored)
  refine ⟨?_, hdata ▸ hdate, by rw [hdata, hdataSeen, hseen], fun symbol kind hsent => Or.inr ?_⟩
  · rw [hdata, hseen, halerts]
    exact h.mono (fun key hday hknown => hknown.imp_right (has_dayData hday).mpr) hmark
  · rw [hdata] at hsent
    exact (has_dayData rfl).mp ⟨hdate, hsent⟩

lemma ready_sendingOf {found : Found} {positions : List Position} {candidates : List Found}
    (hcandidates : ∀ candidate ∈ candidates, Candidate t (alertDay t.now) memo.done positions candidate)
    (hdone : ∀ key ∈ done, key ∈ memo.done)
    (hfound : found ∈ due (dayData (alertDay t.now) s.stored (mergeSeen t memo s.stored)) (mergeSeen t memo s.stored)
      candidates) : Ready t done (sendingOf t s memo candidates) found := by
  obtain ⟨hdata, hseen, -, -⟩ := sendingOf_spec t s memo candidates
  obtain ⟨candidate, hmem, hof⟩ := mem_due hfound
  obtain ⟨-, hopen, hhits⟩ := hcandidates candidate hmem
  refine ⟨fun kind hkind => ⟨fun hkey => ?_, ?_⟩, fun kind hkind => ?_, fun hkind => ?_⟩
  · exact hopen kind (hof.kinds.subset hkind) (hof.position ▸ hdone _ hkey)
  · have hunspent := hof.unspent kind hkind
    rw [spent, Bool.or_eq_false_iff] at hunspent
    exact hdata ▸ hunspent.1
  · have hunspent := hof.unspent kind hkind
    rw [spent, Bool.or_eq_false_iff] at hunspent
    exact hdata ▸ not_le.mp (of_decide_eq_false hunspent.2)
  · obtain ⟨hsome, hnew⟩ := hof.named hkind
    refine ⟨hsome, fun hit hhit => ⟨hhits hit (hnew hit hhit).1, fun newest hnewest => ?_⟩⟩
    have hnewer := (hnew hit hhit).2
    rw [hseen] at hnewest
    rw [newerThan, hnewest] at hnewer
    exact of_decide_eq_true hnewer

lemma due_nodup {positions : List Position} {candidates : List Found} {seen : String → Option Timestamp}
    (hcandidates : (candidates.map Found.position).Sublist positions) (hnodup : (positions.map Position.symbol).Nodup) :
    ((due data seen candidates).map fun found => found.position.symbol).Nodup := by
  have hsub := ((due_positions data seen candidates).trans hcandidates).map Position.symbol
  rw [List.map_map] at hsub
  exact hsub.nodup hnodup

def sendAll (t : Tick) (s : State) (memo : Memo) (found : List Found) : Sending :=
  (due (dayData (alertDay t.now) s.stored (mergeSeen t memo s.stored)) (mergeSeen t memo s.stored) found).foldl
    (sendOne t (alertDay t.now)) (sendingOf t s memo found)

lemma alert_cases (t : Tick) (s : State) (memo : Memo) (found : List Found) :
    alert t (alertDay t.now) s memo found = { s with memo := memo } ∨
    (∃ done, alert t (alertDay t.now) s memo found =
      { s with memo := { memo with seen := mergeSeen t memo s.stored, done := memo.done ++ done } }) ∨
    ∃ days, alert t (alertDay t.now) s memo found =
      { memo := (sendAll t s memo found).memo
        stored := if t.saveFails then s.stored else (sendAll t s memo found).data
        alerts := (sendAll t s memo found).alerts
        quoteReads := days } := by
  by_cases hread : t.readFails = true
  · exact Or.inl (if_pos hread)
  · refine Or.inr ?_
    by_cases hdue : due (dayData (alertDay t.now) s.stored (mergeSeen t memo s.stored)) (mergeSeen t memo s.stored)
        found = []
    · have halert : alert t (alertDay t.now) s memo found = _ := (if_neg hread).trans (if_pos hdue)
      exact Or.inl ⟨_, halert⟩
    · have halert : alert t (alertDay t.now) s memo found = _ := (if_neg hread).trans (if_neg hdue)
      exact Or.inr ⟨_, halert⟩

lemma consistent_sendAll_of {positions : List Position} {found : List Found}
    (hnodup : (positions.map Position.symbol).Nodup) (hfound : (found.map Found.position).Sublist positions)
    (hcandidates : ∀ candidate ∈ found, Candidate t (alertDay t.now) memo.done positions candidate)
    (hdone : ∀ key ∈ done, key ∈ memo.done) (h : Accounts t.now done s.stored mark s.alerts)
    (hmark : ∀ symbol newest, mark symbol = some newest →
      (∃ newer, mergeSeen t memo s.stored symbol = some newer ∧ newest ≤ newer) ∨ newest < seenCutoff t.now) :
    Consistent t done s.stored (sendAll t s memo found) :=
  consistent_sendAll (consistent_sendingOf found h hmark) (fun _ hother => ready_sendingOf hcandidates hdone hother)
    (due_nodup hfound hnodup)

lemma done_sendOne (t : Tick) (day : ℤ) (w : Sending) (found : Found) {key : Key} (h : key ∈ w.memo.done) :
    key ∈ (sendOne t day w found).memo.done := by
  rw [sendOne]
  split_ifs
  · exact List.mem_append_left _ h
  · exact h

lemma done_sendAll (t : Tick) (s : State) (memo : Memo) (found : List Found) {key : Key} (h : key ∈ memo.done) :
    key ∈ (sendAll t s memo found).memo.done :=
  List.foldlRecOn _ (motive := fun w : Sending => key ∈ w.memo.done) _
    ((sendingOf_spec t s memo found).2.2.2 key h) fun w hw other _ => done_sendOne t _ w other hw

lemma merged_mark {stored : Stored} (symbol : String) (last : Timestamp)
    (hlast : newest (memo.seen symbol) (stored.signalSeen symbol) = some last) :
    (∃ newer, mergeSeen t memo stored symbol = some newer ∧ last ≤ newer) ∨ last < seenCutoff t.now :=
  (le_mergeSeen hlast).imp_left fun hsome => ⟨last, hsome, le_rfl⟩

lemma merged_stored {stored : Stored} (symbol : String) (last : Timestamp)
    (hlast : stored.signalSeen symbol = some last) :
    (∃ newer, mergeSeen t memo stored symbol = some newer ∧ last ≤ newer) ∨ last < seenCutoff t.now := by
  obtain ⟨newer, hnewer, hle⟩ := le_newest_right (memo.seen symbol) last
  rw [← hlast] at hnewer
  rcases merged_mark (t := t) symbol newer hnewer with ⟨last', hsome, hle'⟩ | hdropped
  · exact Or.inl ⟨last', hsome, hle.trans hle'⟩
  · exact Or.inr (hle.trans_lt hdropped)

lemma alert_spec {positions : List Position} {found : List Found}
    (hnodup : (positions.map Position.symbol).Nodup) (hfound : (found.map Found.position).Sublist positions)
    (hcandidates : ∀ candidate ∈ found, Candidate t (alertDay t.now) memo.done positions candidate)
    (hheld : Held t.now { s with memo := memo }) :
    Held t.now (alert t (alertDay t.now) s memo found) ∧
      (Persisted t.now s → t.saveFails = false → Persisted t.now (alert t (alertDay t.now) s memo found)) := by
  rcases alert_cases t s memo found with heq | ⟨spentToday, heq⟩ | ⟨days, heq⟩
  · rw [heq]
    exact ⟨hheld, fun hpersisted _ => hpersisted⟩
  · rw [heq]
    refine ⟨hheld.mono (fun key _ hknown => hknown.imp_left (List.mem_append_left _)) fun symbol last hlast => ?_,
      fun hpersisted _ => hpersisted⟩
    refine (merged_mark symbol last hlast).imp_left fun hnewer => ?_
    obtain ⟨newer, hnewer, hle⟩ := hnewer
    obtain ⟨top, htop, hle'⟩ := le_newest_left newer (s.stored.signalSeen symbol)
    rw [← hnewer] at htop
    exact ⟨top, htop, hle.trans hle'⟩
  · have hboth : Consistent t memo.done s.stored (sendAll t s memo found) :=
      consistent_sendAll_of hnodup hfound hcandidates (fun _ hkey => hkey) hheld merged_mark
    rw [heq]
    refine ⟨hboth.accounts.mono (fun key hday hknown => ?_) fun symbol last hlast => Or.inl ?_,
      fun hpersisted hsaves => ?_⟩
    · rcases hknown with hmem | hhas
      · exact Or.inl (done_sendAll t s memo found hmem)
      · obtain ⟨day, symbol, kind⟩ := key
        obtain rfl : day = alertDay t.now := hday
        rcases hboth.sent symbol kind hhas.2 with hmem | hbefore
        · exact Or.inl hmem
        · dsimp only
          split_ifs
          · exact Or.inr hbefore
          · exact Or.inr hhas
    · obtain ⟨top, htop, hle⟩ := le_newest_left last
        ((if t.saveFails then s.stored else (sendAll t s memo found).data).signalSeen symbol)
      exact ⟨top, hlast ▸ htop, hle⟩
    · have halone : Consistent t [] s.stored (sendAll t s memo found) :=
        consistent_sendAll_of hnodup hfound hcandidates (fun _ hkey => absurd hkey List.not_mem_nil) hpersisted
          merged_stored
      have hstored : (if t.saveFails then s.stored else (sendAll t s memo found).data) = (sendAll t s memo found).data :=
        if_neg (hsaves ▸ Bool.false_ne_true)
      rw [Persisted, hstored, halone.seen]
      exact halone.accounts

lemma check_cases (clock : SessionClock) (s : State) (t : Tick) :
    check clock s t = s ∨
    ∃ loaded, ∃ memo : Memo, memo.done = s.memo.done.filter (·.1 = alertDay t.now) ∧ memo.seen = s.memo.seen ∧
      memo.quoteReads = s.memo.quoteReads ∧
      let checked := candidates clock t (alertDay t.now) memo (positions clock t.now loaded)
      check clock s t = { s with memo := checked.2 } ∨
        check clock s t = alert t (alertDay t.now) s checked.2 checked.1 := by
  rw [check]
  split_ifs with hidle
  · exact Or.inl rfl
  · cases hloaded : t.loaded with
    | none => exact Or.inl rfl
    | some loaded =>
      rw [Option.map_some]
      cases hpositions : positions clock t.now loaded with
      | nil => exact Or.inl rfl
      | cons position rest =>
        refine Or.inr ⟨loaded, refreshSignalStops t { s.memo with
          done := s.memo.done.filter (·.1 = alertDay t.now), barReads := 0 }, refreshSignalStops_memo.1,
          refreshSignalStops_memo.2.1, refreshSignalStops_memo.2.2, ?_⟩
        dsimp only
        rw [hpositions]
        split_ifs
        · exact Or.inl rfl
        · exact Or.inr rfl

lemma check_spec (hheld : Held now s) (hnow : now ≤ t.now) :
    Held t.now (check clock s t) ∧
      (Persisted now s → t.saveFails = false → Persisted t.now (check clock s t)) := by
  have hlater : Accounts t.now (s.memo.done.filter (·.1 = alertDay t.now)) s.stored
      (fun symbol => newest (s.memo.seen symbol) (s.stored.signalSeen symbol)) s.alerts := hheld.advance hnow
  have hkept (hpersisted : Persisted now s) : Persisted t.now s := hpersisted.advance hnow
  rcases check_cases clock s t with heq | ⟨loaded, memo, hdone, hseen, -, heq | heq⟩
  · rw [heq]
    exact ⟨hlater.mono (fun key _ hknown => hknown.imp_left fun hmem => (List.mem_filter.mp hmem).1)
      fun symbol last hlast => Or.inl ⟨last, hlast, le_rfl⟩, fun hpersisted _ => hkept hpersisted⟩
  all_goals
    obtain ⟨hdone', hseen', -⟩ := candidates_memo clock t (alertDay t.now) memo
      (positions clock t.now loaded)
    have hmemo : Held t.now { s with memo := (candidates clock t (alertDay t.now) memo
        (positions clock t.now loaded)).2 } := by
      rw [Held]
      dsimp only
      rw [hdone', hseen', hdone, hseen]
      exact hlater
    rw [heq]
  · exact ⟨hmemo, fun hpersisted _ => hkept hpersisted⟩
  · obtain ⟨hboth, halone⟩ := alert_spec (nodup_positions clock t.now loaded) (candidates_sublist memo _)
      (fun candidate hmem => hdone' ▸ mem_candidates hmem) hmemo
    exact ⟨hboth, fun hpersisted hsaves => halone (hkept hpersisted) hsaves⟩

end Check

lemma held_start (now : Timestamp) : Held now State.start ∧ Persisted now State.start :=
  ⟨Remembered.Ledger.nil, Remembered.Ledger.nil⟩

lemma forget_spec {now : Timestamp} {s : State} (hpersisted : Persisted now s) :
    Held now (forget s) ∧ Persisted now (forget s) := by
  refine ⟨hpersisted.mono (fun _ _ hknown => hknown) fun symbol last hlast => Or.inl ⟨last, ?_, le_rfl⟩, hpersisted⟩
  exact hlast

lemma check_keeps (clock : SessionClock) :
    Remembered.Keeps (check clock) forget Tick.now (fun t => !t.saveFails) Held Persisted where
  held := fun _ _ _ hheld hnow => (check_spec hheld hnow).1
  stored := fun _ _ _ hheld hpersisted hnow hsaves =>
    (check_spec hheld hnow).2 hpersisted ((Bool.not_eq_eq_eq_not).mp hsaves)
  forget := fun _ _ hpersisted => forget_spec hpersisted

structure SentOnce (earlier later : Alert) : Prop where
  kinds : earlier.day = later.day → earlier.symbol = later.symbol → ∀ kind ∈ earlier.kinds, kind ∉ later.kinds
  hits : earlier.symbol = later.symbol → ∀ hit ∈ earlier.hits, ∀ hit' ∈ later.hits, hit.closedAt < hit'.closedAt

/-- With a clock that does not go back and no restart after a save that failed: of the alerts that were
sent, no two share a kind for a symbol on a day, and no two name the same stop hit, or a newer one first. -/
theorem sent_once (clock : SessionClock) (first : Timestamp) (actions : List (Remembered.Action Tick))
    (hordered : Remembered.Ordered Tick.now first actions)
    (hsaved : Remembered.Saved (fun t : Tick => !t.saveFails) actions) :
    ((run clock actions).alerts.filter Alert.sent).Pairwise SentOnce := by
  obtain ⟨last, hheld⟩ := (check_keeps clock).run_held (held_start first).1 (fun _ => (held_start first).2) hordered
    hsaved
  refine (hheld.once.and hheld.newer).imp fun {earlier later} h => ⟨fun hday hsymbol kind hkind hagain => ?_,
    fun hsymbol hit hhit hit' hhit' => ?_⟩
  · refine h.1 (earlier.day, earlier.symbol, kind) (List.mem_map.mpr ⟨kind, hkind, rfl⟩) ?_
    rw [hday, hsymbol]
    exact List.mem_map.mpr ⟨kind, hagain, rfl⟩
  · exact h.2 (earlier.symbol, hit.closedAt) (List.mem_map.mpr ⟨hit, hhit, rfl⟩) (later.symbol, hit'.closedAt)
      (List.mem_map.mpr ⟨hit', hhit', rfl⟩) hsymbol

def winter : SessionClock where
  toNewYorkClock := Utils.Time.easternStandard
  closes day := day * microsPerDay + 21 * 60 * microsPerMinute
  closes_succ day := by
    simp only [microsPerDay, microsPerMinute]
    linarith
  le_closes now := by
    have h := Int.lt_ediv_add_one_mul_self (now - 5 * 60 * microsPerMinute) (by decide : 0 < microsPerDay)
    simp only [Utils.Time.easternStandard, utcDate]
    have hfive : 0 ≤ microsPerMinute := by decide
    linarith

/-- A position ten percent below its close, three hours into a Tuesday in UTC. -/
def nightTick (minute : ℕ) (sends : Bool) : Tick :=
  let now := 5 * microsPerDay + (3 * 60 + minute) * microsPerMinute
  { now := now
    loaded := some {
      cards := [⟨"AAA", true, some 101, none, some 85, none, some 7⟩]
      marks := fun _ => some ⟨90, now⟩
      test := none }
    bars := some fun _ => some [⟨4 * microsPerDay + 5 * 60 * microsPerMinute, 99, 102, 98, 100, 1000⟩]
    sends := fun _ => sends }

def night : List (Remembered.Action Tick) :=
  [.event (nightTick 0 false), .event (nightTick 1 true), .restart, .event (nightTick 2 true)]

theorem night_sent_once : ((run winter night).alerts.filter Alert.sent).Pairwise SentOnce ∧
    (run winter night).alerts.map Alert.sent = [false, true] :=
  ⟨sent_once winter 0 night ⟨by decide, by decide, by decide, trivial⟩
    ⟨fun h => absurd h (by decide), fun h => absurd h (by decide), fun h => absurd h (by decide), trivial⟩,
    by decide +kernel⟩

def tries (key : Key) (alerts : List Alert) : ℕ :=
  alerts.countP fun alert => alert.day = key.1 ∧ alert.symbol = key.2.1 ∧ key.2.2 ∈ alert.kinds

def Stored.failures (data : Stored) (key : Key) : ℕ :=
  if data.dubaiDate = some key.1 then data.failed key.2.1 key.2.2 else 0

structure Tried (now : Timestamp) (data : Stored) (alerts : List Alert) : Prop where
  days : ∀ alert ∈ alerts, alert.day ≤ alertDay now
  tries : ∀ key, tries key alerts ≤ maxSendAttempts
  failed : ∀ key : Key, key.1 = alertDay now → OvernightAlert.tries key (successes alerts) = 0 →
    OvernightAlert.tries key alerts ≤ data.failures key

section Tries

variable {t : Tick} {done : List Key} {stored : Stored} {w : Sending} {found : Found} {now next : Timestamp}
variable {alerts : List Alert} {data : Stored} {key : Key}

lemma mem_alertKeys {alert : Alert} :
    key ∈ alertKeys alert ↔ alert.day = key.1 ∧ alert.symbol = key.2.1 ∧ key.2.2 ∈ alert.kinds := by
  rw [alertKeys, List.mem_map]
  constructor
  · rintro ⟨kind, hkind, rfl⟩
    exact ⟨rfl, rfl, hkind⟩
  · rintro ⟨hday, hsymbol, hkind⟩
    exact ⟨key.2.2, hkind, by rw [hday, hsymbol]⟩

lemma tries_append (key : Key) (alerts : List Alert) (alert : Alert) :
    tries key (alerts ++ [alert]) = tries key alerts + if key ∈ alertKeys alert then 1 else 0 := by
  rw [tries, tries, List.countP_append, List.countP_singleton]
  simp only [decide_eq_true_eq, mem_alertKeys]

lemma tries_eq_zero : tries key alerts = 0 ↔ ∀ alert ∈ alerts, key ∉ alertKeys alert := by
  rw [tries, List.countP_eq_zero]
  simp only [decide_eq_true_eq, mem_alertKeys]

lemma Tried.advance (h : Tried now data alerts) (hnext : now ≤ next) : Tried next data alerts where
  days := fun alert halert => (h.days alert halert).trans (alertDay_mono hnext)
  tries := h.tries
  failed := fun key hday hnone => by
    rcases (alertDay_mono hnext).lt_or_eq with hlt | heq
    · have hzero : OvernightAlert.tries key alerts = 0 := tries_eq_zero.mpr fun alert halert hkey =>
        absurd ((mem_alertKeys.mp hkey).1.trans hday) ((h.days alert halert).trans_lt hlt).ne
      rw [hzero]
      exact Nat.zero_le _
    · exact h.failed key (hday.trans heq.symm) hnone

lemma failures_dayData {day : ℤ} {seen : String → Option Timestamp} (hday : key.1 = day) :
    (dayData day stored seen).failures key = stored.failures key := by
  rw [dayData]
  split_ifs with hdate
  · rfl
  · rw [Stored.failures, Stored.failures, hday, if_neg hdate, if_pos rfl]
    rfl

lemma tries_of_ready (h : Consistent t done stored w) (hready : Ready t done w found)
    (htried : Tried t.now w.data w.alerts) {kind : Kind} (hkind : kind ∈ found.kinds) :
    tries (alertDay t.now, found.position.symbol, kind) (successes w.alerts) = 0 ∧
      tries (alertDay t.now, found.position.symbol, kind) w.alerts ≤ w.data.failed found.position.symbol kind := by
  have hnone : tries (alertDay t.now, found.position.symbol, kind) (successes w.alerts) = 0 := by
    refine tries_eq_zero.mpr fun alert halert hkey => ?_
    obtain ⟨hdone, hsent⟩ := hready.unknown kind hkind
    rcases h.accounts.known alert halert _ hkey with hknows | hexpired
    · rcases hknows.2 with hmem | hhas
      · exact hdone hmem
      · exact Bool.false_ne_true (hsent.symm.trans hhas.2)
    · exact lt_irrefl _ hexpired
  have hle := htried.failed _ rfl hnone
  rw [Stored.failures, if_pos h.date] at hle
  exact ⟨hnone, hle⟩

lemma tried_add {sent : Bool} (h : Consistent t done stored w) (hready : Ready t done w found)
    (htried : Tried t.now w.data w.alerts) (hdate : data.dubaiDate = w.data.dubaiDate)
    (hfailed : ∀ symbol kind, w.data.failed symbol kind + (if sent then 0
      else if symbol = found.position.symbol ∧ kind ∈ found.kinds then 1 else 0) ≤ data.failed symbol kind) :
    Tried t.now data
      (w.alerts ++ [⟨alertDay t.now, found.position.symbol, found.kinds, found.named, sent⟩]) where
  days := fun alert halert => by
    rcases List.mem_append.mp halert with hearlier | hlast
    · exact htried.days alert hearlier
    · rw [List.mem_singleton.mp hlast]
  tries := fun key => by
    rw [tries_append]
    split_ifs with hkey
    · obtain ⟨hday, hsymbol, hkind⟩ := mem_alertKeys.mp hkey
      obtain ⟨day, symbol, kind⟩ := key
      obtain rfl : alertDay t.now = day := hday
      obtain rfl : found.position.symbol = symbol := hsymbol
      exact (Nat.succ_le_succ (tries_of_ready h hready htried hkind).2).trans (hready.left kind hkind)
    · exact htried.tries key
  failed := fun key hday hnone => by
    rw [successes_append] at hnone
    have hbefore : OvernightAlert.tries key (successes w.alerts) = 0 :=
      tries_eq_zero.mpr fun alert halert => tries_eq_zero.mp hnone alert (List.mem_append_left _ halert)
    have hle := htried.failed key hday hbefore
    have hcount := hfailed key.2.1 key.2.2
    rw [Stored.failures, hday, h.date, if_pos rfl] at hle
    rw [tries_append, Stored.failures, hdate, hday, h.date, if_pos rfl]
    cases sent with
    | true =>
      have hnot : key ∉ alertKeys ⟨alertDay t.now, found.position.symbol, found.kinds, found.named, true⟩ :=
        tries_eq_zero.mp hnone _ (List.mem_append_right _ (List.mem_singleton_self _))
      rw [if_neg hnot]
      exact hle.trans hcount
    | false =>
      rw [if_neg Bool.false_ne_true] at hcount
      refine le_trans (Nat.add_le_add hle ?_) hcount
      split_ifs with hkey hnew
      · exact le_rfl
      · exact absurd ((mem_alertKeys.mp hkey).2.imp_left Eq.symm) hnew
      · exact Nat.zero_le _
      · exact le_rfl

lemma tried_sendAll {due : List Found} (h : Consistent t done stored w) (htried : Tried t.now w.data w.alerts)
    (hready : ∀ found ∈ due, Ready t done w found) (hnodup : (due.map fun found => found.position.symbol).Nodup) :
    Tried t.now (due.foldl (sendOne t (alertDay t.now)) w).data
      (due.foldl (sendOne t (alertDay t.now)) w).alerts := by
  induction due generalizing w with
  | nil => exact htried
  | cons found rest ih =>
    obtain ⟨hfirst, hrest⟩ := List.nodup_cons.mp hnodup
    have hfound := hready found List.mem_cons_self
    have hnext : Consistent t done stored (sendOne t (alertDay t.now) w found) ∧
        Tried t.now (sendOne t (alertDay t.now) w found).data (sendOne t (alertDay t.now) w found).alerts := by
      rw [sendOne]
      split_ifs
      · exact ⟨consistent_succeed h hfound, tried_add h hfound htried rfl fun _ _ => le_rfl⟩
      · refine ⟨consistent_fail h, tried_add h hfound htried rfl fun symbol kind => ?_⟩
        simp only [Sending.fail]
        by_cases hsymbol : symbol = found.position.symbol
        · subst hsymbol
          simp
        · simp [hsymbol]
    refine ih hnext.1 hnext.2 (fun other hother => ?_) hrest
    exact ready_sendOne (hready other (List.mem_cons_of_mem _ hother)) fun heq =>
      hfirst (List.mem_map.mpr ⟨other, hother, heq⟩)

variable {clock : SessionClock} {s : State}

lemma check_sends (clock : SessionClock) (s : State) (t : Tick) :
    ((check clock s t).stored = s.stored ∧ (check clock s t).alerts = s.alerts) ∨
    ∃ memo found positions, memo.done = s.memo.done.filter (·.1 = alertDay t.now) ∧ memo.seen = s.memo.seen ∧
      (positions.map Position.symbol).Nodup ∧ (found.map Found.position).Sublist positions ∧
      (∀ candidate ∈ found, Candidate t (alertDay t.now) memo.done positions candidate) ∧
      (check clock s t).stored = (if t.saveFails then s.stored else (sendAll t s memo found).data) ∧
      (check clock s t).alerts = (sendAll t s memo found).alerts := by
  rcases check_cases clock s t with heq | ⟨loaded, memo, hdone, hseen, -, heq | heq⟩
  · exact Or.inl ⟨by rw [heq], by rw [heq]⟩
  · exact Or.inl ⟨by rw [heq], by rw [heq]⟩
  · obtain ⟨hdone', hseen', -⟩ := candidates_memo clock t (alertDay t.now) memo
      (positions clock t.now loaded)
    rcases alert_cases t s (candidates clock t (alertDay t.now) memo (positions clock t.now loaded)).2
      (candidates clock t (alertDay t.now) memo (positions clock t.now loaded)).1 with halert | ⟨_, halert⟩ | ⟨_, halert⟩
    · exact Or.inl ⟨by rw [heq, halert], by rw [heq, halert]⟩
    · exact Or.inl ⟨by rw [heq, halert], by rw [heq, halert]⟩
    · refine Or.inr ⟨_, _, positions clock t.now loaded, hdone'.trans hdone, hseen'.trans hseen,
        nodup_positions clock t.now loaded, candidates_sublist memo _, fun candidate hmem => ?_, by rw [heq, halert],
        by rw [heq, halert]⟩
      exact hdone' ▸ mem_candidates hmem

lemma tried_check (hheld : Held now s) (htried : Tried now s.stored s.alerts) (hnow : now ≤ t.now)
    (hsaves : t.saveFails = false) : Tried t.now (check clock s t).stored (check clock s t).alerts := by
  have hlater := htried.advance hnow
  rcases check_sends clock s t with ⟨hstored, halerts⟩ | ⟨memo, found, positions, hdone, hseen, hnodup, hfound,
    hcandidates, hstored, halerts⟩
  · rw [hstored, halerts]
    exact hlater
  · have haccounts : Accounts t.now memo.done s.stored
        (fun symbol => newest (memo.seen symbol) (s.stored.signalSeen symbol)) s.alerts := by
      rw [hdone, hseen]
      exact hheld.advance hnow
    have hbegin := consistent_sendingOf found haccounts merged_mark
    obtain ⟨hdata, -, hbefore, -⟩ := sendingOf_spec t s memo found
    have hstart : Tried t.now (sendingOf t s memo found).data (sendingOf t s memo found).alerts := by
      rw [hdata, hbefore]
      refine ⟨hlater.days, hlater.tries, fun key hday hnone => ?_⟩
      rw [failures_dayData hday]
      exact hlater.failed key hday hnone
    rw [hstored, halerts, if_neg (hsaves ▸ Bool.false_ne_true)]
    exact tried_sendAll hbegin hstart (fun _ hother => ready_sendingOf hcandidates (fun _ hkey => hkey) hother)
      (due_nodup hfound hnodup)

lemma check_keeps_tried (clock : SessionClock) :
    Remembered.Keeps (check clock) forget Tick.now (fun t => !t.saveFails) Held
      (fun now s => Persisted now s ∧ Tried now s.stored s.alerts) where
  held := (check_keeps clock).held
  stored := fun now s t hheld hpersisted hnow hsaves =>
    ⟨(check_keeps clock).stored now s t hheld hpersisted.1 hnow hsaves,
      tried_check hheld hpersisted.2 hnow ((Bool.not_eq_eq_eq_not).mp hsaves)⟩
  forget := fun _ _ hpersisted =>
    ⟨(forget_spec hpersisted.1).1, (forget_spec hpersisted.1).2, hpersisted.2⟩

theorem tries_le (clock : SessionClock) (first : Timestamp) (actions : List (Remembered.Action Tick))
    (hordered : Remembered.Ordered Tick.now first actions) (hsaved : ∀ t : Tick, .event t ∈ actions → t.saveFails = false)
    (day : ℤ) (symbol : String) (kind : Kind) :
    (run clock actions).alerts.countP (fun alert => alert.day = day ∧ alert.symbol = symbol ∧ kind ∈ alert.kinds) ≤
      maxSendAttempts := by
  have hstart : Tried first State.start.stored State.start.alerts :=
    ⟨fun _ h => absurd h List.not_mem_nil, fun _ => Nat.zero_le _, fun _ _ _ => Nat.zero_le _⟩
  obtain ⟨last, -, -, htried⟩ := (check_keeps_tried clock).run_stored (held_start first).1
    ⟨(held_start first).2, hstart⟩ hordered fun t ht => by rw [hsaved t ht]; rfl
  exact htried.tries (day, symbol, kind)

theorem night_tries_le : (run winter night).alerts.countP
    (fun alert => alert.day = 5 ∧ alert.symbol = "AAA" ∧ .gapDown ∈ alert.kinds) ≤ maxSendAttempts :=
  tries_le winter 0 night ⟨by decide, by decide, by decide, trivial⟩ (fun t ht => by
    simp only [night, List.mem_cons, Remembered.Action.event.injEq, reduceCtorEq, List.not_mem_nil, or_false,
      false_or] at ht
    rcases ht with rfl | rfl | rfl <;> rfl) 5 "AAA" .gapDown

end Tries

section Reads

variable {clock : SessionClock} {t : Tick} {s : State} {memo : Memo} {found : List Found} {now next : Timestamp}
variable {reads : List (ℤ × Rates)}

structure Reads (t : Tick) (before after : Memo) (reads reads' : List (ℤ × Rates)) : Prop where
  waits : t.cooldown = true → reads' = reads
  next : (after.quoteReads = before.quoteReads ∧ reads' = reads) ∨
    (readsOn (alertDay t.now) before < maxQuoteReadsPerDay ∧ reads' = reads ++ [(alertDay t.now, t.rates)] ∧
      after.quoteReads = some (alertDay t.now, if t.rates = .rateLimited then maxQuoteReadsPerDay
        else readsOn (alertDay t.now) before + 1))

lemma reads_same {before after : Memo} (h : after.quoteReads = before.quoteReads) : Reads t before after reads reads :=
  ⟨fun _ => rfl, Or.inl ⟨h, rfl⟩⟩

lemma readsOn_congr {before after : Memo} {day : ℤ} (h : after.quoteReads = before.quoteReads) :
    readsOn day after = readsOn day before := by
  rw [readsOn, readsOn, h]

lemma quoteReads_sendOne (t : Tick) (day : ℤ) (w : Sending) (found : Found) :
    (sendOne t day w found).memo.quoteReads = w.memo.quoteReads := by
  rw [sendOne]
  split_ifs <;> rfl

lemma quoteReads_sendAll (t : Tick) (day : ℤ) (w : Sending) (due : List Found) :
    (due.foldl (sendOne t day) w).memo.quoteReads = w.memo.quoteReads :=
  List.foldlRecOn due (motive := fun w' : Sending => w'.memo.quoteReads = w.memo.quoteReads) _ rfl
    fun w' hw' found _ => (quoteReads_sendOne t day w' found).trans hw'

lemma reads_quotes (t : Tick) (reads : List (ℤ × Rates)) (memo : Memo) (due : List Found) : Reads t memo (quotes t (alertDay t.now) memo due) reads
    (if readsQuotes t (alertDay t.now) memo due then reads ++ [(alertDay t.now, t.rates)] else reads) := by
  by_cases hreads : readsQuotes t (alertDay t.now) memo due = true
  · rw [quotes, if_pos hreads, if_pos hreads]
    simp only [readsQuotes, Bool.and_eq_true, decide_eq_true_eq] at hreads
    refine ⟨fun hcooldown => ?_, Or.inr ⟨hreads.2, rfl, rfl⟩⟩
    rw [hcooldown] at hreads
    exact absurd hreads.1.2 (by decide)
  · rw [quotes, if_neg hreads, if_neg hreads]
    exact reads_same rfl

lemma reads_alert (t : Tick) (s : State) (memo : Memo) (found : List Found) :
    Reads t memo (alert t (alertDay t.now) s memo found).memo s.quoteReads
      (alert t (alertDay t.now) s memo found).quoteReads := by
  by_cases hread : t.readFails = true
  · rw [alert, if_pos hread]
    exact reads_same rfl
  · by_cases hdue : due (dayData (alertDay t.now) s.stored (mergeSeen t memo s.stored)) (mergeSeen t memo s.stored)
        found = []
    · have halert : alert t (alertDay t.now) s memo found = _ := (if_neg hread).trans (if_pos hdue)
      rw [halert]
      exact reads_same rfl
    · have halert : alert t (alertDay t.now) s memo found = _ := (if_neg hread).trans (if_neg hdue)
      rw [halert]
      obtain ⟨hwaits, hnext⟩ := reads_quotes t s.quoteReads { memo with
        seen := mergeSeen t memo s.stored
        done := memo.done ++ (found.map (dropHits (mergeSeen t memo s.stored))).flatMap (spentKeys (alertDay t.now)
          (dayData (alertDay t.now) s.stored (mergeSeen t memo s.stored))) }
        (due (dayData (alertDay t.now) s.stored (mergeSeen t memo s.stored)) (mergeSeen t memo s.stored) found)
      refine ⟨hwaits, ?_⟩
      dsimp only
      rw [quoteReads_sendAll]
      exact hnext

lemma reads_check (clock : SessionClock) (s : State) (t : Tick) :
    Reads t s.memo (check clock s t).memo s.quoteReads (check clock s t).quoteReads := by
  rcases check_cases clock s t with heq | ⟨loaded, memo, -, -, hquotes, heq | heq⟩
  · rw [heq]
    exact reads_same rfl
  all_goals
    have hmemo := (candidates_memo clock t (alertDay t.now) memo
      (positions clock t.now loaded)).2.2.trans hquotes
    rw [heq]
  · exact reads_same hmemo
  · obtain ⟨hwaits, hnext⟩ := reads_alert t s _ _
    rw [hmemo, readsOn_congr hmemo] at hnext
    exact ⟨hwaits, hnext⟩

structure Counted (now : Timestamp) (memo : Memo) (reads : List (ℤ × Rates)) : Prop where
  days : ∀ read ∈ reads, read.1 ≤ alertDay now
  count : ∀ day, (reads.map Prod.fst).count day ≤ maxQuoteReadsPerDay
  today : (reads.map Prod.fst).count (alertDay now) ≤ readsOn (alertDay now) memo
  limited : reads.Pairwise fun earlier later => earlier.1 = later.1 → earlier.2 ≠ .rateLimited
  full : (alertDay now, Rates.rateLimited) ∈ reads → maxQuoteReadsPerDay ≤ readsOn (alertDay now) memo

lemma Counted.advance (h : Counted now memo reads) (hnext : now ≤ next) : Counted next memo reads := by
  rcases (alertDay_mono hnext).lt_or_eq with hlt | heq
  · have hnone : ∀ read ∈ reads, read.1 ≠ alertDay next := fun read hread => ((h.days read hread).trans_lt hlt).ne
    refine ⟨fun read hread => ((h.days read hread).trans_lt hlt).le, h.count, ?_, h.limited, fun hfull =>
      absurd rfl (hnone _ hfull)⟩
    rw [List.count_eq_zero.mpr fun hmem => ?_]
    · exact Nat.zero_le _
    · obtain ⟨read, hread, hday⟩ := List.mem_map.mp hmem
      exact hnone read hread hday
  · exact ⟨heq ▸ h.days, h.count, heq ▸ h.today, h.limited, heq ▸ h.full⟩

lemma counted_check (h : Counted now s.memo s.quoteReads) (hnow : now ≤ t.now) :
    Counted t.now (check clock s t).memo (check clock s t).quoteReads := by
  have hlater := h.advance hnow
  obtain ⟨-, ⟨hmemo, hreads⟩ | ⟨hfew, hreads, hmemo⟩⟩ := reads_check clock s t
  · rw [hreads]
    exact ⟨hlater.days, hlater.count, (readsOn_congr hmemo).symm ▸ hlater.today, hlater.limited,
      (readsOn_congr hmemo).symm ▸ hlater.full⟩
  · have hcount (day : ℤ) : ((s.quoteReads ++ [(alertDay t.now, t.rates)]).map Prod.fst).count day =
        (s.quoteReads.map Prod.fst).count day + if day = alertDay t.now then 1 else 0 := by
      rw [List.map_append, List.count_append, List.map_cons, List.map_nil, List.count_singleton]
      by_cases hday : day = alertDay t.now
      · rw [hday, if_pos rfl, beq_self_eq_true, if_pos rfl]
      · rw [if_neg hday, if_neg fun hbeq => hday (eq_of_beq hbeq).symm]
    have hon : readsOn (alertDay t.now) (check clock s t).memo = if t.rates = .rateLimited then maxQuoteReadsPerDay
        else readsOn (alertDay t.now) s.memo + 1 := by
      rw [readsOn, hmemo]
      exact if_pos rfl
    rw [hreads]
    refine ⟨fun read hread => ?_, fun day => ?_, ?_, ?_, fun hfull => ?_⟩
    · rcases List.mem_append.mp hread with hearlier | hlast
      · exact hlater.days read hearlier
      · rw [List.mem_singleton.mp hlast]
    · rw [hcount]
      split_ifs with hday
      · rw [hday]
        exact Nat.succ_le_of_lt (hlater.today.trans_lt hfew)
      · exact hlater.count day
    · rw [hcount, if_pos rfl, hon]
      split_ifs
      · exact Nat.succ_le_of_lt (hlater.today.trans_lt hfew)
      · exact Nat.succ_le_succ hlater.today
    · refine List.pairwise_append.mpr ⟨hlater.limited, List.pairwise_singleton _ _, fun earlier hearlier last hlast => ?_⟩
      rw [List.mem_singleton.mp hlast]
      intro hday hlimited
      have hmem : (alertDay t.now, Rates.rateLimited) ∈ s.quoteReads := by
        have hentry : earlier = (alertDay t.now, Rates.rateLimited) := Prod.ext hday hlimited
        exact hentry ▸ hearlier
      exact absurd (hlater.full hmem) (not_le.mpr hfew)
    · rw [hon]
      rcases List.mem_append.mp hfull with hearlier | hlast
      · exact absurd (hlater.full hearlier) (not_le.mpr hfew)
      · rw [if_pos (congrArg Prod.snd (List.mem_singleton.mp hlast)).symm]

lemma counted_run {ticks : List Tick} (h : Counted now s.memo s.quoteReads)
    (hordered : (now :: ticks.map Tick.now).Pairwise (· ≤ ·)) :
    ∃ last, Counted last (ticks.foldl (check clock) s).memo (ticks.foldl (check clock) s).quoteReads := by
  induction ticks generalizing now s with
  | nil => exact ⟨now, h⟩
  | cons t rest ih =>
    obtain ⟨hfirst, hrest⟩ := List.pairwise_cons.mp hordered
    exact ih (counted_check h (hfirst t.now List.mem_cons_self)) hrest

theorem quoteReads_le (clock : SessionClock) (ticks : List Tick)
    (hordered : (ticks.map Tick.now).Pairwise (· ≤ ·)) :
    (∀ day, ((ticks.foldl (check clock) State.start).quoteReads.map Prod.fst).count day ≤ maxQuoteReadsPerDay) ∧
    (ticks.foldl (check clock) State.start).quoteReads.Pairwise fun earlier later =>
      earlier.1 = later.1 → earlier.2 ≠ .rateLimited := by
  cases ticks with
  | nil => exact ⟨fun _ => Nat.zero_le _, List.Pairwise.nil⟩
  | cons t rest =>
    have hstart : Counted t.now State.start.memo State.start.quoteReads :=
      ⟨fun _ h => absurd h List.not_mem_nil, fun _ => Nat.zero_le _, Nat.zero_le _, List.Pairwise.nil,
        fun h => absurd h List.not_mem_nil⟩
    obtain ⟨last, hcounted⟩ := counted_run (counted_check hstart le_rfl) hordered
    exact ⟨hcounted.count, hcounted.limited⟩

theorem night_quoteReads_le :
    (∀ day, (([nightTick 0 false, nightTick 1 true].foldl (check winter) State.start).quoteReads.map Prod.fst).count
      day ≤ maxQuoteReadsPerDay) ∧
    ([nightTick 0 false, nightTick 1 true].foldl (check winter) State.start).quoteReads.Pairwise fun earlier later =>
      earlier.1 = later.1 → earlier.2 ≠ .rateLimited :=
  quoteReads_le winter [nightTick 0 false, nightTick 1 true] (by decide)

end Reads

end AlgoTrader.Broker.OvernightAlert
