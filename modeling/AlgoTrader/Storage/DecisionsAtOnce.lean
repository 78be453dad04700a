import AlgoTrader.Lib.Runs
import AlgoTrader.Storage.ScanDecisions

/-! What a thread reads is what it recorded, as if each decision had been written at its call. -/

namespace AlgoTrader.Storage

open WriteBehind

namespace Repository

def queued (r : Repository) (thread : Thread) : List Row := (r.pending thread).getD []

def log (r : Repository) : Log Row Thread :=
  { written := r.table
    queue := r.queued
    recorded := r.recorded
    lost := r.dropped }

/-- The decisions recorded and not dropped, in the order of the calls: the table, had each been written at
its call. -/
def atOnce (r : Repository) : List Row := r.log.kept

end Repository

open Repository

section Flush

variable {accepts : Row → Bool} {r r' : Repository} {thread : Thread}

lemma insertChunks_append (pending : List Row) (n : ℕ) :
    (((List.range n).map fun k => (pending.drop (k * flushChunkRows)).take flushChunkRows).flatten) =
      pending.take (n * flushChunkRows) := by
  induction n with
  | zero => simp
  | succ n ih =>
    rw [List.range_succ, List.map_append, List.flatten_append, ih, Nat.succ_mul, List.take_add]
    simp

lemma insertChunks_eq (pending : List Row) : insertChunks pending = pending := by
  rw [insertChunks, insertChunks_append, List.take_of_length_le]
  rw [flushChunkRows]
  omega

inductive Flushed (thread : Thread) (r : Repository) : Except Error Unit → Repository → Prop
  | idle (hempty : r.queued thread = []) : Flushed thread r (.ok ()) r
  | failed : Flushed thread r (.error .database) r
  | wrote (rows : List Row) (hpending : r.pending thread = some rows) (result : Except Error Unit) :
      Flushed thread r result
        { r with table := r.table ++ rows, pending := Function.update r.pending thread (some []) }

lemma flush_spec (accepts : Row → Bool) (r : Repository) (thread : Thread) (ok : Bool) :
    Flushed thread r (r.flush accepts thread ok).1 (r.flush accepts thread ok).2 := by
  cases hpending : r.pending thread with
  | none =>
    simp only [flush, hpending]
    exact .idle (by simp [queued, hpending])
  | some rows =>
    cases rows with
    | nil =>
      simp only [flush, hpending]
      exact .idle (by simp [queued, hpending])
    | cons row rows =>
      simp only [flush, hpending, insertChunks_eq]
      cases ok
      · exact .failed
      · exact .wrote (row :: rows) hpending _

lemma flush_pending {rows : List Row} (hpending : r.pending thread = some rows) (ok : Bool)
    (h : (r.flush accepts thread ok).1 = .ok ()) : (r.flush accepts thread ok).2.pending thread = some [] := by
  have hflush := flush_spec accepts r thread ok
  rw [h] at hflush
  generalize (r.flush accepts thread ok).2 = r' at hflush ⊢
  cases hflush with
  | idle hempty =>
    rw [queued, hpending, Option.getD_some] at hempty
    rw [hpending, hempty]
  | wrote rows => exact Function.update_self _ _ _

lemma log_update (r : Repository) (thread : Thread) (v : Option (List Row)) (written recorded lost : List Row) :
    (⟨written, fun u => (Function.update r.pending thread v u).getD [], recorded, lost⟩ : Log Row Thread) =
      ⟨written, Function.update r.queued thread (v.getD []), recorded, lost⟩ := by
  congr 1
  funext u
  by_cases hu : u = thread
  · subst hu
    simp
  · simp [queued, Function.update_of_ne hu]

lemma queued_some {rows : List Row} (h : r.pending thread = some rows) : r.log.queue thread = rows := by
  simp [log, queued, h]

lemma Flushed.moves {result : Except Error Unit} (h : Flushed thread r result r') :
    Moves Row.thread thread r.log r'.log := by
  cases h with
  | idle => exact .refl
  | failed => exact .refl
  | wrote rows hpending =>
    have hlog : Repository.log { r with
        table := r.table ++ rows
        pending := Function.update r.pending thread (some []) } = _ :=
      log_update r thread (some []) (r.table ++ rows) r.recorded r.dropped
    rw [hlog]
    have hwrite : Move Row.thread thread r.log _ := Move.write
    rw [queued_some hpending] at hwrite
    exact .single hwrite

lemma Flushed.emptied (h : Flushed thread r (.ok ()) r') : r'.queued thread = [] := by
  cases h with
  | idle hempty => exact hempty
  | wrote rows hpending => simp [queued]

lemma Flushed.same {result : Except Error Unit} (h : Flushed thread r result r') :
    r'.recorded = r.recorded ∧ r'.dropped = r.dropped ∧ r'.scan = r.scan ∧ r'.blocks = r.blocks := by
  cases h <;> exact ⟨rfl, rfl, rfl, rfl⟩

lemma Flushed.pending_isSome {result : Except Error Unit} (h : Flushed thread r result r') (u : Thread) :
    (r'.pending u).isSome = (r.pending u).isSome := by
  cases h with
  | idle => rfl
  | failed => rfl
  | wrote rows hpending =>
    by_cases hu : u = thread
    · subst hu
      simp [hpending]
    · simp [Function.update_of_ne hu]

lemma insert_moves {row : Row} (hrow : row.thread = thread) (hempty : r.queued thread = [])
    (hfresh : row ∉ r.recorded) (ok : Bool) : Moves Row.thread thread r.log (r.insert accepts row ok).2.log := by
  cases ok
  · exact .refl
  · exact .single (Move.append row hrow hfresh hempty)

lemma enqueue_moves {row : Row} {pending : List Row} (hrow : row.thread = thread)
    (hpending : r.queued thread = pending) (hfresh : row ∉ r.recorded) :
    Moves Row.thread thread r.log (r.enqueue row pending).log := by
  subst hrow
  have hlog : (r.enqueue row pending).log = _ :=
    log_update r row.thread (some (pending ++ [row])) r.table (r.recorded ++ [row]) r.dropped
  rw [hlog, ← hpending]
  exact .single (Move.queue row rfl hfresh)

lemma close_moves (outermost : Bool) : Moves Row.thread thread r.log (r.close thread outermost).log := by
  cases outermost
  · exact .refl
  · have hlog : (r.close thread true).log = _ :=
      log_update r thread none r.table r.recorded (r.dropped ++ r.queued thread)
    rw [hlog]
    exact .single Move.lose

end Flush

def Nested (scanning : Bool) (blocks : List Bool) : Prop :=
  if scanning then ∃ n, blocks = List.replicate n false ++ [true] else blocks = []

lemma nested_true {blocks : List Bool} : Nested true blocks ↔ ∃ n, blocks = List.replicate n false ++ [true] := Iff.rfl

lemma nested_false {blocks : List Bool} : Nested false blocks ↔ blocks = [] := Iff.rfl

lemma nested_update {pending : Thread → Option (List Row)} {blocks : Thread → List Bool} {v : Option (List Row)}
    {c : List Bool} (thread : Thread) (h : ∀ u, Nested (pending u).isSome (blocks u)) (hnew : Nested v.isSome c) (u : Thread) :
    Nested (Function.update pending thread v u).isSome (Function.update blocks thread c u) := by
  by_cases hsame : u = thread
  · subst hsame
    rw [Function.update_self, Function.update_self]
    exact hnew
  · rw [Function.update_of_ne hsame, Function.update_of_ne hsame]
    exact h u

structure Inv (r : Repository) : Prop where
  log : WriteBehind.Inv Row.thread r.log
  calls : r.recorded.map (·.call) = List.range r.recorded.length
  nested : ∀ thread, Nested (r.pending thread).isSome (r.blocks thread)
  scanned : ∀ thread, (r.pending thread).isSome → ∀ row ∈ r.scan thread, row ∈ r.atOnce ∧ row.thread = thread

section Steps

variable {accepts : Row → Bool} {r r' : Repository} {thread : Thread} {row : Row}

lemma Inv.fresh (h : Inv r) (hcall : row.call = r.recorded.length) : row ∉ r.recorded := by
  intro hmem
  have hrange : row.call ∈ List.range r.recorded.length := h.calls ▸ List.mem_map_of_mem hmem
  rw [hcall, List.mem_range] at hrange
  exact lt_irrefl _ hrange

lemma Inv.calls_append (h : Inv r) (hcall : row.call = r.recorded.length) :
    (r.recorded ++ [row]).map (·.call) = List.range (r.recorded ++ [row]).length := by
  rw [List.map_append, h.calls, List.length_append, List.length_singleton, List.range_succ, List.map_singleton, hcall]

lemma Inv.flush (h : Inv r) {result : Except Error Unit} (hflushed : Flushed thread r result r') : Inv r' := by
  obtain ⟨hrecorded, hdropped, hscan, hblocks⟩ := hflushed.same
  have hsome := hflushed.pending_isSome
  refine ⟨h.log.moves hflushed.moves, hrecorded ▸ h.calls, fun u => ?_, fun u hu row hrow => ?_⟩
  · rw [hblocks, hsome]
    exact h.nested u
  · have hkept : r'.atOnce = r.atOnce := kept_congr hrecorded hdropped
    rw [hkept]
    exact h.scanned u (hsome u ▸ hu) row (hscan ▸ hrow)

lemma Inv.scanned_append (h : Inv r) (hcall : row.call = r.recorded.length) {u : Thread}
    (hpending : (r.pending u).isSome) {d : Row}
    (hd : d ∈ Function.update r.scan row.thread (r.scan row.thread ++ [row]) u) :
    d ∈ (r.recorded ++ [row]).filter (fun b => b ∉ r.dropped) ∧ d.thread = u := by
  rw [show (r.recorded ++ [row]).filter (fun b => b ∉ r.dropped) = r.log.kept ++ [row] from
    h.log.kept_append (h.fresh hcall), List.mem_append]
  by_cases hu : u = row.thread
  · subst hu
    rw [Function.update_self, List.mem_append] at hd
    rcases hd with hold | hnew
    · obtain ⟨hkept, hthread⟩ := h.scanned _ hpending d hold
      exact ⟨.inl hkept, hthread⟩
    · exact ⟨.inr hnew, by rw [List.mem_singleton.mp hnew]⟩
  · rw [Function.update_of_ne hu] at hd
    obtain ⟨hkept, hthread⟩ := h.scanned u hpending d hd
    exact ⟨.inl hkept, hthread⟩

lemma Inv.insert (h : Inv r) (hcall : row.call = r.recorded.length) (hempty : r.queued row.thread = []) (ok : Bool) :
    Inv (r.insert accepts row ok).2 := by
  have hmoves : Moves Row.thread row.thread r.log (r.insert accepts row ok).2.log :=
    insert_moves rfl hempty (h.fresh hcall) ok
  cases ok
  · exact h
  · exact ⟨h.log.moves hmoves, h.calls_append hcall, h.nested, fun u hu d hd => h.scanned_append hcall hu hd⟩

lemma Inv.enqueue (h : Inv r) (hcall : row.call = r.recorded.length) {pending : List Row}
    (hpending : r.pending row.thread = some pending) : Inv (r.enqueue row pending) := by
  have hsome : ∀ u, ((r.enqueue row pending).pending u).isSome = (r.pending u).isSome := by
    intro u
    by_cases hu : u = row.thread
    · subst hu
      simp [Repository.enqueue, hpending]
    · simp [Repository.enqueue, Function.update_of_ne hu]
  have hmoves := enqueue_moves rfl (queued_some hpending) (h.fresh hcall)
  refine ⟨h.log.moves hmoves, h.calls_append hcall, fun u => ?_, fun u hu d hd => ?_⟩
  · rw [hsome]
    exact h.nested u
  · exact h.scanned_append hcall (hsome u ▸ hu) hd

lemma enter_log (h : r.pending thread = none) : (r.enter thread).log = r.log := by
  rw [enter, if_pos h]
  have hlog := log_update r thread (some []) r.table r.recorded r.dropped
  have hsame : Function.update r.queued thread [] = r.queued := by
    refine Function.update_eq_self_iff.mpr ?_
    simp [queued, h]
  rw [Option.getD_some, hsame] at hlog
  exact hlog

lemma Inv.enter (h : Inv r) (thread : Thread) : Inv (r.enter thread) := by
  by_cases hpending : r.pending thread = none
  · have hinv : WriteBehind.Inv Row.thread (r.enter thread).log := enter_log hpending ▸ h.log
    have hnil : r.blocks thread = [] := by
      have hnested := h.nested thread
      rw [hpending] at hnested
      exact nested_false.mp hnested
    rw [Repository.enter, if_pos hpending] at hinv ⊢
    refine ⟨hinv, h.calls, nested_update thread h.nested ⟨0, by rw [hnil]; rfl⟩, fun u hu d hd => ?_⟩
    dsimp only at hu hd
    by_cases hsame : u = thread
    · subst hsame
      rw [Function.update_self] at hd
      cases hd
    · rw [Function.update_of_ne hsame] at hu hd
      exact h.scanned u hu d hd
  · rw [Repository.enter, if_neg hpending]
    refine ⟨h.log, h.calls, ?_, h.scanned⟩
    have hsome : (r.pending thread).isSome = true := Option.isSome_iff_ne_none.mpr hpending
    have hnested := h.nested thread
    rw [hsome] at hnested
    obtain ⟨n, hblocks⟩ := nested_true.mp hnested
    have hnew : Nested (r.pending thread).isSome (false :: r.blocks thread) := by
      rw [hsome, hblocks]
      exact nested_true.mpr ⟨n + 1, rfl⟩
    have hupdate := nested_update thread h.nested hnew
    rwa [Function.update_eq_self] at hupdate

lemma Inv.close (h : Inv r) {outermost : Bool} {rest : List Bool} (hblocks : r.blocks thread = outermost :: rest) :
    Inv { r.close thread outermost with blocks := Function.update r.blocks thread rest } := by
  have hmoves : Moves Row.thread thread r.log (r.close thread outermost).log := close_moves outermost
  have hinv := h.log.moves hmoves
  have hnested := h.nested thread
  cases hsome : (r.pending thread).isSome with
  | false =>
    rw [hsome, hblocks] at hnested
    cases nested_false.mp hnested
  | true =>
    rw [hsome, hblocks] at hnested
    obtain ⟨n, hn⟩ := nested_true.mp hnested
    cases n with
    | zero =>
      obtain ⟨rfl, rfl⟩ := List.cons.inj hn
      refine ⟨hinv, h.calls, nested_update thread h.nested (nested_false.mpr rfl), fun u hu d hd => ?_⟩
      have hsame : u ≠ thread := by
        rintro rfl
        simp [Repository.close] at hu
      have hopen : (r.pending u).isSome := by simpa [Repository.close, Function.update_of_ne hsame] using hu
      obtain ⟨hkept, hthread⟩ := h.scanned u hopen d hd
      have hown : d ∈ WriteBehind.own Row.thread u r.log.kept := mem_own.mpr ⟨hkept, hthread⟩
      rw [← Moves.kept_others h.log (close_moves true) hsame] at hown
      exact mem_own.mp hown
    | succ n =>
      obtain ⟨rfl, rfl⟩ := List.cons.inj hn
      have hnew : Nested (r.pending thread).isSome (List.replicate n false ++ [true]) := by
        rw [hsome]
        exact nested_true.mpr ⟨n, rfl⟩
      have hupdate := nested_update thread h.nested hnew
      rw [Function.update_eq_self] at hupdate
      exact ⟨hinv, h.calls, hupdate, h.scanned⟩

lemma rowParams_eq {args : DecisionArgs} {now : ℤ} {call : ℕ} (h : rowParams args thread now call = some row) :
    row.thread = thread ∧ row.call = call := by
  obtain ⟨payload, _, rfl⟩ := Option.map_eq_some_iff.mp h
  exact ⟨rfl, rfl⟩

inductive Effect (accepts : Row → Bool) (thread : Thread) (r : Repository) : Except Error Response → Repository → Prop
  | refused : Effect accepts thread r (.error .unserialisable) r
  | flushed {flush : Except Error Unit} {r' : Repository} (hflush : Flushed thread r flush r')
      (reply : Except Error Response) : Effect accepts thread r reply r'
  | stored (row : Row) {r' : Repository} (hflush : Flushed thread r (.ok ()) r') (hthread : row.thread = thread)
      (hcall : row.call = r.recorded.length) (reply : Except Error Response) :
      Effect accepts thread r reply (r'.insert accepts row true).2
  | queued (row : Row) {flush : Except Error Unit} {r' : Repository} {pending : List Row}
      (hflush : Flushed thread r flush r') (hpending : r'.pending thread = some pending)
      (hthread : row.thread = thread) (hcall : row.call = r.recorded.length) :
      Effect accepts thread r (.ok .done) (r'.enqueue row pending)
  | entered : Effect accepts thread r (.ok .done) (r.enter thread)
  | left {flush : Except Error Unit} {r' : Repository} (hflush : Flushed thread r flush r') {outermost : Bool}
      {rest : List Bool} (hblocks : r.blocks thread = outermost :: rest) (reply : Except Error Response)
      (hreply : flush = .error .database → ∃ e, reply = .error e) :
      Effect accepts thread r reply
        { r'.close thread outermost with blocks := Function.update r'.blocks thread rest }

lemma create_effect (args : DecisionArgs) (now : ℤ) (flushed answered : Bool) :
    Effect accepts thread r (r.create accepts thread args now flushed answered).1
      (r.create accepts thread args now flushed answered).2 := by
  rw [Repository.create]
  cases hrow : rowParams args thread now r.recorded.length with
  | none => exact .refused
  | some row =>
    obtain ⟨hthread, hcall⟩ := rowParams_eq hrow
    have hflush := flush_spec accepts r thread flushed
    dsimp only
    generalize r.flush accepts thread flushed = outcome at hflush ⊢
    obtain ⟨e | _, r'⟩ := outcome
    · exact .flushed hflush _
    · cases answered
      · exact .flushed hflush _
      · exact .stored row hflush hthread hcall _

lemma createDeferred_effect (args : DecisionArgs) (now : ℤ) (flushed answered : Bool) :
    Effect accepts thread r (r.createDeferred accepts thread args now flushed answered).1
      (r.createDeferred accepts thread args now flushed answered).2 := by
  rw [Repository.createDeferred]
  cases hrow : rowParams args thread now r.recorded.length with
  | none => exact .refused
  | some row =>
    obtain ⟨hthread, hcall⟩ := rowParams_eq hrow
    cases hpending : r.pending thread with
    | none =>
      have hidle : Flushed thread r (.ok ()) r := .idle (by simp [queued, hpending])
      cases answered
      · exact .flushed hidle _
      · dsimp only [Repository.insert]
        rw [if_pos rfl]
        split_ifs
        · exact .stored row hidle hthread hcall _
        · exact .stored row hidle hthread hcall _
    | some pending =>
      dsimp only
      split_ifs
      · have hflush := flush_spec accepts r thread flushed
        have hafter : (r.flush accepts thread flushed).1 = .ok () →
            (r.flush accepts thread flushed).2.pending thread = some [] := flush_pending hpending flushed
        generalize r.flush accepts thread flushed = outcome at hflush hafter ⊢
        obtain ⟨e | _, r'⟩ := outcome
        · exact .flushed hflush _
        · exact .queued row hflush (hafter rfl) hthread hcall
      · exact .queued row .failed hpending hthread hcall

lemma read_effect (query : Read) (flushed answered : Bool) :
    Effect accepts thread r (r.read accepts thread query flushed answered).1
      (r.read accepts thread query flushed answered).2 := by
  rw [Repository.read]
  have hflush := flush_spec accepts r thread flushed
  generalize r.flush accepts thread flushed = outcome at hflush ⊢
  obtain ⟨e | _, r'⟩ := outcome
  · exact .flushed hflush _
  · exact .flushed hflush _

lemma leave_effect (raised flushed : Bool) :
    Effect accepts thread r (r.leave accepts thread raised flushed).1 (r.leave accepts thread raised flushed).2 := by
  rw [Repository.leave]
  cases hblocks : r.blocks thread with
  | nil => exact .flushed .failed _
  | cons outermost rest =>
    have hflush := flush_spec accepts r thread flushed
    dsimp only
    generalize r.flush accepts thread flushed = outcome at hflush ⊢
    refine .left hflush hblocks _ fun herror => ?_
    rw [herror]
    cases raised
    · exact ⟨.database, rfl⟩
    · exact ⟨.scan, rfl⟩

lemma call_effect (r : Repository) (op : Operation) :
    Effect accepts op.thread r (r.call accepts op).1 (r.call accepts op).2 := by
  rw [Repository.call]
  cases op.call with
  | create args => exact create_effect args op.now op.flushed op.answered
  | createDeferred args => exact createDeferred_effect args op.now op.flushed op.answered
  | flush => exact .flushed (flush_spec accepts r op.thread op.flushed) _
  | read query => exact read_effect query op.flushed op.answered
  | enter => exact .entered
  | leave raised => exact leave_effect raised op.flushed

lemma Effect.inv {reply : Except Error Response} (h : Inv r) (heffect : Effect accepts thread r reply r') : Inv r' := by
  cases heffect with
  | refused => exact h
  | flushed hflush => exact h.flush hflush
  | stored row hflush hthread hcall =>
    have hempty := hthread ▸ hflush.emptied
    exact (h.flush hflush).insert (hcall.trans (congrArg List.length hflush.same.1.symm)) hempty true
  | queued row hflush hpending hthread hcall =>
    subst hthread
    exact (h.flush hflush).enqueue (hcall.trans (congrArg List.length hflush.same.1.symm)) hpending
  | entered => exact h.enter thread
  | left hflush hblocks => exact (h.flush hflush).close (hflush.same.2.2.2 ▸ hblocks)

lemma Effect.moves {reply : Except Error Response} (h : Inv r) (heffect : Effect accepts thread r reply r') :
    Moves Row.thread thread r.log r'.log := by
  cases heffect with
  | refused => exact .refl
  | flushed hflush => exact hflush.moves
  | stored row hflush hthread hcall =>
    have hfresh := (h.flush hflush).fresh (hcall.trans (congrArg List.length hflush.same.1.symm))
    exact hflush.moves.trans (insert_moves hthread hflush.emptied hfresh true)
  | queued row hflush hpending hthread hcall =>
    have hfresh := (h.flush hflush).fresh (hcall.trans (congrArg List.length hflush.same.1.symm))
    exact hflush.moves.trans (enqueue_moves hthread (queued_some (hthread ▸ hpending)) hfresh)
  | entered =>
    by_cases hpending : r.pending thread = none
    · rw [enter_log hpending]
    · rw [enter, if_neg hpending]
      exact .refl
  | left hflush hblocks => exact hflush.moves.trans (close_moves _)

lemma Effect.dropped {reply : Except Error Response} (h : Inv r) (heffect : Effect accepts thread r reply r')
    {d : Row} (hd : d ∈ r'.dropped) (hnew : d ∉ r.dropped) : d.thread = thread ∧ ∃ e, reply = .error e := by
  cases heffect with
  | refused => exact absurd hd hnew
  | flushed hflush => exact absurd (hflush.same.2.1 ▸ hd) hnew
  | stored row hflush => exact absurd (hflush.same.2.1 ▸ hd) hnew
  | queued row hflush => exact absurd (hflush.same.2.1 ▸ hd) hnew
  | entered =>
    rw [enter] at hd
    split_ifs at hd
    · exact absurd hd hnew
    · exact absurd hd hnew
  | @left flush middle hflush outermost rest hblocks _ hreply =>
    cases outermost with
    | false => exact absurd (hflush.same.2.1 ▸ hd) hnew
    | true =>
      have hmem : d ∈ middle.dropped ++ middle.queued thread := hd
      rcases List.mem_append.mp hmem with hold | hqueued
      · exact absurd (hflush.same.2.1 ▸ hold) hnew
      · refine ⟨(h.flush hflush).log.owned thread d hqueued, ?_⟩
        cases hflush with
        | idle hempty =>
          rw [hempty] at hqueued
          cases hqueued
        | failed => exact hreply rfl
        | wrote rows => simp [Repository.queued] at hqueued

lemma Inv.step (h : Inv r) (op : Operation) : Inv (r.step accepts op) := (call_effect r op).inv h

lemma inv_run (accepts : Row → Bool) (ops : List Operation) : Inv (Runs.run (step accepts) {} ops) := by
  have hstart : Inv {} := by
    refine ⟨⟨fun _ => rfl, ?_, List.nodup_nil, ?_⟩, rfl, fun _ => rfl, ?_⟩
    · intro _ row hrow
      cases hrow
    · intro row hrow
      cases hrow
    · intro _ hopen
      cases hopen
  exact Runs.invariant_of_step (fun r op h => h.step op) hstart ops

lemma read_ok {op : Operation} {query : Read} (hquery : op.call = .read query) {response : Response}
    (h : (r.call accepts op).1 = .ok response) :
    (r.step accepts op).queued op.thread = [] ∧ .ok response = answer accepts query (r.step accepts op).table := by
  rw [Repository.step]
  rw [Repository.call, hquery] at h ⊢
  dsimp only at h ⊢
  rw [Repository.read] at h ⊢
  have hflush := flush_spec accepts r op.thread op.flushed
  generalize r.flush accepts op.thread op.flushed = outcome at hflush h ⊢
  obtain ⟨e | _, r'⟩ := outcome
  · cases h
  · dsimp only at h ⊢
    refine ⟨hflush.emptied, ?_⟩
    split_ifs at h
    exact h.symm

lemma create_ok {args : DecisionArgs} {now : ℤ} {flushed answered : Bool} {response : Response}
    (h : (r.create accepts thread args now flushed answered).1 = .ok response) :
    ∃ row, rowParams args thread now r.recorded.length = some row ∧
      (r.create accepts thread args now flushed answered).2.recorded = r.recorded ++ [row] := by
  rw [Repository.create] at h ⊢
  cases hrow : rowParams args thread now r.recorded.length with
  | none =>
    rw [hrow] at h
    cases h
  | some row =>
    rw [hrow] at h
    have hflush := flush_spec accepts r thread flushed
    dsimp only at h ⊢
    generalize r.flush accepts thread flushed = outcome at hflush h ⊢
    obtain ⟨e | _, r'⟩ := outcome
    · cases h
    · cases answered
      · cases h
      · exact ⟨row, rfl, congrArg (· ++ [row]) hflush.same.1⟩

lemma createDeferred_ok {args : DecisionArgs} {now : ℤ} {flushed answered : Bool} {response : Response}
    (h : (r.createDeferred accepts thread args now flushed answered).1 = .ok response) :
    ∃ row, rowParams args thread now r.recorded.length = some row ∧
      (r.createDeferred accepts thread args now flushed answered).2.recorded = r.recorded ++ [row] := by
  rw [Repository.createDeferred] at h ⊢
  cases hrow : rowParams args thread now r.recorded.length with
  | none =>
    rw [hrow] at h
    cases h
  | some row =>
    refine ⟨row, rfl, ?_⟩
    rw [hrow] at h
    dsimp only at h ⊢
    cases hpending : r.pending thread with
    | none =>
      rw [hpending] at h
      dsimp only at h ⊢
      cases answered
      · cases h
      · rw [Repository.insert, if_pos rfl] at h ⊢
        split_ifs at h ⊢
        rfl
    | some pending =>
      rw [hpending] at h
      dsimp only at h ⊢
      have hflush := flush_spec accepts r thread flushed
      split_ifs at h ⊢
      · generalize r.flush accepts thread flushed = outcome at hflush h ⊢
        obtain ⟨e | _, r'⟩ := outcome
        · cases h
        · exact congrArg (· ++ [row]) hflush.same.1
      · rfl

lemma leave_ok {raised flushed outermost : Bool} {rest : List Bool} (hblocks : r.blocks thread = outermost :: rest)
    {response : Response} (h : (r.leave accepts thread raised flushed).1 = .ok response) :
    ∃ r', Flushed thread r (.ok ()) r' ∧ (r.leave accepts thread raised flushed).2.table = r'.table := by
  rw [Repository.leave, hblocks] at h ⊢
  have hflush := flush_spec accepts r thread flushed
  dsimp only at h ⊢
  generalize r.flush accepts thread flushed = outcome at hflush h ⊢
  obtain ⟨result, r'⟩ := outcome
  cases raised
  · cases result with
    | error e => cases h
    | ok _ =>
      refine ⟨r', hflush, ?_⟩
      cases outermost
      · rfl
      · rfl
  · cases h

lemma Inv.ends (h : Inv r) {op : Operation} {raised : Bool} (hcall : op.call = .leave raised)
    (houtermost : (r.blocks op.thread).length = 1) {response : Response} (hreply : (r.call accepts op).1 = .ok response)
    (hrow : row ∈ r.scan op.thread) : row ∈ (r.step accepts op).table := by
  obtain ⟨outermost, hblocks⟩ := List.length_eq_one_iff.mp houtermost
  rw [Repository.step]
  rw [Repository.call, hcall] at hreply ⊢
  dsimp only at hreply ⊢
  obtain ⟨r', hflush, htable⟩ := leave_ok hblocks hreply
  rw [htable]
  have hopen : (r.pending op.thread).isSome := by
    by_contra hclosed
    have hnested := h.nested op.thread
    rw [Bool.not_eq_true] at hclosed
    rw [hclosed, hblocks] at hnested
    cases nested_false.mp hnested
  have hinv := h.flush hflush
  have hscan : row ∈ r'.scan op.thread := hflush.same.2.2.1 ▸ hrow
  obtain ⟨hkept, hthread⟩ := hinv.scanned op.thread (hflush.pending_isSome op.thread ▸ hopen) row hscan
  have hown : row ∈ own Row.thread op.thread r'.log.kept := mem_own.mpr ⟨hkept, hthread⟩
  rw [← hinv.log.own_written hflush.emptied] at hown
  exact (mem_own.mp hown).1

end Steps

/-- Every decision stored was recorded, once, and each thread's are stored in the order of its calls, the rest
of them queued. -/
structure Faithful (r : Repository) : Prop where
  calls : r.recorded.map (·.call) = List.range r.recorded.length
  once : r.table.Nodup
  recorded : ∀ row ∈ r.table, row ∈ r.atOnce
  inOrder : ∀ thread, (own Row.thread thread r.table).Sublist r.recorded
  queued : ∀ thread, own Row.thread thread r.atOnce = own Row.thread thread r.table ++ r.queued thread

structure Sound (accepts : Row → Bool) (r : Repository) (op : Operation) (reply : Except Error Response)
    (r' : Repository) : Prop where
  records : ∀ args, op.call = .create args ∨ op.call = .createDeferred args → ∀ response, reply = .ok response →
    ∃ row, rowParams args op.thread op.now r.recorded.length = some row ∧ r'.recorded = r.recorded ++ [row]
  reads : ∀ query, op.call = .read query → ∀ response, reply = .ok response →
    reply = answer accepts query r'.table ∧ own Row.thread op.thread r'.table = own Row.thread op.thread r'.atOnce
  readsAll : ∀ query, op.call = .read query → ∀ response, reply = .ok response →
    (∀ thread, thread ≠ op.thread → r.queued thread = []) → r'.table.Perm r'.atOnce
  readsAlone : ∀ query, op.call = .read query → ∀ response, reply = .ok response →
    (∀ row ∈ r'.recorded, row.thread = op.thread) → reply = answer accepts query r'.atOnce
  ends : ∀ raised, op.call = .leave raised → (r.blocks op.thread).length = 1 → ∀ response, reply = .ok response →
    ∀ row ∈ r.scan op.thread, row ∈ r'.table
  drops : ∀ row ∈ r'.dropped, row ∉ r.dropped → row.thread = op.thread ∧ ∃ e, reply = .error e
  others : ∀ thread, thread ≠ op.thread → r'.queued thread = r.queued thread ∧ own Row.thread thread r'.table = own Row.thread thread r.table

theorem Inv.faithful {r : Repository} (h : Inv r) : Faithful r where
  calls := h.calls
  once := h.log.written_nodup
  recorded _ hrow := h.log.written_kept hrow
  inOrder thread := h.log.written_sublist thread
  queued thread := h.log.kept thread

theorem Inv.sound {accepts : Row → Bool} {r : Repository} (h : Inv r) (op : Operation) :
    Sound accepts r op (r.call accepts op).1 (r.step accepts op) := by
  have heffect : Effect accepts op.thread r (r.call accepts op).1 (r.step accepts op) := call_effect r op
  have hnext : Inv (r.step accepts op) := h.step op
  have hothers : ∀ thread, thread ≠ op.thread → (r.step accepts op).queued thread = r.queued thread ∧
      own Row.thread thread (r.step accepts op).table = own Row.thread thread r.table :=
    fun thread hne => Moves.others h.log (heffect.moves h) hne
  refine ⟨?_, ?_, ?_, ?_, ?_, fun row hrow hnew => heffect.dropped h hrow hnew, hothers⟩
  · rintro args (hcall | hcall) response hreply
    · rw [Repository.step]
      rw [Repository.call, hcall] at hreply ⊢
      exact create_ok hreply
    · rw [Repository.step]
      rw [Repository.call, hcall] at hreply ⊢
      exact createDeferred_ok hreply
  · intro query hcall response hreply
    obtain ⟨hempty, hanswer⟩ := read_ok hcall hreply
    exact ⟨hreply.trans hanswer, hnext.log.own_written hempty⟩
  · intro query hcall response hreply hidle
    obtain ⟨hempty, _⟩ := read_ok hcall hreply
    refine hnext.log.perm_kept fun thread => ?_
    by_cases hsame : thread = op.thread
    · exact hsame ▸ hempty
    · exact (hothers thread hsame).1.trans (hidle thread hsame)
  · intro query hcall response hreply halone
    obtain ⟨hempty, hanswer⟩ := read_ok hcall hreply
    have htable : (r.step accepts op).table = (r.step accepts op).atOnce := hnext.log.written_eq hempty halone
    rw [hreply, hanswer, htable]
  · intro raised hcall houtermost response hreply row hrow
    exact h.ends hcall houtermost hreply hrow

theorem decisions_as_at_once (accepts : Row → Bool) (ops : List Operation) :
    Faithful (Runs.run (step accepts) {} ops) ∧
      ∀ op, Sound accepts (Runs.run (step accepts) {} ops) op ((Runs.run (step accepts) {} ops).call accepts op).1
        ((Runs.run (step accepts) {} ops).step accepts op) :=
  ⟨(inv_run accepts ops).faithful, (inv_run accepts ops).sound⟩

section Sample

def noSignal : DecisionArgs :=
  { scanTask := "scan"
    symbol := "AAPL"
    strategyName := "momentum"
    timeframe := "1d"
    status := "no_signal"
    finalScore := none
    alertEligible := false
    freshness := none
    reasonCodes := []
    rejectionReasons := []
    payload := some "{}" }

-- A scan of thread 0 with one decision still queued.
def openScan : List Operation :=
  [{ thread := 0, now := 0, call := .enter }, { thread := 0, now := 1, call := .createDeferred noSignal }]

-- Its last write fails.
def failedScan : List Operation := openScan ++ [{ thread := 0, now := 2, call := .leave false, flushed := false }]

/-- A read of another thread misses the queued decision, and one of the same thread what a scan that raised
has dropped. -/
theorem reads_not_at_once :
    (∃ ops op query response, op.call = .read query ∧
      ((Runs.run (step fun _ => true) {} ops).call (fun _ => true) op).1 = .ok response ∧
      .ok response ≠ answer (fun _ => true) query ((Runs.run (step fun _ => true) {} ops).step (fun _ => true) op).atOnce) ∧
    ∃ ops op query response, op.call = .read query ∧
      ((Runs.run (step fun _ => true) {} ops).call (fun _ => true) op).1 = .ok response ∧
      ∃ row ∈ (Runs.run (step fun _ => true) {} ops).recorded, row.thread = op.thread ∧
        row ∉ ((Runs.run (step fun _ => true) {} ops).step (fun _ => true) op).table := by
  constructor
  · refine ⟨openScan, { thread := 1, now := 2, call := .read (.list {}) }, .list {}, .records [], rfl, rfl, ?_⟩
    decide +kernel
  · refine ⟨failedScan, { thread := 0, now := 3, call := .read (.list {}) }, .list {}, .records [], rfl, rfl, ?_⟩
    decide +kernel

end Sample

end AlgoTrader.Storage
