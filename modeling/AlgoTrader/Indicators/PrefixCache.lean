import AlgoTrader.Indicators.Enrich
import AlgoTrader.Backtesting.Frame
import Mathlib.Data.Nat.Sqrt

/-! Indicators sliced from one computation over a whole frame (``precomputed_indicators``), and when
they are those of the frame asked about. -/

namespace AlgoTrader.Indicators

-- A missing value differs from every value, itself included.
def differs {α : Type*} [DecidableEq α] (x y : Option (Option α)) : Bool := x.join = none ∨ x.join ≠ y.join

def Column.differsAt (i : ℕ) : Column → Column → Bool
  | numbers xs, numbers ys => differs xs[i]? ys[i]?
  | times xs, times ys => differs xs[i]? ys[i]?
  | dates xs, dates ys => differs xs[i]? ys[i]?
  | flags xs, flags ys => xs[i]? ≠ ys[i]?
  | texts xs, texts ys => xs[i]? ≠ ys[i]?
  | _, _ => true

def comparedColumns : List String := ["timestamp", "close"]

def Frame.endsDiffer (source data : Frame) (name : String) : Bool :=
  match data.column name, source.column name with
  | some xs, some ys => xs.differsAt 0 ys || xs.differsAt (data.rows - 1) ys
  | _, _ => false

def Frame.rejects (source data : Frame) : Bool :=
  decide (data.rows = 0 ∨ source.rows < data.rows ∨ ¬ data.names ⊆ source.names) ||
    comparedColumns.any (source.endsDiffer data)

/-- What is kept is computed from the source, for a timeframe with that key. -/
structure PrefixCache (sqrt : ℚ → ℚ) where
  source : Frame
  byTimeframe : String → Option Frame
  fresh : ∀ key frame, byTimeframe key = some frame →
    ∃ timeframe, timeframe.toLower = key ∧ enrich sqrt source timeframe = .ok frame

variable (sqrt : ℚ → ℚ)

def precomputedIndicators (source : Frame) : PrefixCache sqrt where
  source := source
  byTimeframe _ := none
  fresh _ _ h := nomatch h

namespace PrefixCache

variable {sqrt} (cache : PrefixCache sqrt) (data : Frame) (timeframe : String)

def keep {frame : Frame} (h : enrich sqrt cache.source timeframe = .ok frame) : PrefixCache sqrt where
  source := cache.source
  byTimeframe := Function.update cache.byTimeframe timeframe.toLower (some frame)
  fresh key kept hkept := by
    rw [Function.update_apply] at hkept
    split_ifs at hkept with hkey
    · exact ⟨timeframe, hkey.symm, h.trans (congrArg Except.ok (Option.some.inj hkept))⟩
    · exact cache.fresh key kept hkept

def whole : Except FrameError Frame × PrefixCache sqrt :=
  match cache.byTimeframe timeframe.toLower with
  | some frame => (.ok frame, cache)
  | none =>
    match h : enrich sqrt cache.source timeframe with
    | .ok frame => (.ok frame, cache.keep timeframe h)
    | .error e => (.error e, cache)

def lookup : Except FrameError (Option Frame) × PrefixCache sqrt :=
  if cache.source.rejects data then (.ok none, cache)
  else
    let (frame, cache) := cache.whole timeframe
    (frame.map fun frame => some (frame.head data.rows), cache)

end PrefixCache

def enrichTechnicalIndicators (cache : Option (PrefixCache sqrt)) (data : Frame) (timeframe : String) :
    Except FrameError Frame :=
  match cache with
  | none => enrich sqrt data timeframe
  | some cache =>
    match (cache.lookup data timeframe).1 with
    | .ok (some cached) => .ok cached
    | .ok none => enrich sqrt data timeframe
    | .error e => .error e

def cacheAfter (source : Frame) (calls : List (Frame × String)) : PrefixCache sqrt :=
  calls.foldl (fun cache call => (cache.lookup call.1 call.2).2) (precomputedIndicators sqrt source)

variable {sqrt}

lemma whole_fst (cache : PrefixCache sqrt) (timeframe : String) :
    (cache.whole timeframe).1 = enrich sqrt cache.source timeframe := by
  rw [PrefixCache.whole]
  split
  · next frame hkept =>
    obtain ⟨other, hkey, hfresh⟩ := cache.fresh _ _ hkept
    rw [enrich_congr sqrt hkey.symm, hfresh]
  · split
    · next frame hfresh => exact hfresh.symm
    · next e hfresh => exact hfresh.symm

lemma whole_source (cache : PrefixCache sqrt) (timeframe : String) :
    (cache.whole timeframe).2.source = cache.source := by
  rw [PrefixCache.whole]
  split
  · rfl
  · split <;> rfl

lemma lookup_fst (cache : PrefixCache sqrt) (data : Frame) (timeframe : String) :
    (cache.lookup data timeframe).1 = if cache.source.rejects data then .ok none else
      (enrich sqrt cache.source timeframe).map fun frame => some (frame.head data.rows) := by
  rw [PrefixCache.lookup]
  split_ifs
  · rfl
  · rw [← whole_fst]

lemma lookup_source (cache : PrefixCache sqrt) (data : Frame) (timeframe : String) :
    (cache.lookup data timeframe).2.source = cache.source := by
  rw [PrefixCache.lookup]
  split_ifs
  · rfl
  · exact whole_source cache timeframe

lemma cacheAfter_source (source : Frame) (calls : List (Frame × String)) :
    (cacheAfter sqrt source calls).source = source := by
  induction calls using List.reverseRecOn with
  | nil => rfl
  | append_singleton calls call ih =>
    rw [cacheAfter, List.foldl_append, List.foldl_cons, List.foldl_nil, lookup_source]
    exact ih

def Frame.IsHead (source data : Frame) : Prop := data.rows ≤ source.rows ∧ data = source.head data.rows

/-- Nothing the cache looks at tells `data` from the first rows of `source`. -/
structure Frame.SameEnds (source data : Frame) : Prop where
  pos : 0 < data.rows
  le : data.rows ≤ source.rows
  names : data.names ⊆ source.names
  ends : ∀ name ∈ comparedColumns, source.endsDiffer data name = false

/-- The answer is the fresh computation, and rows are sliced from the source for its own first rows only. -/
structure PrefixCache.Right (cache : PrefixCache sqrt) (data : Frame) (timeframe : String) : Prop where
  fresh : enrichTechnicalIndicators sqrt (some cache) data timeframe = enrich sqrt data timeframe
  isHead : ∀ frame, (cache.lookup data timeframe).1 = .ok (some frame) → cache.source.IsHead data

lemma rejects_eq_false_iff {source data : Frame} : source.rejects data = false ↔ source.SameEnds data := by
  rw [Frame.rejects, Bool.or_eq_false_iff, decide_eq_false_iff_not, List.any_eq_false]
  constructor
  · rintro ⟨hshape, hends⟩
    push Not at hshape
    exact ⟨Nat.pos_of_ne_zero hshape.1, hshape.2.1, hshape.2.2, fun name hname => by simpa using hends name hname⟩
  · intro h
    have hpos := h.pos
    refine ⟨?_, fun name hname => by simp [h.ends name hname]⟩
    push Not
    exact ⟨hpos.ne', h.le, h.names⟩

def SameFault (source data : Frame) (timeframe : String) : Prop :=
  ∃ e, source.prices timeframe = .error e ∧ data.prices timeframe = .error e

lemma right_of_rejects {cache : PrefixCache sqrt} {data : Frame} (h : cache.source.rejects data = true)
    (timeframe : String) : cache.Right data timeframe := by
  have hlookup := lookup_fst cache data timeframe
  rw [if_pos h] at hlookup
  refine ⟨?_, fun frame hserved => ?_⟩
  · rw [enrichTechnicalIndicators, hlookup]
  · rw [hlookup] at hserved
    cases hserved

lemma lookup_accepted {cache : PrefixCache sqrt} {data : Frame} (h : cache.source.SameEnds data)
    (timeframe : String) :
    (cache.lookup data timeframe).1 =
      (enrich sqrt cache.source timeframe).map fun frame => some (frame.head data.rows) := by
  rw [lookup_fst, rejects_eq_false_iff.mpr h, if_neg Bool.false_ne_true]

lemma right_of_isHead {cache : PrefixCache sqrt} {data : Frame} (h : cache.source.SameEnds data)
    (hhead : cache.source.IsHead data) (timeframe : String) : cache.Right data timeframe := by
  refine ⟨?_, fun _ _ => hhead⟩
  have hcut := enrich_head sqrt h.pos (h.pos.trans_le h.le) timeframe
  rw [← hhead.2] at hcut
  rw [enrichTechnicalIndicators, lookup_accepted h, hcut]
  cases enrich sqrt cache.source timeframe <;> rfl

lemma right_of_sameFault {cache : PrefixCache sqrt} {data : Frame} {timeframe : String}
    (h : cache.source.SameEnds data) (hfault : SameFault cache.source data timeframe) : cache.Right data timeframe := by
  obtain ⟨e, hsource, hdata⟩ := hfault
  have hlookup := lookup_accepted h timeframe
  rw [enrich_of_rows sqrt (h.pos.trans_le h.le), hsource] at hlookup
  refine ⟨?_, fun frame hserved => ?_⟩
  · rw [enrichTechnicalIndicators, hlookup, enrich_of_rows sqrt h.pos, hdata]
    rfl
  · rw [hlookup] at hserved
    cases hserved

lemma isHead_or_sameFault {cache : PrefixCache sqrt} {data : Frame} {timeframe : String}
    (h : cache.source.SameEnds data) (hright : cache.Right data timeframe) :
    cache.source.IsHead data ∨ SameFault cache.source data timeframe := by
  have hlookup := lookup_accepted h timeframe
  rw [enrich_of_rows sqrt (h.pos.trans_le h.le)] at hlookup
  cases hsource : cache.source.prices timeframe with
  | ok p =>
    rw [hsource] at hlookup
    exact .inl (hright.isHead _ hlookup)
  | error e =>
    -- nothing is served: the fresh computation fails as well
    have hfresh := hright.fresh
    rw [hsource] at hlookup
    rw [enrichTechnicalIndicators, hlookup, enrich_of_rows sqrt h.pos] at hfresh
    refine .inr ⟨e, hsource, ?_⟩
    cases hdata : data.prices timeframe with
    | ok p =>
      rw [hdata] at hfresh
      cases hfresh
    | error e' =>
      rw [hdata] at hfresh
      cases hfresh
      rfl

theorem right_iff (cache : PrefixCache sqrt) (data : Frame) (timeframe : String) :
    cache.Right data timeframe ↔
      (cache.source.SameEnds data → cache.source.IsHead data ∨ SameFault cache.source data timeframe) := by
  constructor
  · intro hright hends
    exact isHead_or_sameFault hends hright
  · intro h
    cases hrejects : cache.source.rejects data with
    | true => exact right_of_rejects hrejects timeframe
    | false =>
      have hends := rejects_eq_false_iff.mp hrejects
      rcases h hends with hhead | hfault
      · exact right_of_isHead hends hhead timeframe
      · exact right_of_sameFault hends hfault

/-- In any sequence of calls inside one context each answer is the fresh computation, and no row is
served for a frame that is not the beginning of the source, exactly when every frame asked about
that has the ends of its beginning is its beginning. -/
theorem prefix_cache_fresh_iff (sqrt : ℚ → ℚ) (source : Frame) (calls : List (Frame × String)) :
    (∀ k data timeframe, calls[k]? = some (data, timeframe) →
      (cacheAfter sqrt source (calls.take k)).Right data timeframe) ↔
    ∀ data timeframe, (data, timeframe) ∈ calls → source.SameEnds data →
      source.IsHead data ∨ SameFault source data timeframe := by
  constructor
  · intro h data timeframe hmem
    obtain ⟨k, hk⟩ := List.mem_iff_getElem?.mp hmem
    have hright := (right_iff _ data timeframe).mp (h k data timeframe hk)
    rw [cacheAfter_source] at hright
    exact hright
  · intro h k data timeframe hk
    rw [right_iff, cacheAfter_source]
    exact h data timeframe (List.mem_iff_getElem?.mpr ⟨k, hk⟩)

def blank (rows : ℕ) : Frame where
  rows := rows
  names := ∅
  column _ := none
  mem_names _ := by simp

def barColumns (bars : Backtesting.Frame) : List (String × Column) :=
  [("timestamp", .times (bars.map fun bar => some bar.timestamp)),
    ("open", .numbers (bars.map fun bar => some bar.openPrice)),
    ("high", .numbers (bars.map fun bar => some bar.high)),
    ("low", .numbers (bars.map fun bar => some bar.low)),
    ("close", .numbers (bars.map fun bar => some bar.close)),
    ("volume", .numbers (bars.map fun bar => some bar.volume))]

def ofBars (bars : Backtesting.Frame) : Frame := (blank bars.length).setAll (barColumns bars)

lemma ofBars_take (bars : Backtesting.Frame) (n : ℕ) : ofBars (bars.take n) = (ofBars bars).head n := by
  have hblank : blank (bars.take n).length = (blank bars.length).head n := by
    refine Frame.ext_column ?_ fun _ => rfl
    exact List.length_take
  have hcolumns : barColumns (bars.take n) = Frame.headColumns n (barColumns bars) := by
    simp [barColumns, Frame.headColumns, Column.head]
  rw [ofBars, hblank, hcolumns, Frame.setAll_head]
  rfl

lemma ofBars_rows (bars : Backtesting.Frame) : (ofBars bars).rows = bars.length := Frame.setAll_rows _ _

lemma ofBars_isHead (bars : Backtesting.Frame) (n : ℕ) : (ofBars bars).IsHead (ofBars (bars.take n)) := by
  refine ⟨?_, ?_⟩
  · rw [ofBars_rows, ofBars_rows]
    exact List.length_take_le' n bars
  · have hcut : bars.take (bars.take n).length = bars.take n := by
      rw [List.length_take]
      exact List.take_eq_take_min.symm
    rw [ofBars_rows, ← ofBars_take, hcut]

theorem window_right (bars : Backtesting.Frame) (calls : List (Frame × String)) (index : ℕ) (timeframe : String) :
    (cacheAfter sqrt (ofBars bars) calls).Right (ofBars (bars.take (index + 1))) timeframe := by
  rw [right_iff, cacheAfter_source]
  exact fun _ => .inl (ofBars_isHead bars (index + 1))

-- A provider corrects the volume of the bar in the middle. The ends stay, and so does
-- the cached volume-weighted price of the last bar.
def ratSqrt (x : ℚ) : ℚ := Nat.sqrt x.num.toNat / Nat.sqrt x.den

def threeBars (middleVolume : ℚ) : Backtesting.Frame :=
  [⟨0, 10, 10, 10, 10, 1⟩, ⟨1, 20, 20, 20, 20, middleVolume⟩, ⟨2, 10, 10, 10, 10, 1⟩]

def lastVwap (answer : Except FrameError Frame) : Option Column :=
  answer.toOption.bind fun frame => frame.column "vwap"

theorem corrected_bar_gets_cached_rows :
    let cache := cacheAfter ratSqrt (ofBars (threeBars 2)) []
    let corrected := ofBars (threeBars 8)
    lastVwap (enrichTechnicalIndicators ratSqrt (some cache) corrected "1d") =
        some (.numbers [some 10, some (50 / 3), some 15]) ∧
      lastVwap (enrich ratSqrt corrected "1d") = some (.numbers [some 10, some (170 / 9), some 18]) ∧
      ¬ cache.Right corrected "1d" := by
  intro cache corrected
  have hcached : lastVwap (enrichTechnicalIndicators ratSqrt (some cache) corrected "1d") =
      some (.numbers [some 10, some (50 / 3), some 15]) := by decide +kernel
  have hfresh : lastVwap (enrich ratSqrt corrected "1d") = some (.numbers [some 10, some (170 / 9), some 18]) := by
    decide +kernel
  refine ⟨hcached, hfresh, fun hright => ?_⟩
  rw [hright.fresh, hfresh] at hcached
  exact absurd hcached (by decide +kernel)

end AlgoTrader.Indicators
