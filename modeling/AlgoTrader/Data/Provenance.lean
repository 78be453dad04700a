import AlgoTrader.Data.Engine

/-! Where the frames and quotes that the market data engine serves come from, over any run of its calls. -/

namespace AlgoTrader.Data.Engine

open Backtesting (Frame)

section Origin

variable {settings : Settings} {cache : Cache} {request : Request} {answer : Answer} {served : Served}
variable {timeframe : Timeframe}

/-- What the providers answer to a request that asks them: the one used and its frame. -/
def fetched (settings : Settings) (request : Request) : Option (String × Frame) :=
  match fetchInOrder settings request (providerOrder settings (resolveProvider settings request.provider)) with
  | .inl answer => answer
  | .inr () => none

inductive Called (settings : Settings) (cache : Cache) (request : Request) : Answer × Cache → Prop
  | cached (timeframe : Timeframe) (file : File) (htimeframe : normalizeTimeframe request.timeframe = some timeframe)
      (hrefresh : request.refreshes = false)
      (hfile : cache (cachePath request.name timeframe (resolveProvider settings request.provider)) = some file)
      (hage : age request.now file.writtenAt ≤ cacheTtl settings timeframe)
      (hlength : min request.bars 20 ≤ file.frame.length) :
      Called settings cache request (.served ⟨tail file.frame request.bars,
        cachedAttrs (resolveProvider settings request.provider) (age request.now file.writtenAt)⟩, cache)
  | fetched (timeframe : Timeframe) (used : String) (frame : Frame)
      (htimeframe : normalizeTimeframe request.timeframe = some timeframe)
      (hfetched : fetched settings request = some (used, frame)) :
      Called settings cache request (.served ⟨tail frame request.bars,
        fetchedAttrs used (resolveProvider settings request.provider)⟩, storeFrame cache request timeframe used frame)
  | unserved (answer : Answer) (hanswer : ∀ served, answer ≠ .served served) :
      Called settings cache request (answer, cache)

lemma loadCachedFrame_some {provider : String}
    (h : loadCachedFrame settings cache request timeframe provider = some served) :
    ∃ file, cache (cachePath request.name timeframe provider) = some file ∧
      age request.now file.writtenAt ≤ cacheTtl settings timeframe ∧ min request.bars 20 ≤ file.frame.length ∧
        served = ⟨file.frame, cachedAttrs provider (age request.now file.writtenAt)⟩ := by
  rw [loadCachedFrame] at h
  split at h
  · exact nomatch h
  · rename_i file hfile
    split_ifs at h with hstale
    rw [not_or, not_or, not_lt, not_lt] at hstale
    exact ⟨file, hfile, hstale.1, hstale.2.2, (Option.some.inj h).symm⟩

lemma called_getHistory (settings : Settings) (cache : Cache) (request : Request) :
    Called settings cache request (getHistory settings cache request) := by
  rw [getHistory]
  split
  · exact .unserved _ fun _ h => nomatch h
  · rename_i timeframe htimeframe
    dsimp only
    split
    · rename_i loaded hloaded
      split_ifs at hloaded with hrefresh
      obtain ⟨file, hfile, hage, hlength, rfl⟩ := loadCachedFrame_some hloaded
      exact .cached timeframe file htimeframe (Bool.eq_false_iff.mpr hrefresh) hfile hage hlength
    · split
      · exact .unserved _ fun _ h => nomatch h
      · exact .unserved _ fun _ h => nomatch h
      · rename_i used frame hfetch
        exact .fetched timeframe used frame htimeframe (by rw [fetched, hfetch])

end Origin

section Run

variable {settings : Settings} {s : State} {cache : Cache} {request : Request} {served : Served} {event : Event}

/-- The call that wrote a file: it was answered by the provider, not from the cache, and meant to store. -/
structure WrittenBy (settings : Settings) (path : Path) (file : File) (source : Request) (served : Served) : Prop where
  stores : source.stores = true
  saved : source.writeFails = false
  timeframe : normalizeTimeframe source.timeframe = some path.timeframe
  symbol : safeSymbol source.name = path.symbol
  fetched : fetched settings source = some (path.provider, file.frame)
  time : source.fetchedAt = file.writtenAt
  direct : served.attrs.fromCache = false
  provider : served.attrs.provider = path.provider
  frame : served.frame = tail file.frame source.bars

/-- Where a served frame comes from: the provider that answered this call, or one that answered an
earlier call for the same symbol, timeframe and provider, not longer ago than the cache keeps it. -/
inductive Origin (settings : Settings) (calls : List (Request × Answer)) (request : Request) : Served → Prop
  | fetched (used : String) (frame : Frame) (hfetched : fetched settings request = some (used, frame)) :
      Origin settings calls request
        ⟨tail frame request.bars, fetchedAttrs used (resolveProvider settings request.provider)⟩
  | cached (timeframe : Timeframe) (file : File) (source : Request) (earlier : Served)
      (hrefresh : request.refreshes = false) (htimeframe : normalizeTimeframe request.timeframe = some timeframe)
      (hlogged : (source, Answer.served earlier) ∈ calls)
      (hwritten : WrittenBy settings (cachePath request.name timeframe (resolveProvider settings request.provider))
        file source earlier)
      (hage : age request.now file.writtenAt ≤ cacheTtl settings timeframe)
      (hlength : min request.bars 20 ≤ file.frame.length) :
      Origin settings calls request ⟨tail file.frame request.bars,
        cachedAttrs (resolveProvider settings request.provider) (age request.now file.writtenAt)⟩

/-- Where a quote comes from: the broker it resolves to, or the last bar of the history it falls back to. -/
inductive QuoteOrigin (settings : Settings) (calls : List (Request × Answer)) (q : QuoteRequest) : MarketQuote → Prop
  | etoro (attempt : ℕ) (quote : MarketQuote) (hprovider : resolveQuoteProvider settings q.request.provider = "etoro")
      (hattempt : attempt < retryAttempts settings) (hquote : q.etoro attempt = .quote quote) :
      QuoteOrigin settings calls q (fromBroker "etoro" 0 quote)
  | alpaca (attempt : ℕ) (quote : MarketQuote) (hprovider : resolveQuoteProvider settings q.request.provider = "alpaca")
      (hattempt : attempt < retryAttempts settings) (hquote : q.alpaca attempt = some quote) :
      QuoteOrigin settings calls q (fromBroker "alpaca" quote.dataAgeSeconds quote)
  | derived (served : Served) (quote : MarketQuote) (hcall : (q.fallback settings, Answer.served served) ∈ calls)
      (hquote : quoteOf served = some quote) : QuoteOrigin settings calls q quote

structure Sourced (settings : Settings) (s : State) : Prop where
  files : ∀ path file, s.cache path = some file →
    ∃ source served, (source, Answer.served served) ∈ s.calls ∧ WrittenBy settings path file source served
  calls : ∀ before request served after, s.calls = before ++ (request, Answer.served served) :: after →
    Origin settings before request served
  quotes : ∀ q quote, (q, QuoteAnswer.quote quote) ∈ s.quotes → QuoteOrigin settings s.calls q quote

lemma origin_of_called (h : Sourced settings s) {answer : Answer} {after : Cache}
    (hcalled : Called settings s.cache request (answer, after)) (hserved : answer = .served served) :
    Origin settings s.calls request served := by
  cases hcalled with
  | cached timeframe file htimeframe hrefresh hfile hage hlength =>
    obtain rfl := Answer.served.inj hserved
    obtain ⟨source, earlier, hlogged, hwritten⟩ := h.files _ file hfile
    exact .cached timeframe file source earlier hrefresh htimeframe hlogged hwritten hage hlength
  | fetched timeframe used frame htimeframe hfetched =>
    obtain rfl := Answer.served.inj hserved
    exact .fetched used frame hfetched
  | unserved _ hanswer => exact absurd hserved (hanswer served)

lemma files_of_called (h : Sourced settings s) {answer : Answer} {after : Cache}
    (hcalled : Called settings s.cache request (answer, after)) {path : Path} {file : File}
    (hfile : after path = some file) : ∃ source served,
      (source, Answer.served served) ∈ s.calls ++ [(request, answer)] ∧ WrittenBy settings path file source served := by
  have hearlier (hbefore : s.cache path = some file) : ∃ source served,
      (source, Answer.served served) ∈ s.calls ++ [(request, answer)] ∧ WrittenBy settings path file source served := by
    obtain ⟨source, served, hmem, hwritten⟩ := h.files path file hbefore
    exact ⟨source, served, List.mem_append_left _ hmem, hwritten⟩
  cases hcalled with
  | cached _ _ _ _ _ _ _ => exact hearlier hfile
  | fetched timeframe used frame htimeframe hfetched =>
    rw [storeFrame] at hfile
    split_ifs at hfile with hstores
    · by_cases hpath : path = cachePath request.name timeframe used
      · subst hpath
        rw [Function.update_self] at hfile
        obtain rfl := Option.some.inj hfile
        exact ⟨request, _, List.mem_append_right _ (List.mem_singleton_self _), hstores.1, hstores.2, htimeframe, rfl,
          hfetched, rfl, rfl, rfl, rfl⟩
      · rw [Function.update_of_ne hpath] at hfile
        exact hearlier hfile
    · exact hearlier hfile
  | unserved _ _ => exact hearlier hfile

lemma quoteAttempts_quote {ask : ℕ → BrokerAnswer} {attempt left : ℕ} {quote : MarketQuote}
    (h : quoteAttempts ask attempt left = .quote quote) : ∃ i < attempt + left, ask i = .quote quote := by
  induction left generalizing attempt with
  | zero => exact nomatch h
  | succ left ih =>
    rw [quoteAttempts] at h
    split at h
    · rename_i answered hanswered
      obtain rfl := BrokerAnswer.quote.inj h
      exact ⟨attempt, by omega, hanswered⟩
    · exact nomatch h
    · obtain ⟨i, hi, hquote⟩ := ih h
      exact ⟨i, by omega, hquote⟩

lemma brokerQuote_origin {q : QuoteRequest} {quote : MarketQuote} (calls : List (Request × Answer))
    (h : brokerQuote settings q = .quote quote) : QuoteOrigin settings calls q quote := by
  rw [brokerQuote] at h
  split_ifs at h with hetoro halpaca
  · split at h
    · rename_i answered hanswered
      obtain rfl := BrokerAnswer.quote.inj h
      obtain ⟨attempt, hattempt, hquote⟩ := quoteAttempts_quote hanswered
      exact .etoro attempt answered hetoro.1 (by omega) hquote
    · rename_i other hother
      exact absurd h (hother quote)
  · split at h
    · rename_i answered hanswered
      obtain rfl := BrokerAnswer.quote.inj h
      obtain ⟨attempt, hattempt, hquote⟩ := List.exists_of_findSome?_eq_some hanswered
      exact .alpaca attempt answered halpaca (List.mem_range.mp hattempt) hquote
    · exact nomatch h

lemma getQuote_origin {q : QuoteRequest} {quote : MarketQuote} (calls : List (Request × Answer))
    (h : (getQuote settings cache q).1 = .quote quote) :
    QuoteOrigin settings (calls ++ callsOf settings cache (.quote q)) q quote := by
  rw [getQuote] at h
  split at h
  · exact nomatch h
  · rename_i timeframe htimeframe
    split at h
    · rename_i answered hanswered
      obtain rfl := QuoteAnswer.quote.inj h
      exact brokerQuote_origin _ hanswered
    · exact nomatch h
    · rename_i hnone hlimit
      have hcall : (Event.quote q).call settings = some (q.fallback settings) := by
        rw [Event.call, htimeframe]
        split
        · exact absurd ‹_› (Option.some_ne_none timeframe)
        · exact absurd ‹_› (hnone _)
        · exact absurd ‹_› hlimit
        · rfl
      dsimp only at h
      cases hanswer : (getHistory settings cache (q.fallback settings)).1 with
      | served served =>
        rw [hanswer, quoteAnswer] at h
        split at h
        · rename_i derived hderived
          obtain rfl := QuoteAnswer.quote.inj h
          refine .derived served derived (List.mem_append_right _ ?_) hderived
          rw [callsOf, hcall]
          exact hanswer ▸ List.mem_singleton_self _
        · exact nomatch h
      | rateLimited => rw [hanswer] at h; exact nomatch h
      | failed => rw [hanswer] at h; exact nomatch h
      | unsupportedTimeframe => rw [hanswer] at h; exact nomatch h

lemma QuoteOrigin.append {calls more : List (Request × Answer)} {q : QuoteRequest} {quote : MarketQuote}
    (h : QuoteOrigin settings calls q quote) : QuoteOrigin settings (calls ++ more) q quote := by
  cases h with
  | etoro attempt quote hprovider hattempt hquote => exact .etoro attempt quote hprovider hattempt hquote
  | alpaca attempt quote hprovider hattempt hquote => exact .alpaca attempt quote hprovider hattempt hquote
  | derived served quote hcall hquote => exact .derived served quote (List.mem_append_left _ hcall) hquote

lemma step_of_call (hcall : event.call settings = some request) : (step settings s event).cache =
    (getHistory settings s.cache request).2 ∧
      (step settings s event).calls = s.calls ++ [(request, (getHistory settings s.cache request).1)] := by
  constructor
  · rw [step, cacheStep, hcall]
  · rw [step, callsOf, hcall]

lemma step_of_none (hcall : event.call settings = none) : (step settings s event).cache = s.cache ∧
    (step settings s event).calls = s.calls := by
  constructor
  · rw [step, cacheStep, hcall]
  · rw [step, callsOf, hcall]
    exact List.append_nil _

lemma eq_of_split_concat {α : Type*} {l before after : List α} {a b : α} (h : l ++ [a] = before ++ b :: after) :
    (before = l ∧ b = a) ∨ ∃ rest, l = before ++ b :: rest := by
  rcases List.eq_nil_or_concat after with rfl | ⟨rest, last, rfl⟩
  · obtain ⟨hl, ha⟩ := List.append_inj' h rfl
    exact Or.inl ⟨hl.symm, (List.cons.inj ha).1.symm⟩
  · rw [List.concat_eq_append, ← List.cons_append, ← List.append_assoc] at h
    exact Or.inr ⟨rest, (List.append_inj' h rfl).1⟩

lemma Sourced.step (h : Sourced settings s) (event : Event) : Sourced settings (step settings s event) := by
  have hquotes : ∀ q quote, (q, QuoteAnswer.quote quote) ∈ (Engine.step settings s event).quotes →
      QuoteOrigin settings (Engine.step settings s event).calls q quote := by
    intro q quote hmem
    rcases List.mem_append.mp hmem with hearlier | hlast
    · exact (h.quotes q quote hearlier).append
    · cases event with
      | history request => exact absurd hlast List.not_mem_nil
      | quote asked =>
        obtain ⟨rfl, hquote⟩ := Prod.mk.inj (List.mem_singleton.mp hlast)
        exact getQuote_origin s.calls hquote.symm
  cases hcall : event.call settings with
  | none =>
    obtain ⟨hcache, hcalls⟩ := step_of_none (s := s) hcall
    refine ⟨fun path file hfile => ?_, fun before request served after hsplit => ?_, hquotes⟩
    · rw [hcalls]
      exact h.files path file (hcache ▸ hfile)
    · exact h.calls before request served after (hcalls ▸ hsplit)
  | some request =>
    obtain ⟨hcache, hcalls⟩ := step_of_call (s := s) hcall
    have hcalled := called_getHistory settings s.cache request
    refine ⟨fun path file hfile => ?_, fun before request' served after hsplit => ?_, hquotes⟩
    · rw [hcache] at hfile
      rw [hcalls]
      exact files_of_called h hcalled hfile
    · rw [hcalls] at hsplit
      rcases eq_of_split_concat hsplit with ⟨rfl, hlast⟩ | ⟨rest, hearlier⟩
      · obtain ⟨rfl, hserved⟩ := Prod.mk.inj hlast
        exact origin_of_called h hcalled hserved.symm
      · exact h.calls before request' served rest hearlier

lemma sourced_run (settings : Settings) (events : List Event) : Sourced settings (run settings events) := by
  have hstart : Sourced settings State.start := {
    files := fun _ _ h => nomatch h
    calls := fun before _ _ _ h =>
      absurd h.symm (List.append_ne_nil_of_right_ne_nil before (List.cons_ne_nil _ _))
    quotes := fun _ _ h => absurd h List.not_mem_nil }
  exact Runs.invariant_of_step (fun s event hs => hs.step event) hstart events

theorem run_origin (settings : Settings) (events : List Event) (before after : List (Request × Answer))
    (request : Request) (served : Served)
    (h : (run settings events).calls = before ++ (request, .served served) :: after) :
    Origin settings before request served :=
  (sourced_run settings events).calls before request served after h

def keyed : Settings where
  primaryMarketDataProvider := "auto"
  fallbackMarketDataProvider := "yfinance"
  etoroClient := false
  alpacaKeys := true
  marketDataCacheTtlSeconds := 900
  requireVerifiedMarketDataForAlerts := false
  maxMarketDataAgeSeconds := 60
  marketDataRetryAttempts := 1

def twoDays : Frame := [⟨0, 100, 102, 99, 101, 50⟩, ⟨86400, 101, 104, 100, 103, 60⟩]

def refresh : Request where
  symbol := "spy "
  timeframe := "1day"
  bars := 2
  now := 90000
  fetchedAt := 90001
  fetches := fun provider _ => if provider = "yfinance" then .frame twoDays else .failed

def readBack : Request :=
  { refresh with
    symbol := "SPY", timeframe := "1d", provider := some "yfinance", now := 90100
    fetches := fun _ _ => .failed }

theorem run_origin_readBack :
    Origin keyed (run keyed [.history refresh]).calls readBack ⟨twoDays, cachedAttrs "yfinance" 99⟩ :=
  run_origin keyed [.history refresh, .history readBack] (run keyed [.history refresh]).calls [] readBack _ (by
    have hserved : (getHistory keyed (run keyed [.history refresh]).cache readBack).1 =
        .served ⟨twoDays, cachedAttrs "yfinance" 99⟩ := by decide +kernel
    rw [← hserved]
    rfl)

theorem run_quotes (settings : Settings) (events : List Event) (q : QuoteRequest) (quote : MarketQuote)
    (h : (q, QuoteAnswer.quote quote) ∈ (run settings events).quotes) :
    QuoteOrigin settings (run settings events).calls q quote :=
  (sourced_run settings events).quotes q quote h

def lastClose : QuoteRequest := ⟨readBack, fun _ => .failed, fun _ => none⟩

theorem run_quotes_lastClose :
    QuoteOrigin keyed (run keyed [.history refresh, .quote lastClose]).calls lastClose
      ⟨103, 103, 103, 86400, "yfinance", true, false, true, true, 99⟩ :=
  run_quotes keyed [.history refresh, .quote lastClose] lastClose _ (by
    have hquote : (getQuote keyed (run keyed [.history refresh]).cache lastClose).1 =
        .quote ⟨103, 103, 103, 86400, "yfinance", true, false, true, true, 99⟩ := by decide +kernel
    rw [← hquote]
    exact List.mem_singleton_self _)

end Run

section Isolated

variable {settings : Settings} {cache cache' : Cache} {request : Request} {timeframe : Timeframe}

abbrev Cell := String → Option File

def cellOf (s : State) (key : Timeframe × String) : Cell := fun provider => s.cache ⟨provider, key.1, key.2⟩

def storesFor (settings : Settings) (event : Event) (key : Timeframe × String) : Prop :=
  ∃ request ∈ event.call settings, request.stores = true ∧ normalizeTimeframe request.timeframe = some key.1 ∧
    safeSymbol request.name = key.2

instance (settings : Settings) (key : Timeframe × String) : DecidablePred (storesFor settings · key) := fun event =>
  match h : event.call settings with
  | none => isFalse fun ⟨_, hcall, _⟩ => nomatch h.symm.trans hcall
  | some request =>
    decidable_of_iff (request.stores = true ∧ normalizeTimeframe request.timeframe = some key.1 ∧
      safeSymbol request.name = key.2) ⟨fun hstores => ⟨request, h, hstores⟩, fun ⟨_, hcall, hstores⟩ =>
        Option.some.inj (h.symm.trans hcall) ▸ hstores⟩

def cellStep (settings : Settings) (cell : Cell) (event : Event) : Cell :=
  match event.call settings with
  | none => cell
  | some request =>
    match normalizeTimeframe request.timeframe with
    | none => cell
    | some timeframe => fun provider =>
      (getHistory settings (fun path => cell path.provider) request).2 (cachePath request.name timeframe provider)

lemma loadCachedFrame_congr {provider : String}
    (h : cache (cachePath request.name timeframe provider) = cache' (cachePath request.name timeframe provider)) :
    loadCachedFrame settings cache request timeframe provider =
      loadCachedFrame settings cache' request timeframe provider := by
  rw [loadCachedFrame, loadCachedFrame, h]

lemma getHistory_congr (htimeframe : normalizeTimeframe request.timeframe = some timeframe)
    (h : ∀ provider, cache (cachePath request.name timeframe provider) =
      cache' (cachePath request.name timeframe provider)) :
    (getHistory settings cache request).1 = (getHistory settings cache' request).1 ∧
      ∀ provider, (getHistory settings cache request).2 (cachePath request.name timeframe provider) =
        (getHistory settings cache' request).2 (cachePath request.name timeframe provider) := by
  rw [getHistory, getHistory, htimeframe]
  dsimp only
  rw [loadCachedFrame_congr (h _)]
  split
  · exact ⟨rfl, h⟩
  · split
    · exact ⟨rfl, h⟩
    · exact ⟨rfl, h⟩
    · rename_i used frame hfetch
      refine ⟨rfl, fun provider => ?_⟩
      dsimp only
      rw [storeFrame, storeFrame]
      split_ifs
      · by_cases hpath : cachePath request.name timeframe provider = cachePath request.name timeframe used
        · rw [hpath, Function.update_self, Function.update_self]
        · rw [Function.update_of_ne hpath, Function.update_of_ne hpath]
          exact h provider
      · exact h provider

lemma getHistory_frame {path : Path} (h : ¬ (request.stores = true ∧
    normalizeTimeframe request.timeframe = some path.timeframe ∧ safeSymbol request.name = path.symbol)) :
    (getHistory settings cache request).2 path = cache path := by
  have hcalled := called_getHistory settings cache request
  generalize getHistory settings cache request = answered at hcalled
  cases hcalled with
  | cached _ _ _ _ _ _ _ => rfl
  | fetched timeframe used frame htimeframe hfetched =>
    rw [storeFrame]
    split_ifs with hstores
    · have hpath : path ≠ cachePath request.name timeframe used := by
        rintro rfl
        exact h ⟨hstores.1, htimeframe, rfl⟩
      exact Function.update_of_ne hpath _ _
    · rfl
  | unserved _ _ => rfl

lemma isolated (settings : Settings) :
    Keyed.Isolated (step settings) cellOf (storesFor settings) (cellStep settings) where
  own := fun s event key => by
    rintro ⟨request, hcall, -, htimeframe, hsymbol⟩
    funext provider
    rw [cellStep, hcall]
    dsimp only
    rw [htimeframe]
    have hpath : (⟨provider, key.1, key.2⟩ : Path) = cachePath request.name key.1 provider := by
      rw [cachePath, hsymbol]
    rw [cellOf, (step_of_call hcall).1, hpath]
    refine (getHistory_congr htimeframe fun other => ?_).2 provider
    rw [cachePath, hsymbol]
    rfl
  other := fun s event key hnot => by
    funext provider
    cases hcall : event.call settings with
    | none => rw [cellOf, (step_of_none hcall).1, cellOf]
    | some request =>
      rw [cellOf, (step_of_call hcall).1, cellOf]
      exact getHistory_frame fun hstores => hnot ⟨request, hcall, hstores⟩

/-- What a call is served depends on the earlier calls that store frames under its own file name and timeframe, and
on no other: not on a reader that does not store, a backtest, another file name or another timeframe. -/
theorem served_isolated (settings : Settings) (events : List Event) (request : Request) (timeframe : Timeframe)
    (h : normalizeTimeframe request.timeframe = some timeframe) :
    (getHistory settings (run settings events).cache request).1 =
      (getHistory settings (run settings (events.filter
        (storesFor settings · (timeframe, safeSymbol request.name)))).cache request).1 := by
  refine (getHistory_congr h fun provider => ?_).1
  exact congrFun ((isolated settings).run_filter State.start events (timeframe, safeSymbol request.name)).symm provider

def interleaved : List Event :=
  [.history refresh, .history { refresh with writeCache := false, now := 95000 },
    .history { refresh with symbol := "QQQ" }]

theorem served_isolated_readBack :
    (getHistory keyed (run keyed interleaved).cache readBack).1 =
      (getHistory keyed (run keyed (interleaved.filter
        (storesFor keyed · (.d1, safeSymbol readBack.name)))).cache readBack).1 :=
  served_isolated keyed interleaved readBack .d1 (by decide +kernel)

end Isolated

end AlgoTrader.Data.Engine
