import AlgoTrader.Broker.MirrorCaps

/-! What a refused copy leaves behind. The mirror's state goes back to what the attempt started from;
the stop of the symbol is dropped, whoever recorded it. -/

namespace AlgoTrader.Broker.Etoro

open AlgoTrader.Utils.Time

-- A request that never went out counts when it failed for the rate limit or with a 4xx answer.
def Attempt.definiteNonFill : Attempt → Bool
  | .notSent failure => failure.refunded
  | .posted (.accepted statusId) => (normalizeOrderStatus statusId).refused
  | .posted (.httpError status body) =>
      markEtoroRateLimited status body || (400 ≤ status && status < 500)
  | .posted (.unreadable _) => false
  | .posted (.transport _) => false

lemma toString_four_hundreds {status : ℕ} (hlow : 400 ≤ status) (hhigh : status < 500) :
    (toString status).toList.take 1 = ['4'] := by
  obtain ⟨rest, rfl⟩ := Nat.exists_eq_add_of_le hlow
  have hall : ∀ rest < 100, (toString (400 + rest)).toList.take 1 = ['4'] := by decide +kernel
  exact hall rest (by omega)

lemma clientError_refunded {status : ℕ} (hlow : 400 ≤ status) (hhigh : status < 500) (text : String) :
    (Failure.other ("Broker request failed with status " ++ toString status ++ ": " ++ text)).refunded =
      true := by
  rw [Failure.refunded, Bool.or_eq_true]
  right
  apply Text.containsText_of_infix
  have hfour := List.take_append_drop 1 (toString status).toList
  rw [toString_four_hundreds hlow hhigh] at hfour
  have hstart : "Broker request failed with status ".toList ++ ['4'] =
      "Broker request failed ".toList ++ "with status 4".toList := by decide
  refine ⟨"Broker request failed ".toList,
    (toString status).toList.drop 1 ++ (": ".toList ++ text.toList), ?_⟩
  rw [Failure.text, String.toList_append, String.toList_append, String.toList_append, ← hstart,
    ← hfour]
  simp only [List.append_assoc, List.drop_append, List.length_singleton]
  rfl

lemma undone_of_definiteNonFill {attempt : Attempt} (h : attempt.definiteNonFill = true) :
    attempt.undone = true := by
  cases attempt with
  | notSent failure => exact h
  | posted reply =>
    cases reply with
    | accepted statusId => exact h
    | httpError status body =>
      rw [Attempt.undone, Attempt.result, request]
      cases hlimited : markEtoroRateLimited status body with
      | true => rfl
      | false =>
        rw [Attempt.definiteNonFill, hlimited, Bool.false_or, Bool.and_eq_true, decide_eq_true_eq,
          decide_eq_true_eq] at h
        exact clientError_refunded h.1 h.2 (compactHttpBody body)
    | unreadable text => cases h
    | transport text => cases h

section Stops

lemma erase_rememberStop (stops : Stops) (symbol : String) (stop : Option ℚ) (instrumentId : Option ℕ)
    (now : Timestamp) :
    forgetStop (rememberStop stops symbol stop instrumentId now) symbol =
      stops.erase symbol.toUpper := by
  rw [forgetStop]
  cases stop with
  | none => rfl
  | some stop =>
    rw [rememberStop]
    apply AList.ext
    change List.kerase symbol.toUpper (stops.insert symbol.toUpper _).entries = List.kerase symbol.toUpper stops.entries
    rw [AList.entries_insert]
    exact List.kerase_cons_eq rfl

lemma erase_eq_self_iff (stops : Stops) (key : String) : stops.erase key = stops ↔ key ∉ stops := by
  constructor
  · intro h hkey
    rw [← h, AList.mem_erase] at hkey
    exact hkey.1 rfl
  · intro h
    apply AList.ext
    exact List.kerase_of_notMem_keys h

end Stops

section Refused

variable {settings : Settings} {store : Store} {input : CopyInput} {times : CopyTimes}
variable {prepared : Prepared}

/-- The attempt changed the mirror's state by the reserve's sale only, and no recorded stop. -/
structure Traceless (settings : Settings) (store : Store) (input : CopyInput) (times : CopyTimes)
    (prepared : Prepared) : Prop where
  state : releaseForCopy settings store.mirror prepared.amount input.release =
    some (mirror settings store input times).mirror
  stops : (mirror settings store input times).stops = store.stops

lemma mirror_refused (hprepared : prepareCopy settings store input times = some prepared)
    (hrefused : input.attempt.definiteNonFill = true) :
    (mirror settings store input times).mirror = prepared.state ∧
      (mirror settings store input times).stops = store.stops.erase (orderSymbol input) := by
  have hmirror : mirror settings store input times = submitCopy store input times prepared := by
    rw [mirror, hprepared]
  obtain ⟨hstate, hstops⟩ :=
    submitCopy_undone store input times prepared (undone_of_definiteNonFill hrefused)
  have herased := erase_rememberStop store.stops (orderSymbol input) input.request.order.stopLoss none
    times.stopAt
  rw [hmirror]
  refine ⟨hstate, hstops.trans (herased.trans ?_)⟩
  rw [orderSymbol, Text.toUpper_toUpper]

lemma released_unrolled (hprepared : prepareCopy settings store input times = some prepared) :
    releaseForCopy settings store.mirror prepared.amount input.release = some prepared.state ↔
      store.mirror.day = some (utcDate times.readAt) := by
  obtain ⟨-, -, hrelease⟩ := prepareCopy_steps hprepared
  constructor
  · intro hsame
    rw [← (releaseForCopy_frame hsame).1]
    exact (prepareCopy_some hprepared).day
  · intro hday
    rw [currentState_of_day hday] at hrelease
    exact hrelease

theorem refused_copy_traceless (settings : Settings) (store : Store) (input : CopyInput)
    (times : CopyTimes) (prepared : Prepared)
    (hprepared : prepareCopy settings store input times = some prepared)
    (hrefused : input.attempt.definiteNonFill = true) :
    Traceless settings store input times prepared ↔
      store.mirror.day = some (utcDate times.readAt) ∧ orderSymbol input ∉ store.stops := by
  obtain ⟨hstate, hstops⟩ := mirror_refused hprepared hrefused
  constructor
  · rintro ⟨hsame, hkept⟩
    rw [hstate] at hsame
    rw [hstops] at hkept
    exact ⟨(released_unrolled hprepared).mp hsame, (erase_eq_self_iff _ _).mp hkept⟩
  · rintro ⟨hday, hnew⟩
    refine ⟨?_, ?_⟩
    · rw [hstate]
      exact (released_unrolled hprepared).mpr hday
    · rw [hstops]
      exact (erase_eq_self_iff _ _).mpr hnew

end Refused

-- The first copy's answer is lost and its order stays queued; the second one meets the
-- rate limit.
def timedOut : CopyInput := { entryOf "AAPL" with attempt := .posted (.transport "timed out") }
def rateLimitedCopy : CopyInput := { entryOf "AAPL" with attempt := .posted (.httpError 429 "") }

def queuedWorld : World :=
  Runs.run (step {} fun _ => 1) (World.start fundedStore (midnight 20000))
    [.copy {} timedOut, .clearHalt,
      .reconcile 0 0 { reads := .ok { credit := some 10000, raw := [], portfolio := [] } }]

theorem refused_copy_drops_queued_stop :
    ¬ ∀ (settings : Settings) (store : Store) (input : CopyInput) (times : CopyTimes)
      (prepared : Prepared), prepareCopy settings store input times = some prepared →
      input.attempt.definiteNonFill = true → Traceless settings store input times prepared := by
  intro h
  have hsome : (prepareCopy {} queuedWorld.store rateLimitedCopy
      (CopyWaits.times {} queuedWorld.clock)).isSome = true := by decide +kernel
  obtain ⟨prepared, hprepared⟩ := Option.isSome_iff_exists.mp hsome
  have hstops := (h _ _ _ _ prepared hprepared (by decide +kernel)).stops
  have hlookup := congrArg (AList.lookup "AAPL") hstops
  revert hlookup
  decide +kernel

theorem refused_copy_traceless_new_symbol :
    ∃ prepared, prepareCopy {} queuedWorld.store { rateLimitedCopy with request := (entryOf "MSFT").request }
        (CopyWaits.times {} queuedWorld.clock) = some prepared ∧
      Traceless {} queuedWorld.store { rateLimitedCopy with request := (entryOf "MSFT").request }
        (CopyWaits.times {} queuedWorld.clock) prepared := by
  have hsome : (prepareCopy {} queuedWorld.store
      { rateLimitedCopy with request := (entryOf "MSFT").request }
      (CopyWaits.times {} queuedWorld.clock)).isSome = true := by decide +kernel
  obtain ⟨prepared, hprepared⟩ := Option.isSome_iff_exists.mp hsome
  have hexact := refused_copy_traceless _ _ _ _ prepared hprepared (by decide +kernel)
  exact ⟨prepared, hprepared, hexact.mpr ⟨by decide +kernel, by decide +kernel⟩⟩

end AlgoTrader.Broker.Etoro
