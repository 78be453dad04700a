import AlgoTrader.Lib.Cursor
import AlgoTrader.Lib.Runs
import AlgoTrader.Lib.Text
import Mathlib.Data.List.Induction

/-! The polling of the Telegram bot (``app/notifications/telegram_bot.py``): which updates it takes, in which
order, and which of them reach the commands. -/

namespace AlgoTrader.Notifications

/-- An update as it arrives: the text and the chat of its message, blank where it has none. -/
structure Update where
  updateId : ℕ
  text : String
  chatId : String
  deriving DecidableEq

structure TelegramSettings where
  telegramAllowedChatIds : List String := []
  telegramChatId : String := ""

def chatAllowed (settings : TelegramSettings) (chatId : String) : Bool :=
  chatId ∈ (if settings.telegramAllowedChatIds = [] then [settings.telegramChatId]
    else settings.telegramAllowedChatIds).filter (· ≠ "")

def Update.isCommand (settings : TelegramSettings) (update : Update) : Bool :=
  Text.strip update.text ≠ "" && update.chatId ≠ "" && chatAllowed settings update.chatId

/-- How a poll ends: after all of its updates, or cut off after some of them (the process is gone, or something is
raised), the next of which has been taken down as seen or not. -/
inductive PollEnd
  | finished
  | cutOff (after : ℕ) (seen : Bool)
  deriving DecidableEq

/-- ``lastUpdateId`` is stored; ``handled`` are the commands that were run to their end, and ``dropped`` those taken
down as seen that were cut off. -/
structure PollState where
  lastUpdateId : Option ℕ := none
  handled : List Update := []
  dropped : List Update := []

def pollLimit : ℕ := 20

def PollState.nextUpdateOffset (s : PollState) : Option ℕ := s.lastUpdateId.map (· + 1)

def handleUpdate (settings : TelegramSettings) (s : PollState) (update : Update) : PollState :=
  let seen := { s with lastUpdateId := some update.updateId }
  if update.isCommand settings then { seen with handled := s.handled ++ [update] } else seen

-- The poll is cut off after the update was taken down as seen.
def dropUpdate (settings : TelegramSettings) (s : PollState) (update : Update) : PollState :=
  let seen := { s with lastUpdateId := some update.updateId }
  if update.isCommand settings then { seen with dropped := s.dropped ++ [update] } else seen

def pollOnce (settings : TelegramSettings) (s : PollState) (updates : List Update) : PollEnd → PollState
  | .finished => updates.foldl (handleUpdate settings) s
  | .cutOff after seen =>
    let before := (updates.take after).foldl (handleUpdate settings) s
    match updates[after]?, seen with
    | some update, true => dropUpdate settings before update
    | _, _ => before

inductive PollEvent
  | arrives (update : Update)
  | expires (update : Update)
  | unanswered
  | polls (updates : List Update) (ending : PollEnd)

structure PollWorld where
  bot : PollState := {}
  arrived : List Update := []
  expired : List Update := []

def PollWorld.waiting (w : PollWorld) : List Update :=
  (w.arrived.filter (· ∉ w.expired)).filter fun update => w.bot.nextUpdateOffset.all (· ≤ update.updateId)

def pollStep (settings : TelegramSettings) (w : PollWorld) : PollEvent → PollWorld
  | .arrives update => { w with arrived := w.arrived ++ [update] }
  | .expires update => { w with expired := w.expired ++ [update] }
  | .unanswered => w
  | .polls updates ending => { w with bot := pollOnce settings w.bot updates ending }

/-- What Telegram documents of ``getUpdates``: the ids rise, and the answer is the first updates from the offset on
that it still keeps, at most the limit. -/
def Documented (w : PollWorld) : PollEvent → Prop
  | .arrives update => ∀ earlier ∈ w.arrived, earlier.updateId < update.updateId
  | .polls updates _ => updates = w.waiting.take pollLimit
  | _ => True

instance (w : PollWorld) : ∀ event, Decidable (Documented w event)
  | .arrives update => inferInstanceAs (Decidable (∀ earlier ∈ w.arrived, earlier.updateId < update.updateId))
  | .polls updates _ => inferInstanceAs (Decidable (updates = w.waiting.take pollLimit))
  | .expires _ | .unanswered => isTrue trivial

abbrev pollRun (settings : TelegramSettings) (w : PollWorld) (events : List PollEvent) : PollWorld :=
  Runs.run (pollStep settings) w events

abbrev AsDocumented (settings : TelegramSettings) (w : PollWorld) (events : List PollEvent) : Prop :=
  Runs.Allowed (pollStep settings) Documented w events

def PollEvent.arrival? : PollEvent → Option Update
  | .arrives update => some update
  | _ => none

def arrivals (events : List PollEvent) : List Update := events.filterMap PollEvent.arrival?

def PollEvent.isCut : PollEvent → Bool
  | .polls _ (.cutOff _ true) => true
  | _ => false

def cuts (events : List PollEvent) : ℕ := events.countP PollEvent.isCut

def finishedPolls (answers : List (List Update)) : List PollEvent := answers.map fun updates => .polls updates .finished

section Poll

variable {settings : TelegramSettings} {s s' : PollState} {batch ran lost : List Update}

structure Polled (settings : TelegramSettings) (s : PollState) (batch ran lost : List Update) (s' : PollState) :
    Prop where
  last : s'.lastUpdateId = (batch.getLast?.map Update.updateId).or s.lastUpdateId
  handled : s'.handled = s.handled ++ ran
  dropped : s'.dropped = s.dropped ++ lost
  order : ran.Sublist (batch.filter (·.isCommand settings))
  all : (ran ++ lost).Perm (batch.filter (·.isCommand settings))

lemma filter_concat (p : Update → Bool) (l : List Update) (update : Update) :
    (l ++ [update]).filter p = l.filter p ++ if p update then [update] else [] := by
  rw [List.filter_append, List.filter_singleton]
  cases p update <;> rfl

lemma polled_foldl (settings : TelegramSettings) (s : PollState) (batch : List Update) :
    Polled settings s batch (batch.filter (·.isCommand settings)) [] (batch.foldl (handleUpdate settings) s) := by
  refine ⟨?_, ?_, ?_, List.Sublist.refl _, by rw [List.append_nil]⟩
  · induction batch using List.reverseRecOn with
    | nil => rfl
    | append_singleton earlier update ih =>
      rw [List.foldl_concat, List.getLast?_concat, handleUpdate]
      dsimp only
      split_ifs <;> rfl
  · induction batch using List.reverseRecOn with
    | nil => exact (List.append_nil _).symm
    | append_singleton earlier update ih =>
      rw [List.foldl_concat, filter_concat, handleUpdate]
      dsimp only
      split_ifs
      · rw [← List.append_assoc, ← ih]
      · rw [List.append_nil, ← ih]
  · induction batch using List.reverseRecOn with
    | nil => exact (List.append_nil _).symm
    | append_singleton earlier update ih =>
      rw [List.foldl_concat, ← ih, handleUpdate]
      dsimp only
      split_ifs <;> rfl

lemma Polled.drop (h : Polled settings s batch ran [] s') (update : Update) :
    Polled settings s (batch ++ [update]) ran (if update.isCommand settings then [update] else [])
      (dropUpdate settings s' update) := by
  have hran := h.all
  rw [List.append_nil] at hran
  rw [dropUpdate]
  dsimp only
  split_ifs with hcommand
  · refine ⟨by rw [List.getLast?_concat]; rfl, h.handled, by rw [h.dropped, List.append_nil], ?_, ?_⟩
    · rw [filter_concat]
      exact h.order.trans (List.sublist_append_left _ _)
    · rw [filter_concat, if_pos hcommand]
      exact hran.append_right _
  · refine ⟨by rw [List.getLast?_concat]; rfl, h.handled, h.dropped, ?_, ?_⟩
    · rw [filter_concat]
      exact h.order.trans (List.sublist_append_left _ _)
    · rw [filter_concat, if_neg hcommand]
      exact hran.append_right _

lemma polled_pollOnce (settings : TelegramSettings) (s : PollState) (updates : List Update) (ending : PollEnd) :
    ∃ batch left ran lost, updates = batch ++ left ∧
      Polled settings s batch ran lost (pollOnce settings s updates ending) ∧
        lost.length ≤ cuts [.polls updates ending] := by
  cases ending with
  | finished => exact ⟨updates, [], _, [], (List.append_nil _).symm, polled_foldl settings s updates, le_rfl⟩
  | cutOff after seen =>
    have hbefore := polled_foldl settings s (updates.take after)
    have hsplit := (List.take_append_drop after updates).symm
    unfold pollOnce
    dsimp only
    split
    · rename_i update hupdate
      rw [List.drop_eq_getElem_cons (List.getElem?_eq_some_iff.mp hupdate).1,
        (List.getElem?_eq_some_iff.mp hupdate).2, List.append_cons] at hsplit
      refine ⟨_, _, _, _, hsplit, hbefore.drop update, ?_⟩
      split_ifs
      · exact le_rfl
      · exact Nat.zero_le _
    · exact ⟨_, _, _, [], hsplit, hbefore, Nat.zero_le _⟩

end Poll

section Run

variable {settings : TelegramSettings} {w : PollWorld} {read batch left : List Update} {events : List PollEvent}

/-- The updates that were taken, in the order of their arrival; one that was not waits or has expired. -/
structure Taken (settings : TelegramSettings) (w : PollWorld) (read : List Update) : Prop where
  ids : w.arrived.Pairwise (·.updateId < ·.updateId)
  rising : read.Pairwise (·.updateId < ·.updateId)
  arrived : read ⊆ w.arrived
  last : w.bot.lastUpdateId = read.getLast?.map Update.updateId
  noneSkipped : ∀ update ∈ w.arrived, update ∈ read ∨ update ∈ w.waiting ∨ update ∈ w.expired
  order : w.bot.handled.Sublist (read.filter (·.isCommand settings))
  all : (w.bot.handled ++ w.bot.dropped).Perm (read.filter (·.isCommand settings))

lemma taken_start (settings : TelegramSettings) : Taken settings {} [] :=
  ⟨List.Pairwise.nil, List.Pairwise.nil, List.nil_subset _, rfl, fun _ h => absurd h List.not_mem_nil,
    List.Sublist.refl _, List.Perm.refl _⟩

lemma PollWorld.waiting_eq (w : PollWorld) : w.waiting =
    (w.arrived.filter (· ∉ w.expired)).filter fun update => w.bot.lastUpdateId.all (· < update.updateId) := by
  refine List.filter_congr fun update _ => ?_
  rw [PollState.nextUpdateOffset]
  cases w.bot.lastUpdateId <;> rfl

lemma Taken.lt_waiting (h : Taken settings w read) {earlier later : Update} (hread : earlier ∈ read)
    (hwaits : later ∈ w.waiting) : earlier.updateId < later.updateId := by
  obtain ⟨last, hlast, hle⟩ := Cursor.le_last h.rising hread
  rw [PollWorld.waiting_eq, h.last, hlast] at hwaits
  exact hle.trans_lt (of_decide_eq_true (List.mem_filter.mp hwaits).2)

lemma Taken.arrive (h : Taken settings w read) (update : Update)
    (hlater : ∀ earlier ∈ w.arrived, earlier.updateId < update.updateId) :
    Taken settings { w with arrived := w.arrived ++ [update] } read := by
  refine ⟨?_, h.rising, fun _ hread => List.mem_append_left _ (h.arrived hread), h.last, fun other hother => ?_,
    h.order, h.all⟩
  · exact List.pairwise_append.mpr ⟨h.ids, List.pairwise_singleton _ _,
      fun earlier hearlier _ hsame => List.mem_singleton.mp hsame ▸ hlater earlier hearlier⟩
  · have hwaits {other : Update} (h : other ∈ w.waiting) :
        other ∈ ({ w with arrived := w.arrived ++ [update] } : PollWorld).waiting := by
      obtain ⟨hkept, hoffset⟩ := List.mem_filter.mp h
      obtain ⟨harrived, hexpired⟩ := List.mem_filter.mp hkept
      exact List.mem_filter.mpr ⟨List.mem_filter.mpr ⟨List.mem_append_left _ harrived, hexpired⟩, hoffset⟩
    rcases List.mem_append.mp hother with hold | hnew
    · exact (h.noneSkipped other hold).imp_right (Or.imp_left hwaits)
    · obtain rfl := List.mem_singleton.mp hnew
      by_cases hexpired : other ∈ w.expired
      · exact .inr (.inr hexpired)
      · refine .inr (.inl ?_)
        rw [PollWorld.waiting_eq]
        refine List.mem_filter.mpr ⟨List.mem_filter.mpr ⟨hother, decide_eq_true hexpired⟩, ?_⟩
        dsimp only
        rw [h.last]
        cases hlast : read.getLast? with
        | none => rfl
        | some last => exact decide_eq_true (hlater last (h.arrived (List.mem_of_getLast? hlast)))

lemma Taken.expire (h : Taken settings w read) (update : Update) :
    Taken settings { w with expired := w.expired ++ [update] } read := by
  refine ⟨h.ids, h.rising, h.arrived, h.last, fun other hother => ?_, h.order, h.all⟩
  rcases h.noneSkipped other hother with hread | hwaits | hexpired
  · exact .inl hread
  · by_cases hnow : other ∈ w.expired ++ [update]
    · exact .inr (.inr hnow)
    · obtain ⟨hkept, hoffset⟩ := List.mem_filter.mp hwaits
      exact .inr (.inl (List.mem_filter.mpr
        ⟨List.mem_filter.mpr ⟨(List.mem_filter.mp hkept).1, decide_eq_true hnow⟩, hoffset⟩))
  · exact .inr (.inr (List.mem_append_left _ hexpired))

lemma Polled.waiting {s' : PollState} {ran lost : List Update} (hids : w.arrived.Pairwise (·.updateId < ·.updateId))
    (hpolled : Polled settings w.bot batch ran lost s') (hsplit : w.waiting = batch ++ left) :
    ({ w with bot := s' } : PollWorld).waiting = left := by
  rw [PollWorld.waiting_eq] at hsplit ⊢
  dsimp only
  rw [hpolled.last]
  exact Cursor.unread_advance (hids.filter _) hsplit

lemma Taken.poll {s' : PollState} {ran lost : List Update} (h : Taken settings w read)
    (hpolled : Polled settings w.bot batch ran lost s') (hsplit : w.waiting = batch ++ left) :
    Taken settings { w with bot := s' } (read ++ batch) := by
  have hwaits {update : Update} (hupdate : update ∈ batch) : update ∈ w.waiting :=
    hsplit ▸ List.mem_append_left _ hupdate
  have hbatch : batch.Pairwise (·.updateId < ·.updateId) := by
    have hwaiting : w.waiting.Pairwise (·.updateId < ·.updateId) := (h.ids.filter _).filter _
    rw [hsplit] at hwaiting
    exact (List.pairwise_append.mp hwaiting).1
  refine ⟨h.ids, ?_, ?_, ?_, fun update hupdate => ?_, ?_, ?_⟩
  · exact List.pairwise_append.mpr ⟨h.rising, hbatch, fun _ hread _ hnew => h.lt_waiting hread (hwaits hnew)⟩
  · intro update hupdate
    rcases List.mem_append.mp hupdate with hread | hnew
    · exact h.arrived hread
    · exact (List.mem_filter.mp (List.mem_filter.mp (hwaits hnew)).1).1
  · rw [hpolled.last, h.last, List.getLast?_append]
    cases batch.getLast? <;> rfl
  · rcases h.noneSkipped update hupdate with hread | hwaiting | hexpired
    · exact .inl (List.mem_append_left _ hread)
    · rw [hpolled.waiting h.ids hsplit]
      rw [hsplit] at hwaiting
      rcases List.mem_append.mp hwaiting with hnew | hleft
      · exact .inl (List.mem_append_right _ hnew)
      · exact .inr (.inl hleft)
    · exact .inr (.inr hexpired)
  · rw [hpolled.handled, List.filter_append]
    exact h.order.append hpolled.order
  · rw [hpolled.handled, hpolled.dropped, List.filter_append]
    refine List.Perm.trans ?_ (h.all.append hpolled.all)
    rw [List.append_assoc, List.append_assoc, ← List.append_assoc ran, ← List.append_assoc w.bot.dropped]
    exact List.Perm.append_left _ (List.perm_append_comm.append_right _)

lemma taken_step {event : PollEvent} (h : ∃ read, Taken settings w read) (hdocumented : Documented w event) :
    ∃ read, Taken settings (pollStep settings w event) read := by
  obtain ⟨read, htaken⟩ := h
  cases event with
  | arrives update => exact ⟨read, htaken.arrive update hdocumented⟩
  | expires update => exact ⟨read, htaken.expire update⟩
  | unanswered => exact ⟨read, htaken⟩
  | polls updates ending =>
    obtain ⟨batch, left, ran, lost, hupdates, hpolled, -⟩ := polled_pollOnce settings w.bot updates ending
    have hwaiting : w.waiting = batch ++ (left ++ w.waiting.drop pollLimit) := by
      rw [← List.append_assoc, ← hupdates, show updates = w.waiting.take pollLimit from hdocumented,
        List.take_append_drop]
    exact ⟨read ++ batch, htaken.poll hpolled hwaiting⟩

lemma taken_run (hdocumented : AsDocumented settings {} events) :
    ∃ read, Taken settings (pollRun settings {} events) read :=
  Runs.invariant (fun _ _ => taken_step) ⟨[], taken_start settings⟩ hdocumented

lemma pollRun_kept (settings : TelegramSettings) (events : List PollEvent) (w : PollWorld) :
    (pollRun settings w events).arrived = w.arrived ++ arrivals events ∧
      (pollRun settings w events).bot.dropped.length ≤ w.bot.dropped.length + cuts events := by
  induction events generalizing w with
  | nil => exact ⟨(List.append_nil _).symm, le_rfl⟩
  | cons event rest ih =>
    obtain ⟨harrived, hdropped⟩ := ih (pollStep settings w event)
    have hcuts : cuts (event :: rest) = cuts [event] + cuts rest := @List.countP_append _ _ [event] rest
    have hone : (pollStep settings w event).bot.dropped.length ≤ w.bot.dropped.length + cuts [event] := by
      cases event with
      | polls updates ending =>
        obtain ⟨_, _, _, _, _, hpolled, hlost⟩ := polled_pollOnce settings w.bot updates ending
        change (pollOnce settings w.bot updates ending).dropped.length ≤ _
        rw [hpolled.dropped, List.length_append]
        exact Nat.add_le_add_left hlost _
      | _ => exact Nat.le_add_right _ _
    refine ⟨harrived.trans ?_, hdropped.trans (by rw [hcuts]; omega)⟩
    cases event with
    | arrives update => exact List.append_assoc _ _ _
    | _ => rfl

lemma Taken.catchUp (h : Taken settings w read) {answers : List (List Update)}
    (hdocumented : AsDocumented settings w (finishedPolls answers))
    (hfew : w.waiting.length ≤ pollLimit * answers.length) :
    (pollRun settings w (finishedPolls answers)).bot.handled =
      w.bot.handled ++ w.waiting.filter (·.isCommand settings) := by
  induction answers generalizing w read with
  | nil =>
    rw [List.eq_nil_of_length_eq_zero (Nat.le_zero.mp hfew)]
    exact (List.append_nil _).symm
  | cons updates answers ih =>
    obtain ⟨hupdates, hrest⟩ := hdocumented
    have hpolled := polled_foldl settings w.bot updates
    have hsplit : w.waiting = updates ++ w.waiting.drop pollLimit := by
      rw [show updates = w.waiting.take pollLimit from hupdates, List.take_append_drop]
    have hleft := hpolled.waiting h.ids hsplit
    have hshorter : (pollStep settings w (.polls updates .finished)).waiting.length ≤ pollLimit * answers.length := by
      refine (congrArg List.length hleft).le.trans ?_
      rw [List.length_drop, Nat.sub_le_iff_le_add]
      exact hfew
    refine (ih (h.poll hpolled hsplit) hrest hshorter).trans ?_
    rw [hleft]
    dsimp only
    rw [hpolled.handled, List.append_assoc, ← List.filter_append, ← hsplit]

/-- Whatever arrives and expires, and whichever polls are not answered or are cut off, the bot takes the updates in
order and none twice, and skips none that Telegram still keeps. Of the commands it has taken each was run to its end
once, in order, except for one at most for each cut. As many polls as the waiting updates fill take them. -/
theorem pollRun_taken (settings : TelegramSettings) (events : List PollEvent)
    (hdocumented : AsDocumented settings {} events) :
    ∃ read : List Update, read.Sublist (arrivals events) ∧
      (pollRun settings {} events).bot.lastUpdateId = read.getLast?.map Update.updateId ∧
      (∀ update ∈ arrivals events, update ∈ read ∨ update ∈ (pollRun settings {} events).waiting ∨
        update ∈ (pollRun settings {} events).expired) ∧
      (∀ earlier ∈ read, ∀ later ∈ (pollRun settings {} events).waiting, earlier.updateId < later.updateId) ∧
      (pollRun settings {} events).bot.handled.Sublist (read.filter (·.isCommand settings)) ∧
      ((pollRun settings {} events).bot.handled ++ (pollRun settings {} events).bot.dropped).Perm
        (read.filter (·.isCommand settings)) ∧
      (pollRun settings {} events).bot.dropped.length ≤ cuts events ∧
      ∀ answers, AsDocumented settings (pollRun settings {} events) (finishedPolls answers) →
        (pollRun settings {} events).waiting.length ≤ pollLimit * answers.length →
          (pollRun settings (pollRun settings {} events) (finishedPolls answers)).bot.handled =
            (pollRun settings {} events).bot.handled ++
              (pollRun settings {} events).waiting.filter (·.isCommand settings) := by
  obtain ⟨read, htaken⟩ := taken_run hdocumented
  obtain ⟨harrived, hdropped⟩ := pollRun_kept settings events {}
  rw [List.nil_append] at harrived
  rw [List.length_nil, Nat.zero_add] at hdropped
  refine ⟨read, ?_, htaken.last, ?_, fun earlier hread later hwaits => htaken.lt_waiting hread hwaits, htaken.order,
    htaken.all, hdropped, fun answers hanswers hfew => htaken.catchUp hanswers hfew⟩
  · rw [← harrived]
    exact Cursor.sublist_of_subset htaken.rising htaken.ids htaken.arrived
  · rw [← harrived]
    exact htaken.noneSkipped

/-- One command is cut off, one expires unseen, and one more waits behind a message that is none. -/
def cutOffOnce : List PollEvent :=
  [.arrives ⟨7, "/status", "42"⟩, .arrives ⟨8, "/scan", "42"⟩, .unanswered,
    .polls [⟨7, "/status", "42"⟩, ⟨8, "/scan", "42"⟩] (.cutOff 1 true), .arrives ⟨9, "/positions", "42"⟩,
    .expires ⟨9, "/positions", "42"⟩, .arrives ⟨10, " ", "42"⟩, .arrives ⟨11, "/queue", "42"⟩]

def oneChat : TelegramSettings := { telegramChatId := "42" }

theorem pollRun_taken_cutOffOnce :
    ∃ read : List Update, read.Sublist (arrivals cutOffOnce) ∧ some 8 = read.getLast?.map Update.updateId ∧
      (∀ update ∈ arrivals cutOffOnce, update ∈ read ∨ update ∈ [⟨10, " ", "42"⟩, ⟨11, "/queue", "42"⟩] ∨
        update ∈ [⟨9, "/positions", "42"⟩]) ∧
      (∀ earlier ∈ read, ∀ later ∈ [(⟨10, " ", "42"⟩ : Update), ⟨11, "/queue", "42"⟩],
        earlier.updateId < later.updateId) ∧
      List.Sublist [⟨7, "/status", "42"⟩] (read.filter (·.isCommand oneChat)) ∧
      List.Perm [⟨7, "/status", "42"⟩, ⟨8, "/scan", "42"⟩] (read.filter (·.isCommand oneChat)) ∧
      [(⟨8, "/scan", "42"⟩ : Update)].length ≤ cuts cutOffOnce ∧
      ∀ answers, AsDocumented oneChat (pollRun oneChat {} cutOffOnce) (finishedPolls answers) →
        2 ≤ pollLimit * answers.length →
          (pollRun oneChat (pollRun oneChat {} cutOffOnce) (finishedPolls answers)).bot.handled =
            [⟨7, "/status", "42"⟩, ⟨11, "/queue", "42"⟩] :=
  pollRun_taken oneChat cutOffOnce (by decide +kernel)

end Run

end AlgoTrader.Notifications
