import Mathlib.Data.Int.Order.Basic

/-! Instants are UTC microseconds since 1970-01-01; calendar dates are day numbers since
that day. -/

namespace AlgoTrader.Utils.Time

abbrev Timestamp := ℤ

/-- A text and the instant it reads as. A database orders stamps by their text. -/
structure IsoText where
  text : String
  time : Option Timestamp
deriving DecidableEq

def microsPerMinute : ℤ := 60 * 1000000
def microsPerDay : ℤ := 24 * 60 * microsPerMinute

def utcDate (t : Timestamp) : ℤ := t / microsPerDay

def midnight (date : ℤ) : Timestamp := date * microsPerDay

-- Monday is 0, as in ``datetime.weekday``; day number 0 was a Thursday.
def weekday (date : ℤ) : ℤ := (date + 3) % 7

lemma utcDate_mono {earlier later : Timestamp} (h : earlier ≤ later) :
    utcDate earlier ≤ utcDate later :=
  Int.ediv_le_ediv (by decide) h

lemma le_add_wait (t : Timestamp) (wait : ℕ) : t ≤ t + wait :=
  Int.le_add_of_nonneg_right (Int.natCast_nonneg wait)

/-- The time zone database gives the wall clock of America/New_York. Only the local date,
which never runs backwards, and the local time of day are read. -/
structure NewYorkClock where
  date : Timestamp → ℤ
  minuteOfDay : Timestamp → ℕ
  date_mono {earlier later : Timestamp} : earlier ≤ later → date earlier ≤ date later

-- New York in winter, five hours behind UTC all year round.
def easternStandard : NewYorkClock where
  date t := utcDate (t - 5 * 60 * microsPerMinute)
  minuteOfDay t := ((t - 5 * 60 * microsPerMinute) % microsPerDay / microsPerMinute).toNat
  date_mono h := utcDate_mono (Int.sub_le_sub_right h _)

end AlgoTrader.Utils.Time
