import Syndication.Time.Calendar

namespace Syndication

/-- The nanoseconds in a second. -/
abbrev nanosPerSecond : Nat := 1000000000

/-- A length of time in seconds, if it is one: its milliseconds have to fit into 64 bits. -/
def lapse? (seconds : Int) : Option Int :=
  if -9223372036854775 ≤ seconds ∧ seconds ≤ 9223372036854775 then some seconds else none

/-- The counts that a timestamp may have. -/
def InCalendar (seconds : Int) (nanos : Nat) : Prop :=
  -8334601228800 ≤ seconds ∧ seconds ≤ 8210266876799 ∧
    (nanos < nanosPerSecond ∨ (nanos < 2 * nanosPerSecond ∧ seconds % 60 = 59))

instance (seconds : Int) (nanos : Nat) : Decidable (InCalendar seconds nanos) := by
  unfold InCalendar; infer_instance

/-- A count of seconds since 1970 in universal time and a count of nanoseconds on top of it. During
a leap second, which always follows the 59th second of a minute, the count of seconds stands still
and the nanoseconds run on beyond one thousand million. -/
structure Timestamp where
  seconds : Int
  nanos : Nat
  inCalendar : InCalendar seconds nanos
deriving DecidableEq, Repr

instance : Inhabited Timestamp := ⟨⟨0, 0, by decide⟩⟩

namespace Timestamp

def of? (seconds : Int) (nanos : Nat) : Option Timestamp :=
  if h : InCalendar seconds nanos then some ⟨seconds, nanos, h⟩ else none

/-- Whether the time lies within a leap second. -/
def inLeapSecond (t : Timestamp) : Bool := nanosPerSecond ≤ t.nanos

/-- Earlier times first; a leap second lies between its minute and the next. -/
def before (t u : Timestamp) : Bool :=
  t.seconds < u.seconds || (t.seconds == u.seconds && t.nanos < u.nanos)

def after (t u : Timestamp) : Bool := u.before t

/-- The time so many seconds later, or earlier for a negative number. Leaving a leap second
forward counts it as the second before it; leaving it backward counts it as one of its own. -/
def plusSeconds? (t : Timestamp) (n : Int) : Option Timestamp :=
  if t.inLeapSecond then
    if 0 < n then of? (t.seconds + n) (t.nanos - nanosPerSecond)
    else if n < 0 then of? (t.seconds + 1 + n) (t.nanos - nanosPerSecond)
    else some t
  else of? (t.seconds + n) t.nanos

def plusMinutes? (t : Timestamp) (n : Int) : Option Timestamp := t.plusSeconds? (60 * n)

def secondOfDay (t : Timestamp) : Int := t.seconds % 86400

/-- Nanoseconds from `u` to `t`. A leap second at the earlier time of day is counted. -/
def nanosSince (t u : Timestamp) : Int :=
  let leap : Int :=
    if t.secondOfDay > u.secondOfDay ∧ u.inLeapSecond then 1
    else if t.secondOfDay < u.secondOfDay ∧ t.inLeapSecond then -1
    else 0
  (t.seconds - u.seconds + leap) * nanosPerSecond + ((t.nanos : Int) - u.nanos)

/-- Whole seconds from `u` to `t`, rounded toward zero. -/
def secondsSince (t u : Timestamp) : Int := (t.nanosSince u).tdiv nanosPerSecond

theorem of?_eq_some_iff {seconds : Int} {nanos : Nat} {t : Timestamp} :
    of? seconds nanos = some t ↔ t.seconds = seconds ∧ t.nanos = nanos := by
  obtain ⟨s, n, h⟩ := t
  simp only [of?]
  split <;> simp_all <;> grind

theorem before_irrefl (t : Timestamp) : t.before t = false := by
  simp [before]

theorem before_trans {t u v : Timestamp} (h : t.before u = true) (k : u.before v = true) :
    t.before v = true := by
  simp only [before, Bool.or_eq_true, Bool.and_eq_true, decide_eq_true_eq, beq_iff_eq] at *
  omega

/-- Outside leap seconds a later time is later by what was added. -/
theorem seconds_of_plusSeconds? {t u : Timestamp} {n : Int} (h : t.inLeapSecond = false)
    (k : t.plusSeconds? n = some u) : u.seconds = t.seconds + n ∧ u.nanos = t.nanos := by
  simpa [plusSeconds?, h, of?_eq_some_iff] using k

end Timestamp

end Syndication
