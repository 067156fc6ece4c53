import VariantOne.Core.Dynamic

/-!
# Triggers

`is_due` says whether a saved task should run now: it looks at the trigger, at the
time of the last run and at the policy for occurrences that were missed.  A time of
day is read off the local clock, so the clock and the cron library are parameters
(`Calendar`); the rest is arithmetic on days and seconds.

`isDue` is the conjunction of its checks in their order: enabled, not running, the kind of the trigger.  A
daily or weekly occurrence is the latest one that the local clock has passed (`latestDaily`,
`latestWeekday`), and a cron expression is answered by the library for the minute that is asked about.
-/

namespace VariantOne
namespace Automation

/-- A naive `datetime`: the day, counted from a Monday, and the second of the day. -/
structure LocalTime where
  day : Int
  second : ℚ
  deriving DecidableEq, Repr

namespace LocalTime

/-- `weekday()`: Monday is 0. -/
def weekday (t : LocalTime) : Nat := (t.day % 7).toNat

/-- `replace(hour=hh, minute=mm, second=0, microsecond=0)` -/
def replace (t : LocalTime) (hh mm : Int) : LocalTime := ⟨t.day, hh * 3600 + mm * 60⟩

/-- `t - timedelta(days=n)` -/
def minusDays (t : LocalTime) (n : Int) : LocalTime := ⟨t.day - n, t.second⟩

/-- `t <= u` -/
def le (t u : LocalTime) : Bool := t.day < u.day || t.day == u.day && t.second ≤ u.second

end LocalTime

/-- The local clock and the cron library. -/
structure Calendar where
  /-- `datetime.fromtimestamp(now)`, unless it raises. -/
  fromTimestamp : ℚ → Option LocalTime
  /-- `datetime.timestamp()` -/
  timestamp : LocalTime → ℚ
  /-- `croniter(expr, now).get_prev(datetime)`, unless it raises, if the library is
  installed. -/
  croniter : Option (String → LocalTime → Option LocalTime)

/-- What the clock and the interpreter compute. -/
structure Runtime where
  python : Interpreter
  calendar : Calendar

/-- `_DAYS` -/
def days : List String := ["mon", "tue", "wed", "thu", "fri", "sat", "sun"]

/-- `MISFIRE_POLICIES` -/
def misfirePolicies : List String := ["latest", "skip"]

/-- `str(entries.get(key, default))` -/
def Runtime.textOr (R : Runtime) (entries : List (String × Json)) (key default : String) : String :=
  R.python.text ((Dict.get? entries key).getD (.str default)).toPy

/-- `_parse_hhmm` -/
def parseHhmm (R : Runtime) (s : String) : Int × Int :=
  match (s.toList.splitOn ':').map String.ofList with
  | [hh, mm] =>
      match R.python.toInt (.str hh), R.python.toInt (.str mm) with
      | some h, some m => (max 0 (min 23 h), max 0 (min 59 m))
      | _, _ => (9, 0)
  | _ => (9, 0)

/-- `_latest_daily` -/
def latestDaily (now : LocalTime) (hh mm : Int) : LocalTime :=
  let occurrence := now.replace hh mm
  if occurrence.le now then occurrence else occurrence.minusDays 1

/-- The loop of `_latest_weekday`. -/
def backToWeekday (occurrence : LocalTime) : LocalTime :=
  if _h : 5 ≤ occurrence.weekday then backToWeekday (occurrence.minusDays 1) else occurrence
termination_by occurrence.weekday
decreasing_by
  simp only [LocalTime.weekday, LocalTime.minusDays] at *
  omega

/-- `_latest_weekday` -/
def latestWeekday (now : LocalTime) (hh mm : Int) : LocalTime :=
  backToWeekday (latestDaily now hh mm)

/-- A point in time the clock cannot show. -/
def outOfRange : Raised := ⟨.valueError, "timestamp out of range for platform time_t"⟩

/-- `datetime.fromtimestamp(now)` -/
def Calendar.now (C : Calendar) (now : ℚ) : Except Raised LocalTime :=
  match C.fromTimestamp now with
  | some t => .ok t
  | none => .error outOfRange

/-- `_cron_due`; everything after the first line is under `except Exception`. -/
def cronDue (R : Runtime) (expr : Option Json) (last now : ℚ) (catchUp : Bool) :
    Except Raised Bool :=
  match R.calendar.croniter, (orElse (expr.map Json.toPy) (.str "")).str? with
  | none, _ => .ok false
  | some _, none => .error ⟨.typeError, "object has no attribute 'strip'"⟩
  | some previous, some expr =>
      if strip expr = "" then .ok false
      else match R.calendar.fromTimestamp now with
        | none => .ok false
        | some local_ =>
            match previous expr local_ with
            | none => .ok false
            | some prev =>
                if catchUp = false ∧ 60 < now - R.calendar.timestamp prev then .ok false
                else .ok (decide (last < R.calendar.timestamp prev))

/-- What `is_due` reads of a task. -/
structure Schedule where
  enabled : Bool
  trigger : Json
  misfirePolicy : String
  lastRun : ℚ
  deriving Repr

/-- `_misfire_policy` -/
def Schedule.policy (R : Runtime) (s : Schedule) : String :=
  let value := R.python.lower (strip (if s.misfirePolicy = "" then "latest" else s.misfirePolicy))
  if value ∈ misfirePolicies then value else "latest"

/-- `task.get("trigger", {}) or {}`, which the code then asks for its keys. -/
def Schedule.triggerEntries (s : Schedule) : Except Raised (List (String × Json)) :=
  match s.trigger with
  | .obj entries => .ok entries
  | v => if v.toPy.truthy then .error ⟨.typeError, "object has no attribute 'get'"⟩ else .ok []

/-- A time of day that has come and that the last run does not cover. -/
def reached (R : Runtime) (target now : LocalTime) (last : ℚ) : Bool :=
  target.le now && decide (last < R.calendar.timestamp target)

/-- `is_due` -/
def isDue (R : Runtime) (s : Schedule) (now : ℚ) : Except Raised Bool := do
  if s.enabled = false then return false
  let tr ← s.triggerEntries
  let kind := (Dict.get? tr "type").bind fun v => v.toPy.str?
  let catchUp := s.policy R == "latest"
  if kind = some "interval" then
    match R.python.toInt ((Dict.get? tr "seconds").getD (.int 3600)).toPy with
    | none => throw ⟨.valueError, "invalid literal for int()"⟩
    | some seconds => return decide ((max 60 seconds : Int) ≤ now - s.lastRun)
  if kind = some "cron" then
    return ← cronDue R (some ((Dict.get? tr "expr").getD (.str ""))) s.lastRun now catchUp
  let local_ ← R.calendar.now now
  if kind = some "daily" then
    let (hh, mm) := parseHhmm R (R.textOr tr "time" "09:00")
    return reached R (if catchUp then latestDaily local_ hh mm else local_.replace hh mm) local_
      s.lastRun
  if kind = some "weekdays" then
    let (hh, mm) := parseHhmm R (R.textOr tr "time" "09:00")
    if catchUp then return reached R (latestWeekday local_ hh mm) local_ s.lastRun
    if 5 ≤ local_.weekday then return false
    return reached R (local_.replace hh mm) local_ s.lastRun
  if kind = some "weekly" then
    let day := clip (R.python.lower (R.textOr tr "day" "mon")) 3
    if day ∉ days then return false
    let (hh, mm) := parseHhmm R (R.textOr tr "time" "09:00")
    let index := days.idxOf day
    let daysSince := ((local_.weekday : Int) - index) % 7
    let occ := (local_.minusDays daysSince).replace hh mm
    let occ := if occ.le local_ then occ else occ.minusDays 7
    -- `occ > now` is `¬ occ <= now`.
    if s.policy R = "skip" ∧ (local_.weekday ≠ index ∨ occ.day ≠ local_.day) then return false
    return reached R occ local_ s.lastRun
  return false

end Automation
end VariantOne
