import Mathlib.Data.List.Chain
import Mathlib.Data.Rat.Floor
import Mathlib.Tactic.Linarith
import VariantOne.Automation.Store

/-!
# Occurrences of a schedule

A daily, weekday or weekly trigger names a time of day on some days: each such time is an
*occurrence*.  `is_due` looks for the last one, or with the policy `skip` for that of today
(`target`, `isDue_rule`), and compares it with the local time and its time stamp with the last run.  A cron
expression has its last run, an interval no occurrence; `isDue_iff` says when a task of any kind is due.

The two comparisons agree where the local clock runs forward (`Calendar.Forward`) and shows the
occurrence (`Calendar.Shows`).  Then a claim takes an occurrence that no claim before it has taken, and
with the policy `latest` a poll takes one as soon as there is one: `schedules_fire_once`, over the runs of
a task that is polled (`Fired` lists the occurrences beside the claims).

A clock that is put forward leaves some times of day out.  An occurrence among them has come by the local
time before its time stamp has, and until then every poll finds it: `gap_claimed_twice`.
-/

namespace VariantOne
namespace Automation

/-! ## 1.  Local times -/

namespace LocalTime

/-- A time of day. -/
def OfDay (d : LocalTime) : Prop := 0 ≤ d.second ∧ d.second < 86400

theorem le_iff {s t : LocalTime} : s.le t = true ↔ s.day < t.day ∨ s.day = t.day ∧ s.second ≤ t.second := by
  simp [le]

theorem le_refl (s : LocalTime) : s.le s = true := le_iff.mpr (.inr ⟨rfl, le_rfl⟩)

theorem le_of_not_le {s t : LocalTime} (h : t.le s = false) : s.le t = true := by
  have hnot : ¬ (t.day < s.day ∨ t.day = s.day ∧ t.second ≤ s.second) := fun hle => by
    rw [le_iff.mpr hle] at h
    cases h
  rw [le_iff]
  rcases lt_trichotomy s.day t.day with hlt | heq | hgt
  · exact .inl hlt
  · exact .inr ⟨heq, (not_le.mp fun hle => hnot (.inr ⟨heq.symm, hle⟩)).le⟩
  · exact absurd (.inl hgt) hnot

end LocalTime

/-- The local clock runs forward. -/
def Calendar.Forward (C : Calendar) : Prop :=
  ∀ ⦃a b : ℚ⦄ ⦃s t : LocalTime⦄, C.fromTimestamp a = some s → C.fromTimestamp b = some t → a < b →
    t.le s = false

/-- The clock shows this local time.  It shows none that is left out when the clock is put forward. -/
def Calendar.Shows (C : Calendar) (d : LocalTime) : Prop := C.fromTimestamp (C.timestamp d) = some d

/-- A local time that is shown has come when its timestamp has. -/
theorem Calendar.Forward.le_iff {C : Calendar} (hC : C.Forward) {d now : LocalTime} {t : ℚ} (hd : C.Shows d)
    (hnow : C.fromTimestamp t = some now) : d.le now = true ↔ C.timestamp d ≤ t := by
  constructor
  · intro hle
    by_contra hlt
    rw [hC hnow hd (not_le.mp hlt)] at hle
    cases hle
  · intro hle
    rcases hle.lt_or_eq with hlt | heq
    · exact LocalTime.le_of_not_le (hC hd hnow hlt)
    · rw [← heq, hd] at hnow
      rw [Option.some.inj hnow]
      exact LocalTime.le_refl now

/-- Of two local times that are shown the later one has the later timestamp. -/
theorem Calendar.Forward.timestamp_le {C : Calendar} (hC : C.Forward) {s t : LocalTime} (hs : C.Shows s)
    (ht : C.Shows t) (hle : s.le t = true) : C.timestamp s ≤ C.timestamp t :=
  (hC.le_iff hs ht).mp hle

/-! ## 2.  Occurrences -/

/-- The days of a calendar trigger. -/
inductive CalendarRule where
  | daily
  | weekdays
  | weekly (index : Nat)
  deriving DecidableEq, Repr

/-- A day of the trigger. -/
def CalendarRule.On : CalendarRule → LocalTime → Prop
  | .daily, _ => True
  | .weekdays, d => d.weekday < 5
  | .weekly index, d => d.weekday = index

/-- An occurrence: a day of the trigger at its time of day. -/
def Occurs (rule : CalendarRule) (hh mm : Int) (d : LocalTime) : Prop :=
  d.second = hh * 3600 + mm * 60 ∧ rule.On d

/-- The days a trigger names. -/
def ruleOf (R : Runtime) (tr : List (String × Json)) : Option CalendarRule :=
  let kind := (Dict.get? tr "type").bind fun v => v.toPy.str?
  let day := clip (R.python.lower (R.textOr tr "day" "mon")) 3
  if kind = some "daily" then some .daily
  else if kind = some "weekdays" then some .weekdays
  else if kind = some "weekly" ∧ day ∈ days then some (.weekly (days.idxOf day))
  else none

/-- A calendar trigger with a well-formed time. -/
structure CalendarAt (R : Runtime) (trigger : Json) (rule : CalendarRule) (hh mm : Int) : Prop where
  rule : ∃ tr, trigger = .obj tr ∧ ruleOf R tr = some rule ∧
    ∃ h m, ((R.textOr tr "time" "09:00").toList.splitOn ':').map String.ofList = [h, m] ∧
      R.python.toInt (.str h) = some hh ∧ R.python.toInt (.str m) = some mm
  hour : 0 ≤ hh ∧ hh ≤ 23
  minute : 0 ≤ mm ∧ mm ≤ 59

/-- An interval trigger. -/
def IntervalOf (R : Runtime) (trigger : Json) (seconds : Int) : Prop :=
  ∃ tr, trigger = .obj tr ∧ ((Dict.get? tr "type").bind fun v => v.toPy.str?) = some "interval" ∧
    R.python.toInt ((Dict.get? tr "seconds").getD (.int 3600)).toPy = some seconds

theorem occurs_ofDay {rule : CalendarRule} {hh mm : Int} (hhour : 0 ≤ hh ∧ hh ≤ 23)
    (hminute : 0 ≤ mm ∧ mm ≤ 59) {d : LocalTime} (h : Occurs rule hh mm d) : d.OfDay := by
  have hlow : (0 : ℚ) ≤ ((hh * 3600 + mm * 60 : Int) : ℚ) := by exact_mod_cast (by omega)
  have hhigh : ((hh * 3600 + mm * 60 : Int) : ℚ) < 86400 := by exact_mod_cast (by omega)
  push_cast at hlow hhigh
  unfold LocalTime.OfDay
  rw [h.1]
  exact ⟨hlow, hhigh⟩

/-! ## 3.  The occurrence `is_due` looks at -/

/-- The last time of day on a day of the week. -/
def lastWeekly (index : Nat) (hh mm : Int) (now : LocalTime) : LocalTime :=
  let occ := (now.minusDays (((now.weekday : Int) - index) % 7)).replace hh mm
  if occ.le now then occ else occ.minusDays 7

/-- The time `is_due` compares with the last run. -/
def target (rule : CalendarRule) (catchUp : Bool) (hh mm : Int) (now : LocalTime) : Option LocalTime :=
  match rule with
  | .daily => some (if catchUp then latestDaily now hh mm else now.replace hh mm)
  | .weekdays =>
      if catchUp then some (latestWeekday now hh mm)
      else if 5 ≤ now.weekday then none
      else some (now.replace hh mm)
  | .weekly index =>
      if catchUp = false ∧ (now.weekday ≠ index ∨ (lastWeekly index hh mm now).day ≠ now.day) then none
      else some (lastWeekly index hh mm now)

/-- Going back to a weekday, over no weekday. -/
theorem backToWeekday_spec (d : LocalTime) :
    (backToWeekday d).weekday < 5 ∧ (backToWeekday d).second = d.second ∧
      (backToWeekday d).day ≤ d.day ∧
      ∀ o : LocalTime, o.weekday < 5 → o.day ≤ d.day → o.day ≤ (backToWeekday d).day := by
  unfold backToWeekday
  split
  · rename_i hweekend
    obtain ⟨hweekday, hsecond, hday, hlast⟩ := backToWeekday_spec (d.minusDays 1)
    refine ⟨hweekday, hsecond, hday.trans (by simp [LocalTime.minusDays]), fun o ho hle => ?_⟩
    refine hlast o ho ?_
    rcases hle.lt_or_eq with hlt | heq
    · exact Int.le_sub_one_of_lt hlt
    · have hsame : o.weekday = d.weekday := by simp [LocalTime.weekday, heq]
      omega
  · rename_i hweekday
    exact ⟨not_le.mp hweekday, rfl, Int.le_refl _, fun o _ hle => hle⟩
termination_by d.weekday
decreasing_by
  rename_i hweekend
  simp only [LocalTime.weekday, LocalTime.minusDays] at *
  omega

/-- The last daily time: today's, or yesterday's. -/
theorem latestDaily_spec (now : LocalTime) (hh mm : Int) :
    (latestDaily now hh mm).second = hh * 3600 + mm * 60 ∧ (latestDaily now hh mm).le now = true ∧
      ∀ o : LocalTime, o.second = hh * 3600 + mm * 60 → o.le now = true →
        o.day ≤ (latestDaily now hh mm).day := by
  unfold latestDaily
  dsimp only
  split
  · rename_i hle
    refine ⟨rfl, hle, fun o _ ho => ?_⟩
    rcases LocalTime.le_iff.mp ho with hlt | ⟨heq, _⟩
    · exact hlt.le
    · exact heq.le
  · rename_i hnot
    refine ⟨rfl, LocalTime.le_iff.mpr (.inl (by simp [LocalTime.minusDays, LocalTime.replace])),
      fun o hsecond ho => ?_⟩
    rcases LocalTime.le_iff.mp ho with hlt | ⟨heq, hle⟩
    · exact Int.le_sub_one_of_lt hlt
    · have hreached : (now.replace hh mm).le now = true := by
        rw [hsecond] at hle
        exact LocalTime.le_iff.mpr (.inr ⟨rfl, hle⟩)
      exact absurd hreached hnot

/-- The last day of the week with this number that is not after today. -/
theorem lastWeekday_spec (now o : LocalTime) {index : Nat} (ho : o.weekday = index) (hle : o.day ≤ now.day) :
    o.day ≤ now.day - ((now.weekday : Int) - index) % 7 := by
  simp only [LocalTime.weekday] at *
  omega

theorem lastWeekly_spec {index : Nat} (hindex : index < 7) (hh mm : Int) (now : LocalTime) :
    Occurs (.weekly index) hh mm (lastWeekly index hh mm now) ∧ (lastWeekly index hh mm now).le now = true := by
  unfold lastWeekly
  dsimp only
  split
  · rename_i hle
    refine ⟨⟨rfl, ?_⟩, hle⟩
    simp only [CalendarRule.On, LocalTime.weekday, LocalTime.minusDays, LocalTime.replace]
    omega
  · refine ⟨⟨rfl, ?_⟩, LocalTime.le_iff.mpr (.inl ?_)⟩
    · simp only [CalendarRule.On, LocalTime.weekday, LocalTime.minusDays, LocalTime.replace]
      omega
    · simp only [LocalTime.minusDays, LocalTime.replace]
      omega

/-- A trigger of this kind is one whose days fit in a week. -/
def CalendarRule.Proper : CalendarRule → Prop
  | .weekly index => index < 7
  | _ => True

/-- **What `is_due` compares with is an occurrence**: with the policy `latest` one that has come, with
`skip` one of today. -/
theorem target_occurs {rule : CalendarRule} (hproper : rule.Proper) {catchUp : Bool} {hh mm : Int}
    {now d : LocalTime} (h : target rule catchUp hh mm now = some d) :
    Occurs rule hh mm d ∧ (catchUp = true → d.le now = true) ∧ (catchUp = false → d.day = now.day) := by
  cases rule with
  | daily =>
      obtain rfl := Option.some.inj h
      cases catchUp with
      | true =>
          obtain ⟨hsecond, hle, -⟩ := latestDaily_spec now hh mm
          exact ⟨⟨hsecond, trivial⟩, fun _ => hle, nofun⟩
      | false => exact ⟨⟨rfl, trivial⟩, nofun, fun _ => rfl⟩
  | weekdays =>
      unfold target at h
      dsimp only at h
      split at h
      · rename_i hcatch
        obtain rfl := Option.some.inj h
        obtain ⟨hsecond, hle, -⟩ := latestDaily_spec now hh mm
        obtain ⟨hweekday, hsame, hday, -⟩ := backToWeekday_spec (latestDaily now hh mm)
        refine ⟨⟨hsame.trans hsecond, hweekday⟩, fun _ => LocalTime.le_iff.mpr ?_, fun hno => ?_⟩
        · unfold latestWeekday
          rcases hday.lt_or_eq with hlt | heq
          · rcases LocalTime.le_iff.mp hle with hbefore | ⟨hsame, -⟩
            · exact .inl (hlt.trans hbefore)
            · exact .inl (hlt.trans_eq hsame)
          · rw [heq, hsame]
            exact LocalTime.le_iff.mp hle
        · rw [hcatch] at hno
          cases hno
      · split at h
        · cases h
        · rename_i hcatch hweekday
          obtain rfl := Option.some.inj h
          exact ⟨⟨rfl, not_le.mp hweekday⟩, fun hyes => absurd hyes hcatch, fun _ => rfl⟩
  | weekly index =>
      obtain ⟨hskip, h⟩ := Option.ite_none_left_eq_some.mp h
      obtain rfl := Option.some.inj h
      obtain ⟨hoccurs, hle⟩ := lastWeekly_spec hproper hh mm now
      refine ⟨hoccurs, fun _ => hle, fun hno => ?_⟩
      by_contra hday
      exact hskip ⟨hno, .inr hday⟩

/-- **With the policy `latest` it is the last occurrence that has come.** -/
theorem target_latest {rule : CalendarRule} {hh mm : Int} {now o : LocalTime}
    (ho : Occurs rule hh mm o) (hle : o.le now = true) :
    ∃ d, target rule true hh mm now = some d ∧ o.day ≤ d.day := by
  obtain ⟨hsecond, hon⟩ := ho
  obtain ⟨-, -, hlast⟩ := latestDaily_spec now hh mm
  have hday := hlast o hsecond hle
  cases rule with
  | daily => exact ⟨_, rfl, hday⟩
  | weekdays =>
      obtain ⟨-, -, -, hback⟩ := backToWeekday_spec (latestDaily now hh mm)
      exact ⟨_, rfl, hback o hon hday⟩
  | weekly index =>
      have htoday : o.day ≤ now.day := by
        rcases LocalTime.le_iff.mp hle with hlt | ⟨heq, -⟩
        · exact hlt.le
        · exact heq.le
      have hweek := lastWeekday_spec now o hon htoday
      refine ⟨lastWeekly index hh mm now, by simp [target], ?_⟩
      unfold lastWeekly
      dsimp only
      split
      · exact hweek
      · rename_i hnot
        -- The occurrence is not on that day, as its time of day has not come.
        have hne : o.day ≠ now.day - ((now.weekday : Int) - index) % 7 := fun heq => by
          refine hnot (LocalTime.le_iff.mpr ?_)
          have hcome := LocalTime.le_iff.mp hle
          rw [heq, hsecond] at hcome
          exact hcome
        simp only [CalendarRule.On, LocalTime.weekday] at hon
        simp only [LocalTime.minusDays, LocalTime.replace, LocalTime.weekday] at *
        omega

theorem policy_cases (R : Runtime) (s : Schedule) : s.policy R = "latest" ∨ s.policy R = "skip" := by
  unfold Schedule.policy
  dsimp only
  generalize R.python.lower (strip (if s.misfirePolicy = "" then "latest" else s.misfirePolicy)) = value
  by_cases hmem : value ∈ misfirePolicies
  · rw [if_pos hmem]
    simpa [misfirePolicies] using hmem
  · rw [if_neg hmem]
    exact .inl rfl

theorem ruleOf_proper {R : Runtime} {tr : List (String × Json)} {rule : CalendarRule}
    (h : ruleOf R tr = some rule) : rule.Proper := by
  unfold ruleOf at h
  dsimp only at h
  split at h
  · obtain rfl := Option.some.inj h
    trivial
  · split at h
    · obtain rfl := Option.some.inj h
      trivial
    · split at h
      · rename_i hweekly
        obtain rfl := Option.some.inj h
        exact List.idxOf_lt_length_of_mem hweekly.2
      · cases h

/-- A calendar trigger is no interval and no cron expression. -/
theorem ruleOf_kind {R : Runtime} {tr : List (String × Json)} {rule : CalendarRule}
    (h : ruleOf R tr = some rule) :
    ((Dict.get? tr "type").bind fun v => v.toPy.str?) ≠ some "interval" ∧
      ((Dict.get? tr "type").bind fun v => v.toPy.str?) ≠ some "cron" := by
  unfold ruleOf at h
  dsimp only at h
  constructor <;>
  · intro hkind
    simp [hkind] at h

theorem parseHhmm_of {R : Runtime} {text h m : String} {hh mm : Int}
    (htext : (text.toList.splitOn ':').map String.ofList = [h, m]) (hh' : R.python.toInt (.str h) = some hh)
    (hm' : R.python.toInt (.str m) = some mm) (hhour : 0 ≤ hh ∧ hh ≤ 23) (hminute : 0 ≤ mm ∧ mm ≤ 59) :
    parseHhmm R text = (hh, mm) := by
  unfold parseHhmm
  rw [htext]
  simp only [hh', hm']
  rw [min_eq_right hhour.2, min_eq_right hminute.2, max_eq_right hhour.1, max_eq_right hminute.1]

theorem lastWeekly_eq (index : Nat) (hh mm : Int) (now : LocalTime) :
    (if ((now.minusDays (((now.weekday : Int) - index) % 7)).replace hh mm).le now = true then
      (now.minusDays (((now.weekday : Int) - index) % 7)).replace hh mm
    else ((now.minusDays (((now.weekday : Int) - index) % 7)).replace hh mm).minusDays 7) =
      lastWeekly index hh mm now := rfl

/-- What `is_due` says of a calendar trigger. -/
theorem isDue_rule {R : Runtime} {s : Schedule} {tr : List (String × Json)} {rule : CalendarRule}
    (htr : s.trigger = .obj tr) (hrule : ruleOf R tr = some rule) (hon : s.enabled = true) {now : ℚ}
    {l : LocalTime} (hl : R.calendar.fromTimestamp now = some l) :
    isDue R s now = .ok ((target rule (s.policy R == "latest")
      (parseHhmm R (R.textOr tr "time" "09:00")).1 (parseHhmm R (R.textOr tr "time" "09:00")).2 l).any
        fun d => reached R d l s.lastRun) := by
  have hskip : s.policy R = "skip" ↔ (s.policy R == "latest") = false := by
    rcases policy_cases R s with hp | hp <;> rw [hp] <;> decide
  unfold isDue Schedule.triggerEntries Calendar.now
  rw [htr]
  unfold ruleOf at hrule
  dsimp only at hrule
  split at hrule
  · rename_i hkind
    obtain rfl := Option.some.inj hrule
    simp [hon, hkind, hl, target, bind, Except.bind, pure, Except.pure]
  · rename_i hkind
    split at hrule
    · rename_i hkind'
      obtain rfl := Option.some.inj hrule
      simp [hon, hkind', hl, target, bind, Except.bind, pure, Except.pure]
      split
      · rfl
      · split <;> rfl
    · split at hrule
      · rename_i hweekly
        obtain rfl := Option.some.inj hrule
        simp [hon, hweekly.1, hweekly.2, hl, target, bind, Except.bind, pure, Except.pure, hskip,
          lastWeekly_eq]
        split <;> rfl
      · cases hrule

theorem isDue_calendar {R : Runtime} {s : Schedule} {rule : CalendarRule} {hh mm : Int}
    (hat : CalendarAt R s.trigger rule hh mm) (hon : s.enabled = true) {now : ℚ} {l : LocalTime}
    (hl : R.calendar.fromTimestamp now = some l) :
    isDue R s now = .ok ((target rule (s.policy R == "latest") hh mm l).any fun d =>
      reached R d l s.lastRun) := by
  obtain ⟨tr, htr, hrule, h, m, htext, hh', hm'⟩ := hat.rule
  rw [isDue_rule htr hrule hon hl, parseHhmm_of htext hh' hm' hat.hour hat.minute]

/-! ## 4.  When a task is due

Every kind of trigger at once: `isDue_iff` says it with the occurrence `is_due` compares with the last run
(`Schedule.occurrence`). -/

/-- The last run of a cron expression, where it has come less than a minute ago or the policy is `latest`. -/
def cronOccurrence (R : Runtime) (expr : Option Json) (now : ℚ) (catchUp : Bool) : Option ℚ := do
  let previous ← R.calendar.croniter
  let expr ← (orElse (expr.map Json.toPy) (.str "")).str?
  if strip expr = "" then none
  else
    let local_ ← R.calendar.fromTimestamp now
    let prev ← previous expr local_
    if catchUp = false ∧ 60 < now - R.calendar.timestamp prev then none
    else some (R.calendar.timestamp prev)

/-- The time stamp of the occurrence of a cron expression or of a calendar trigger, if one has come that the
policy lets run. -/
def Schedule.occurrence (R : Runtime) (s : Schedule) (now : ℚ) : Option ℚ :=
  match s.trigger with
  | .obj tr =>
      if ((Dict.get? tr "type").bind fun v => v.toPy.str?) = some "cron" then
        cronOccurrence R (some ((Dict.get? tr "expr").getD (.str ""))) now (s.policy R == "latest")
      else do
        let rule ← ruleOf R tr
        let local_ ← R.calendar.fromTimestamp now
        let d ← target rule (s.policy R == "latest") (parseHhmm R (R.textOr tr "time" "09:00")).1
          (parseHhmm R (R.textOr tr "time" "09:00")).2 local_
        if d.le local_ then some (R.calendar.timestamp d) else none
  | _ => none

section Due

variable {R : Runtime} {s : Schedule} {now : ℚ} {tr : List (String × Json)}

theorem cronDue_iff {expr : Option Json} {last : ℚ} {catchUp : Bool} :
    cronDue R expr last now catchUp = .ok true ↔
      ∃ d, cronOccurrence R expr now catchUp = some d ∧ last < d := by
  unfold cronDue cronOccurrence
  cases R.calendar.croniter with
  | none => simp
  | some previous =>
      cases (orElse (expr.map Json.toPy) (.str "")).str? with
      | none => simp
      | some expr =>
          by_cases hblank : strip expr = ""
          · simp [hblank]
          · cases hlocal : R.calendar.fromTimestamp now with
            | none => simp [hblank]
            | some local_ =>
                cases hprev : previous expr local_ with
                | none => simp [hblank, hprev]
                | some prev =>
                    by_cases hlate : catchUp = false ∧ 60 < now - R.calendar.timestamp prev
                    · simp [hblank, hprev, hlate]
                    · simp [hblank, hprev, hlate]

theorem isDue_off (hoff : s.enabled = false) : isDue R s now = .ok false := by
  rw [isDue, if_pos hoff]
  rfl

theorem isDue_interval (htr : s.trigger = .obj tr)
    (hkind : ((Dict.get? tr "type").bind fun v => v.toPy.str?) = some "interval") (hon : s.enabled = true) :
    isDue R s now = .ok true ↔
      ∃ seconds, IntervalOf R s.trigger seconds ∧ ((max 60 seconds : Int) : ℚ) ≤ now - s.lastRun := by
  have hinterval (seconds : Int) : IntervalOf R s.trigger seconds ↔
      R.python.toInt ((Dict.get? tr "seconds").getD (.int 3600)).toPy = some seconds := by
    constructor
    · rintro ⟨tr', htr', -, hseconds⟩
      obtain rfl := Json.obj.inj (htr.symm.trans htr')
      exact hseconds
    · exact fun hseconds => ⟨tr, htr, hkind, hseconds⟩
  simp only [hinterval]
  unfold isDue Schedule.triggerEntries
  rw [htr]
  cases hseconds : R.python.toInt ((Dict.get? tr "seconds").getD (.int 3600)).toPy with
  | none => simp [hon, hkind, hseconds, bind, Except.bind, throw, throwThe, MonadExceptOf.throw]
  | some seconds => simp [hon, hkind, hseconds, bind, Except.bind, pure, Except.pure]

theorem isDue_cron (htr : s.trigger = .obj tr)
    (hkind : ((Dict.get? tr "type").bind fun v => v.toPy.str?) = some "cron") (hon : s.enabled = true) :
    isDue R s now = cronDue R (some ((Dict.get? tr "expr").getD (.str ""))) s.lastRun now
      (s.policy R == "latest") := by
  unfold isDue Schedule.triggerEntries
  rw [htr]
  simp [hon, hkind, bind, Except.bind]

/-- The local clock cannot show the time. -/
theorem isDue_unshown (htr : s.trigger = .obj tr)
    (hinterval : ((Dict.get? tr "type").bind fun v => v.toPy.str?) ≠ some "interval")
    (hcron : ((Dict.get? tr "type").bind fun v => v.toPy.str?) ≠ some "cron")
    (hclock : R.calendar.fromTimestamp now = none) : isDue R s now ≠ .ok true := by
  unfold isDue Schedule.triggerEntries Calendar.now
  rw [htr, hclock]
  cases s.enabled <;> simp [hinterval, hcron, bind, Except.bind, pure, Except.pure]

/-- A trigger of no kind that the scheduler knows, such as a webhook. -/
theorem isDue_unknown (htr : s.trigger = .obj tr)
    (hinterval : ((Dict.get? tr "type").bind fun v => v.toPy.str?) ≠ some "interval")
    (hcron : ((Dict.get? tr "type").bind fun v => v.toPy.str?) ≠ some "cron")
    (hrule : ruleOf R tr = none) : isDue R s now ≠ .ok true := by
  unfold ruleOf at hrule
  dsimp only at hrule
  split at hrule
  · cases hrule
  rename_i hdaily
  split at hrule
  · cases hrule
  rename_i hweekdays
  split at hrule
  · cases hrule
  rename_i hweekly
  cases hclock : R.calendar.fromTimestamp now with
  | none => exact isDue_unshown htr hinterval hcron hclock
  | some local_ =>
      unfold isDue Schedule.triggerEntries Calendar.now
      rw [htr, hclock]
      cases hon : s.enabled with
      | false => simp [pure, Except.pure]
      | true =>
          by_cases hkind : ((Dict.get? tr "type").bind fun v => v.toPy.str?) = some "weekly"
          · have hday : clip (R.python.lower (R.textOr tr "day" "mon")) 3 ∉ days := fun hmem =>
              hweekly ⟨hkind, hmem⟩
            simp [hkind, hday, bind, Except.bind, pure, Except.pure]
          · simp [hinterval, hcron, hdaily, hweekdays, hkind, bind, Except.bind, pure, Except.pure]

/-- A trigger that is no object names nothing. -/
theorem isDue_notObj (htr : ∀ tr, s.trigger ≠ .obj tr) : isDue R s now ≠ .ok true := by
  have hentries : s.triggerEntries ≠ .ok [] → ∃ e, s.triggerEntries = .error e := by
    unfold Schedule.triggerEntries
    split
    · rename_i entries hobj
      exact absurd hobj (htr entries)
    · split
      · exact fun _ => ⟨_, rfl⟩
      · exact fun hne => absurd rfl hne
  unfold isDue
  by_cases hempty : s.triggerEntries = .ok []
  · rw [hempty]
    cases s.enabled <;> cases R.calendar.now now <;>
      simp [Dict.get?, bind, Except.bind, pure, Except.pure]
  · obtain ⟨e, he⟩ := hentries hempty
    rw [he]
    cases s.enabled <;> simp [bind, Except.bind, pure, Except.pure]

/-- **When a task is due**: its interval has passed since the last run, or its occurrence is after it. -/
theorem isDue_iff : isDue R s now = .ok true ↔ s.enabled = true ∧
    ((∃ seconds, IntervalOf R s.trigger seconds ∧ ((max 60 seconds : Int) : ℚ) ≤ now - s.lastRun) ∨
      ∃ d, s.occurrence R now = some d ∧ s.lastRun < d) := by
  cases hon : s.enabled with
  | false => simp [isDue_off hon]
  | true =>
      rw [eq_self, true_and]
      cases htr : s.trigger with
      | obj tr =>
          by_cases hinterval : ((Dict.get? tr "type").bind fun v => v.toPy.str?) = some "interval"
          · -- An interval has no occurrence.
            have hrule : ruleOf R tr = none := by simp [ruleOf, hinterval]
            simp [isDue_interval htr hinterval hon, htr, Schedule.occurrence, hinterval, hrule]
          have hnone (seconds : Int) : ¬ IntervalOf R (.obj tr) seconds := by
            rintro ⟨tr', htr', hkind, -⟩
            obtain rfl := Json.obj.inj htr'
            exact hinterval hkind
          by_cases hcron : ((Dict.get? tr "type").bind fun v => v.toPy.str?) = some "cron"
          · rw [isDue_cron htr hcron hon, cronDue_iff]
            simp [hnone, Schedule.occurrence, htr, hcron]
          cases hclock : R.calendar.fromTimestamp now with
          | none =>
              have hnot : isDue R s now ≠ .ok true := isDue_unshown htr hinterval hcron hclock
              simp [hnot, hnone, Schedule.occurrence, htr, hcron, hclock]
          | some local_ =>
              cases hrule : ruleOf R tr with
              | none =>
                  have hnot : isDue R s now ≠ .ok true := isDue_unknown htr hinterval hcron hrule
                  simp [hnot, hnone, Schedule.occurrence, htr, hcron, hrule]
              | some rule =>
                  rw [isDue_rule htr hrule hon hclock]
                  cases htarget : target rule (s.policy R == "latest")
                      (parseHhmm R (R.textOr tr "time" "09:00")).1
                      (parseHhmm R (R.textOr tr "time" "09:00")).2 local_ with
                  | none => simp [hnone, Schedule.occurrence, htr, hcron, hrule, hclock, htarget]
                  | some d => simp [hnone, Schedule.occurrence, htr, hcron, hrule, hclock, htarget, reached]
      | _ =>
          have hnot : isDue R s now ≠ .ok true := isDue_notObj fun tr hobj => by
            rw [htr] at hobj
            cases hobj
          simp [hnot, IntervalOf, Schedule.occurrence, htr]

/-- The occurrence does not depend on the last run. -/
theorem occurrence_congr {s' : Schedule} (htrigger : s.trigger = s'.trigger)
    (hpolicy : s.misfirePolicy = s'.misfirePolicy) (now : ℚ) :
    s.occurrence R now = s'.occurrence R now := by
  simp only [Schedule.occurrence, Schedule.policy, htrigger, hpolicy]

end Due

/-- A claim of a calendar trigger is due to an occurrence after the last run. -/
theorem occurs_of_due {R : Runtime} (hC : R.calendar.Forward) {s : Schedule} {rule : CalendarRule}
    {hh mm : Int} (hat : CalendarAt R s.trigger rule hh mm)
    (hshown : ∀ d, Occurs rule hh mm d → R.calendar.Shows d) {now : ℚ} (hdue : isDue R s now = .ok true) :
    ∃ l o, R.calendar.fromTimestamp now = some l ∧ Occurs rule hh mm o ∧
      s.lastRun < R.calendar.timestamp o ∧ R.calendar.timestamp o ≤ now ∧
      (s.policy R = "skip" → o.day = l.day) := by
  have hon := (isDue_iff.mp hdue).1
  cases hl : R.calendar.fromTimestamp now with
  | none =>
      obtain ⟨tr, htr, hrule, -⟩ := hat.rule
      exact absurd hdue (isDue_unshown htr (ruleOf_kind hrule).1 (ruleOf_kind hrule).2 hl)
  | some l =>
      rw [isDue_calendar hat hon hl] at hdue
      cases htarget : target rule (s.policy R == "latest") hh mm l with
      | none =>
          rw [htarget] at hdue
          cases hdue
      | some o =>
          obtain ⟨-, hrule, -⟩ := hat.rule.choose_spec
          obtain ⟨hoccurs, -, htoday⟩ := target_occurs (ruleOf_proper hrule) htarget
          have hreached : reached R o l s.lastRun = true := by
            rw [htarget] at hdue
            exact Except.ok.inj hdue
          rw [reached, Bool.and_eq_true, decide_eq_true_iff] at hreached
          refine ⟨l, o, rfl, hoccurs, hreached.2,
            (hC.le_iff (hshown o hoccurs) hl).mp hreached.1, fun hskip => ?_⟩
          refine htoday ?_
          rw [hskip]
          decide

/-- With the policy `latest` a calendar trigger is due when an occurrence came after the last run. -/
theorem due_of_occurs {R : Runtime} (hC : R.calendar.Forward) {s : Schedule} {rule : CalendarRule}
    {hh mm : Int} (hat : CalendarAt R s.trigger rule hh mm)
    (hshown : ∀ d, Occurs rule hh mm d → R.calendar.Shows d) (hon : s.enabled = true)
    (hlatest : s.policy R = "latest") {now : ℚ} {l o : LocalTime}
    (hl : R.calendar.fromTimestamp now = some l) (ho : Occurs rule hh mm o)
    (hlast : s.lastRun < R.calendar.timestamp o) (hcome : R.calendar.timestamp o ≤ now) :
    isDue R s now = .ok true := by
  obtain ⟨d, htarget, hle⟩ := target_latest ho ((hC.le_iff (hshown o ho) hl).mpr hcome)
  obtain ⟨-, hrule, -⟩ := hat.rule.choose_spec
  obtain ⟨hoccurs, hreached, -⟩ := target_occurs (ruleOf_proper hrule) htarget
  have hlater : o.le d = true := by
    rw [LocalTime.le_iff, ho.1, hoccurs.1]
    exact hle.lt_or_eq.imp id fun heq => ⟨heq, le_rfl⟩
  have hafter : s.lastRun < R.calendar.timestamp d :=
    hlast.trans_le (hC.timestamp_le (hshown o ho) (hshown d hoccurs) hlater)
  rw [isDue_calendar hat hon hl, hlatest, show ("latest" == "latest") = true from rfl, htarget, Option.any_some,
    reached, hreached rfl, decide_eq_true hafter]
  rfl

/-- What `is_due` says of an interval trigger. -/
theorem interval_of_due {R : Runtime} {s : Schedule} {seconds : Int} (hinterval : IntervalOf R s.trigger seconds)
    {now : ℚ} (hdue : isDue R s now = .ok true) : ((max 60 seconds : Int) : ℚ) ≤ now - s.lastRun := by
  obtain ⟨tr, htr, hkind, hseconds⟩ := hinterval
  unfold isDue Schedule.triggerEntries at hdue
  rw [htr] at hdue
  cases hon : s.enabled with
  | false =>
      rw [if_pos hon] at hdue
      cases hdue
  | true =>
      simp [hon, hkind, hseconds, bind, Except.bind, pure, Except.pure] at hdue
      rw [Int.cast_max]
      exact max_le (by exact_mod_cast hdue.1) hdue.2

/-- On the weekday itself it is today's, or that of a week ago. -/
theorem lastWeekly_today {index : Nat} {hh mm : Int} {now : LocalTime} (htoday : now.weekday = index) :
    lastWeekly index hh mm now =
      if (now.replace hh mm).le now then now.replace hh mm else (now.replace hh mm).minusDays 7 := by
  have hback : now.minusDays (((now.weekday : Int) - index) % 7) = now := by
    simp [htoday, LocalTime.minusDays]
  unfold lastWeekly
  rw [hback]

/-- With the policy `skip` an occurrence that has come stays for the day. -/
theorem target_sameDay {rule : CalendarRule} {hh mm : Int} {l l' o : LocalTime}
    (h : target rule false hh mm l = some o) (hday : l'.day = l.day) (hcome : o.le l' = true) :
    target rule false hh mm l' = some o := by
  have hweekday : l'.weekday = l.weekday := by rw [LocalTime.weekday, LocalTime.weekday, hday]
  have hreplace : l'.replace hh mm = l.replace hh mm := by simp [LocalTime.replace, hday]
  cases rule with
  | daily => exact (congrArg some hreplace).trans h
  | weekdays =>
      simp only [target, hweekday, hreplace] at h ⊢
      exact h
  | weekly index =>
      obtain ⟨hskip, hlast⟩ := Option.ite_none_left_eq_some.mp h
      obtain rfl := Option.some.inj hlast
      have htoday : l.weekday = index := by
        by_contra hne
        exact hskip ⟨rfl, .inl hne⟩
      have hsame : (lastWeekly index hh mm l).day = l.day := by
        by_contra hne
        exact hskip ⟨rfl, .inr hne⟩
      have hlast : lastWeekly index hh mm l = l.replace hh mm := by
        rw [lastWeekly_today htoday] at hsame ⊢
        split at hsame
        · rename_i hle
          rw [if_pos hle]
        · simp [LocalTime.minusDays, LocalTime.replace] at hsame
      rw [hlast, ← hreplace] at hcome ⊢
      have hlast' : lastWeekly index hh mm l' = l'.replace hh mm := by
        rw [lastWeekly_today (hweekday.trans htoday), if_pos hcome]
      simp [target, hlast', hweekday, htoday, LocalTime.replace]

/-- The occurrence of a calendar trigger. -/
theorem occurrence_calendar {R : Runtime} {s : Schedule} {rule : CalendarRule} {hh mm : Int}
    (hat : CalendarAt R s.trigger rule hh mm) {now : ℚ} {l : LocalTime}
    (hl : R.calendar.fromTimestamp now = some l) :
    s.occurrence R now = (target rule (s.policy R == "latest") hh mm l).bind fun d =>
      if d.le l = true then some (R.calendar.timestamp d) else none := by
  obtain ⟨tr, htr, hrule, h, m, htext, hh', hm'⟩ := hat.rule
  simp only [Schedule.occurrence, htr, if_neg (ruleOf_kind hrule).2, hrule, hl,
    parseHhmm_of htext hh' hm' hat.hour hat.minute]
  rfl

/-- An occurrence of a calendar trigger is not lost while the clock goes on: with the policy `latest` a later
one is in its place, with `skip` it stays for the day. -/
theorem occurrence_later {R : Runtime} (hC : R.calendar.Forward) {s : Schedule} {rule : CalendarRule}
    {hh mm : Int} (hat : CalendarAt R s.trigger rule hh mm)
    (hshown : ∀ d, Occurs rule hh mm d → R.calendar.Shows d) {now next : ℚ} {l l' : LocalTime}
    (hl : R.calendar.fromTimestamp now = some l) (hl' : R.calendar.fromTimestamp next = some l')
    (hle : now ≤ next) (hpolicy : s.policy R = "latest" ∨ l'.day = l.day) {d : ℚ}
    (hd : s.occurrence R now = some d) : ∃ d', s.occurrence R next = some d' ∧ d ≤ d' := by
  rw [occurrence_calendar hat hl] at hd
  rw [occurrence_calendar hat hl']
  obtain ⟨o, htarget, hd⟩ := Option.bind_eq_some_iff.mp hd
  obtain ⟨hreached, hd⟩ := Option.ite_none_right_eq_some.mp hd
  obtain rfl := Option.some.inj hd
  obtain ⟨-, hrule, -⟩ := hat.rule.choose_spec
  have hproper := ruleOf_proper hrule
  obtain ⟨hoccurs, -, htoday⟩ := target_occurs hproper htarget
  have hcome : o.le l' = true := (hC.le_iff (hshown o hoccurs) hl').mpr
    (((hC.le_iff (hshown o hoccurs) hl).mp hreached).trans hle)
  rcases policy_cases R s with hlatest | hskip
  · rw [hlatest, show ("latest" == "latest") = true from rfl]
    obtain ⟨o', htarget', hday⟩ := target_latest hoccurs hcome
    obtain ⟨hoccurs', hreached', -⟩ := target_occurs hproper htarget'
    have hlater : o.le o' = true := by
      rw [LocalTime.le_iff, hoccurs.1, hoccurs'.1]
      exact hday.lt_or_eq.imp id fun heq => ⟨heq, le_rfl⟩
    refine ⟨R.calendar.timestamp o', ?_, hC.timestamp_le (hshown o hoccurs) (hshown o' hoccurs') hlater⟩
    rw [htarget', Option.bind_some, if_pos (hreached' rfl)]
  · have hno : (s.policy R == "latest") = false := by
      rw [hskip]
      decide
    rw [hno] at htarget ⊢
    have hday : l'.day = l.day := hpolicy.resolve_left (by rw [hskip]; decide)
    refine ⟨R.calendar.timestamp o, ?_, le_rfl⟩
    rw [target_sameDay htarget hday hcome, Option.bind_some, if_pos hcome]

/-! ## 5.  Polls -/

inductive ScheduleStep where
  /-- `claim_due_tasks` at a time. -/
  | poll (env : StoreEnv) (now : ℚ)
  /-- `complete_scheduled_claim` of the claim that is outstanding. -/
  | settle (status : String)

/-- A poll of one task: whether it was claimed, and the task after it. -/
def pollTask (R : Runtime) (env : StoreEnv) (now : ℚ) (t : Task) : Except Raised Bool × Task :=
  match claimDue R env now 0 [t] with
  | .ok (next, claims) => (.ok (!claims.isEmpty), next.headD t)
  | .error e => (.error e, t)

/-- The end of the claim that is outstanding. -/
def settleTask (status : String) (t : Task) : Task :=
  ((t.scheduledClaim.bind fun c => Task.onScheduledClaim c.claimId (fun _ t =>
    { t with lastScheduleStatus := some (clippedText status "completed" 40) }) t)).getD t

def scheduleStep (R : Runtime) : ScheduleStep → Task → Except Raised Bool × Task
  | .poll env now, t => pollTask R env now t
  | .settle status, t => (.ok false, settleTask status t)

/-- The polls of a task. -/
def schedule (R : Runtime) (t₀ : Task) : Machine Task ScheduleStep (Except Raised Bool) :=
  ⟨t₀, scheduleStep R⟩

abbrev ScheduleHistory := List (ScheduleStep × Except Raised Bool)

/-- The time of a poll that claimed. -/
def claimTime : ScheduleStep × Except Raised Bool → Option ℚ
  | (.poll _ now, .ok true) => some now
  | _ => none

/-- The times of the claims, the last one first. -/
def claimTimes (h : ScheduleHistory) : List ℚ := h.filterMap claimTime

/-- A task as `add` makes it. -/
structure Created (t : Task) : Prop where
  lastRun : t.lastRun = 0
  unclaimed : t.scheduledClaim = none
  named : t.id ≠ ""

/-- A poll claims a task that is due and has no claim, and leaves any other alone. -/
theorem pollTask_cases (R : Runtime) (env : StoreEnv) (now : ℚ) (t : Task) :
    (t.scheduledClaim = none ∧ isDue R (t.schedule t.lastRun) now = .ok true ∧ t.id ≠ "" ∧
      pollTask R env now t = (.ok true, t.claimed (scheduledId t.id (env.token 0)) now env.time)) ∨
    ((pollTask R env now t).1 ≠ .ok true ∧ (pollTask R env now t).2 = t) := by
  unfold pollTask claimDue
  cases hclaim : t.scheduledClaim with
  | some c => exact .inr ⟨by simp [claimDue, bind, Except.bind, pure, Except.pure], rfl⟩
  | none =>
      cases hdue : isDue R (t.schedule t.lastRun) now with
      | error e => exact .inr ⟨nofun, rfl⟩
      | ok due =>
          by_cases hyes : due = true ∧ t.id ≠ ""
          · obtain ⟨rfl, hid⟩ := hyes
            refine .inl ⟨rfl, rfl, hid, ?_⟩
            simp [claimDue, hid, bind, Except.bind, pure, Except.pure]
          · refine .inr ?_
            simp [claimDue, hyes, bind, Except.bind, pure, Except.pure]

theorem settleTask_same (status : String) (t : Task) :
    (settleTask status t).toTaskSnapshot = t.toTaskSnapshot ∧ (settleTask status t).lastRun = t.lastRun := by
  unfold settleTask
  cases hclaim : t.scheduledClaim with
  | none => exact ⟨rfl, rfl⟩
  | some c => simp [Task.onScheduledClaim, hclaim]

/-! ## 6.  Every claim has its occurrence -/

/-- Each claim has an occurrence, after the claim before it and not after itself. -/
def Fired (C : Calendar) (P : LocalTime → ℚ → Prop) : List ℚ → List LocalTime → Prop
  | [], [] => True
  | now :: before, o :: os =>
      P o now ∧ before.headD 0 < C.timestamp o ∧ C.timestamp o ≤ now ∧ Fired C P before os
  | _, _ => False

/-- The occurrences have come at the last claim. -/
theorem Fired.le {C : Calendar} {P : LocalTime → ℚ → Prop} {times : List ℚ} {os : List LocalTime}
    (h : Fired C P times os) : ∀ o ∈ os, C.timestamp o ≤ times.headD 0 := by
  induction times generalizing os with
  | nil =>
      cases os with
      | nil => simp
      | cons o os => exact h.elim
  | cons now before ih =>
      cases os with
      | nil => exact h.elim
      | cons o os =>
          obtain ⟨-, hafter, hle, hrest⟩ := h
          refine List.forall_mem_cons.mpr ⟨hle, fun o' ho' => ?_⟩
          exact ((ih hrest o' ho').trans hafter.le).trans hle

/-- **No occurrence is claimed twice.** -/
theorem Fired.nodup {C : Calendar} {P : LocalTime → ℚ → Prop} {times : List ℚ} {os : List LocalTime}
    (h : Fired C P times os) : os.Nodup := by
  induction times generalizing os with
  | nil =>
      cases os with
      | nil => exact List.nodup_nil
      | cons o os => exact h.elim
  | cons now before ih =>
      cases os with
      | nil => exact h.elim
      | cons o os =>
          obtain ⟨-, hafter, -, hrest⟩ := h
          refine List.nodup_cons.mpr ⟨fun hmem => ?_, ih hrest⟩
          exact absurd (hrest.le o hmem) (not_le.mpr hafter)

/-- What a task keeps of its creation and what it knows of its claims. -/
structure Polled (t₀ : Task) (h : ScheduleHistory) (t : Task) : Prop where
  settings : t.toTaskSnapshot = t₀.toTaskSnapshot
  lastRun : t.lastRun = (claimTimes h).headD 0

/-- A step claims the task for a time it is due at, or adds no claim. -/
theorem step_cases {R : Runtime} {l : ScheduleStep} {t t' : Task} {r : Except Raised Bool}
    (hstep : scheduleStep R l t = (r, t')) :
    t'.toTaskSnapshot = t.toTaskSnapshot ∧
      ((∃ now, claimTime (l, r) = some now ∧ isDue R (t.schedule t.lastRun) now = .ok true ∧ t'.lastRun = now) ∨
        claimTime (l, r) = none ∧ t'.lastRun = t.lastRun) := by
  cases l with
  | poll env now =>
      rcases pollTask_cases R env now t with ⟨-, hdue, -, hpoll⟩ | ⟨hno, hsame⟩
      · rw [scheduleStep, hpoll] at hstep
        obtain ⟨rfl, rfl⟩ := Prod.mk.inj hstep
        exact ⟨rfl, .inl ⟨now, rfl, hdue, rfl⟩⟩
      · rw [scheduleStep] at hstep
        rw [hstep] at hno hsame
        dsimp only at hno hsame
        subst hsame
        refine ⟨rfl, .inr ⟨?_, rfl⟩⟩
        cases r with
        | error e => rfl
        | ok claimed =>
            cases claimed with
            | false => rfl
            | true => exact absurd rfl hno
  | settle status =>
      obtain ⟨rfl, rfl⟩ := Prod.mk.inj hstep
      exact ⟨(settleTask_same status t).1, .inr ⟨rfl, (settleTask_same status t).2⟩⟩

theorem claimTimes_cons (e : ScheduleStep × Except Raised Bool) (h : ScheduleHistory) :
    claimTimes (e :: h) = (claimTime e).toList ++ claimTimes h := by
  unfold claimTimes
  rw [List.filterMap_cons]
  cases claimTime e <;> rfl

variable {R : Runtime} {t₀ : Task}

theorem polled_of_run (hnew : Created t₀) {h : ScheduleHistory} {t : Task} (hrun : (schedule R t₀).Run h t) :
    Polled t₀ h t := by
  refine hrun.invariant ⟨rfl, hnew.lastRun⟩ fun h t l r t' _ hpolled hstep => ?_
  obtain ⟨hsame, ⟨now, htime, -, hlast⟩ | ⟨htime, hlast⟩⟩ := step_cases hstep
  · refine ⟨hsame.trans hpolled.settings, ?_⟩
    rw [claimTimes_cons, htime, hlast]
    rfl
  · refine ⟨hsame.trans hpolled.settings, ?_⟩
    rw [claimTimes_cons, htime, hlast]
    exact hpolled.lastRun

/-- The settings `is_due` reads stay those of the creation. -/
theorem Polled.schedule_eq {h : ScheduleHistory} {t : Task} (hpolled : Polled t₀ h t) (lastRun : ℚ) :
    t.schedule lastRun = t₀.schedule lastRun := by rw [hpolled.settings]

/-- **Schedules fire once per occurrence.** -/
structure FiresOnce (R : Runtime) (t₀ : Task) (h : ScheduleHistory) (t : Task) : Prop where
  /-- Every claim of a calendar trigger has an occurrence of its own since the claim before it; with the
  policy `skip` it is one of the day of the claim. -/
  once : ∀ rule hh mm, CalendarAt R t₀.trigger rule hh mm → ∃ os : List LocalTime, os.Nodup ∧
    Fired R.calendar (fun o now => Occurs rule hh mm o ∧ ((t₀.schedule 0).policy R = "skip" →
      ∃ l, R.calendar.fromTimestamp now = some l ∧ o.day = l.day)) (claimTimes h) os
  /-- With the policy `latest` a poll claims when an occurrence came after the last run. -/
  latest : ∀ rule hh mm, CalendarAt R t₀.trigger rule hh mm → t₀.enabled = true →
    (t₀.schedule 0).policy R = "latest" → t.scheduledClaim = none → ∀ env now l o,
      R.calendar.fromTimestamp now = some l → Occurs rule hh mm o →
        t.lastRun < R.calendar.timestamp o → R.calendar.timestamp o ≤ now →
          (pollTask R env now t).1 = .ok true
  /-- Claims of an interval trigger are an interval apart. -/
  interval : ∀ seconds, IntervalOf R t₀.trigger seconds →
    (claimTimes h).IsChain fun later earlier => ((max 60 seconds : Int) : ℚ) ≤ later - earlier

/-- The local clock shows every occurrence of the task's trigger: none is left out when the clock is put
forward. -/
def NoGap (R : Runtime) (t₀ : Task) : Prop :=
  ∀ rule hh mm, CalendarAt R t₀.trigger rule hh mm → ∀ d, Occurs rule hh mm d → R.calendar.Shows d

theorem once_of_run (hC : R.calendar.Forward) (hgap : NoGap R t₀) (hnew : Created t₀) {rule : CalendarRule}
    {hh mm : Int} (hat : CalendarAt R t₀.trigger rule hh mm) {h : ScheduleHistory} {t : Task}
    (hrun : (schedule R t₀).Run h t) :
    ∃ os : List LocalTime, Fired R.calendar (fun o now => Occurs rule hh mm o ∧
      ((t₀.schedule 0).policy R = "skip" → ∃ l, R.calendar.fromTimestamp now = some l ∧ o.day = l.day))
        (claimTimes h) os := by
  refine hrun.invariant (I := fun h _ => ∃ os : List LocalTime, Fired R.calendar _ (claimTimes h) os)
    ⟨[], trivial⟩ fun h t l r t' hrun hfired hstep => ?_
  obtain ⟨os, hos⟩ := hfired
  have hpolled := polled_of_run hnew hrun
  rw [claimTimes_cons]
  obtain ⟨-, ⟨now, htime, hdue, -⟩ | ⟨htime, -⟩⟩ := step_cases hstep
  · rw [htime, Option.toList_some, List.singleton_append]
    rw [hpolled.schedule_eq] at hdue
    obtain ⟨local_, o, hl, hoccurs, hafter, hcome, hskip⟩ :=
      occurs_of_due hC hat (hgap rule hh mm hat) hdue
    refine ⟨o :: os, ⟨hoccurs, fun hp => ⟨local_, hl, hskip hp⟩⟩, ?_, hcome, hos⟩
    rw [← hpolled.lastRun]
    exact hafter
  · rw [htime]
    exact ⟨os, hos⟩

theorem interval_of_run (hnew : Created t₀) {seconds : Int} (hinterval : IntervalOf R t₀.trigger seconds)
    {h : ScheduleHistory} {t : Task} (hrun : (schedule R t₀).Run h t) :
    (claimTimes h).IsChain fun later earlier => ((max 60 seconds : Int) : ℚ) ≤ later - earlier := by
  refine hrun.invariant (I := fun h _ => (claimTimes h).IsChain _) List.IsChain.nil
    fun h t l r t' hrun hchain hstep => ?_
  have hpolled := polled_of_run hnew hrun
  rw [claimTimes_cons]
  obtain ⟨-, ⟨now, htime, hdue, -⟩ | ⟨htime, -⟩⟩ := step_cases hstep
  · rw [htime, Option.toList_some, List.singleton_append]
    rw [hpolled.schedule_eq] at hdue
    have hlong := interval_of_due hinterval hdue
    refine List.isChain_cons.mpr ⟨fun earlier hhead => ?_, hchain⟩
    have hlast : (t₀.schedule t.lastRun).lastRun = earlier := by
      change t.lastRun = earlier
      rw [hpolled.lastRun, List.headD_eq_head?_getD, Option.mem_def.mp hhead]
      rfl
    rwa [hlast] at hlong
  · rw [htime]
    exact hchain

/-- **Schedules fire once per occurrence**, where the local clock runs forward and shows the occurrences. -/
theorem schedules_fire_once (hC : R.calendar.Forward) (hgap : NoGap R t₀) (hnew : Created t₀)
    {h : ScheduleHistory} {t : Task} (hrun : (schedule R t₀).Run h t) : FiresOnce R t₀ h t where
  once := fun rule hh mm hat => by
    obtain ⟨os, hos⟩ := once_of_run hC hgap hnew hat hrun
    exact ⟨os, hos.nodup, hos⟩
  latest := fun rule hh mm hat hon hlatest hfree env now l o hl ho hlast hcome => by
    have hpolled := polled_of_run hnew hrun
    have hdue := due_of_occurs (s := t₀.schedule t.lastRun) hC hat (hgap rule hh mm hat) hon hlatest hl ho
      hlast hcome
    have hid : t.id ≠ "" := by
      rw [show t.id = t₀.id from congrArg TaskSnapshot.id hpolled.settings]
      exact hnew.named
    rw [← hpolled.schedule_eq] at hdue
    simp [pollTask, claimDue, hfree, hdue, hid, bind, Except.bind, pure, Except.pure]
  interval := fun seconds hinterval => interval_of_run hnew hinterval hrun

/-- The clock of the time zone without an offset. -/
def utc : Calendar where
  fromTimestamp t := some ⟨⌊t / 86400⌋ + 3, t - ⌊t / 86400⌋ * 86400⟩
  timestamp d := (d.day - 3) * 86400 + d.second
  croniter := none

theorem utc_forward : utc.Forward := by
  intro a b s t hs ht hlt
  obtain rfl := Option.some.inj hs
  obtain rfl := Option.some.inj ht
  rw [Bool.eq_false_iff, ne_eq, LocalTime.le_iff]
  have hfloor : ⌊a / 86400⌋ ≤ ⌊b / 86400⌋ := Int.floor_le_floor (by gcongr)
  rintro (hday | ⟨hday, hsecond⟩)
  · dsimp only at hday
    omega
  · dsimp only at hday hsecond
    rw [add_right_cancel hday] at hsecond
    linarith

theorem utc_shows {d : LocalTime} (hd : d.OfDay) : utc.Shows d := by
  obtain ⟨hlow, hhigh⟩ := hd
  have hfloor : ⌊(((d.day : ℚ) - 3) * 86400 + d.second) / 86400⌋ = d.day - 3 := by
    rw [Int.floor_eq_iff]
    push_cast
    constructor
    · rw [le_div_iff₀ (by norm_num)]
      linarith
    · rw [div_lt_iff₀ (by norm_num)]
      linarith
  simp only [Calendar.Shows, utc, hfloor]
  push_cast
  simp

/-- A runtime with this clock, which reads the numbers of a time of day. -/
def utcRuntime : Runtime :=
  ⟨⟨fun _ => "", id, fun v => if v.str? = some "09" then some 9 else some 0, id, fun _ => none,
    fun _ => .ok ""⟩, utc⟩

/-- A task for nine in the morning. -/
def morningTask : Task :=
  { id := "1", name := .str "Morning", prompt := .str "Run", enabled := true, durableCheckpoints := true
    trigger := .obj [("type", .str "daily"), ("time", .str "09:00")]
    misfirePolicy := "latest", modelRoute := .obj [], cancellationEpoch := 0, lastRun := 0 }

/-- Polls at ten on two days. -/
def morningPolls : List ScheduleStep :=
  [.poll ⟨36000, fun _ => "a", none, none⟩ 36000, .settle "completed",
    .poll ⟨122400, fun _ => "b", none, none⟩ 122400]

theorem schedules_fire_once_morning : ∃ h t, claimTimes h = [122400, 36000] ∧
    CalendarAt utcRuntime morningTask.trigger .daily 9 0 ∧ FiresOnce utcRuntime morningTask h t := by
  have hnew : Created morningTask := ⟨rfl, rfl, by decide⟩
  refine ⟨_, _, ?_, ⟨⟨_, rfl, rfl, "09", "00", by decide, rfl, rfl⟩, by decide, by decide⟩,
    schedules_fire_once (R := utcRuntime) utc_forward
      (fun _ _ _ hat _ ho => utc_shows (occurs_ofDay hat.hour hat.minute ho)) hnew
      (Machine.Run.exec .start morningPolls)⟩
  decide +kernel

/-- A clock that is put forward by an hour, two hours after midnight of the first day.  A time that is left
out has the time stamp of the hour after it. -/
def springForward : Calendar where
  fromTimestamp t := utc.fromTimestamp (if t < 7200 then t else t + 3600)
  timestamp d := if utc.timestamp d < 10800 then utc.timestamp d else utc.timestamp d - 3600
  croniter := none

theorem springForward_forward : springForward.Forward := by
  intro a b s t hs ht hlt
  refine utc_forward hs ht ?_
  split_ifs <;> linarith

/-- A runtime with this clock. -/
def springRuntime : Runtime :=
  ⟨⟨fun _ => "", id, fun v => if v.str? = some "02" then some 2 else some 30, id, fun _ => none,
    fun _ => .ok ""⟩, springForward⟩

/-- A task for half past two in the night. -/
def nightTask : Task :=
  { morningTask with trigger := .obj [("type", .str "daily"), ("time", .str "02:30")] }

/-- Polls at three by the local clock, and a minute later. -/
def nightPolls : List ScheduleStep :=
  [.poll ⟨7200, fun _ => "a", none, none⟩ 7200, .settle "completed",
    .poll ⟨7260, fun _ => "b", none, none⟩ 7260]

/-- **An occurrence that the clock leaves out is claimed at every poll** until its time stamp. -/
theorem gap_claimed_twice :
    ¬ ∀ (R : Runtime) (t₀ : Task) (h : ScheduleHistory) (t : Task), R.calendar.Forward → Created t₀ →
      (schedule R t₀).Run h t → FiresOnce R t₀ h t := by
  intro hall
  have hnew : Created nightTask := ⟨rfl, rfl, by decide⟩
  have hfires := hall springRuntime nightTask _ _ springForward_forward hnew
    (Machine.Run.exec .start nightPolls)
  have hat : CalendarAt springRuntime nightTask.trigger .daily 2 30 :=
    ⟨⟨_, rfl, rfl, "02", "30", by decide, rfl, rfl⟩, by decide, by decide⟩
  obtain ⟨os, -, hfired⟩ := hfires.once .daily 2 30 hat
  have htimes : claimTimes ((schedule springRuntime nightTask).exec ([], nightTask) nightPolls).1 =
      [7260, 7200] := by decide +kernel
  rw [show (schedule springRuntime nightTask).start = nightTask from rfl, htimes] at hfired
  cases os with
  | nil => exact hfired
  | cons o os =>
      -- no half past two has its time stamp between the polls
      obtain ⟨⟨⟨hsecond, -⟩, -⟩, hafter, hcome, -⟩ := hfired
      have hstamp : utc.timestamp o = ((o.day - 3) * 86400 + 9000 : Int) := by
        show ((o.day : ℚ) - 3) * 86400 + o.second = _
        rw [hsecond]
        push_cast
        ring
      simp only [List.headD_cons, springRuntime, springForward, hstamp] at hafter hcome
      split_ifs at hafter hcome
      · have hlow : (7200 : Int) < (o.day - 3) * 86400 + 9000 := by exact_mod_cast hafter
        have hhigh : (o.day - 3) * 86400 + 9000 ≤ (7260 : Int) := by exact_mod_cast hcome
        omega
      · have hlow : (7200 : Int) < (o.day - 3) * 86400 + 9000 - 3600 := by exact_mod_cast hafter
        have hhigh : (o.day - 3) * 86400 + 9000 - 3600 ≤ (7260 : Int) := by exact_mod_cast hcome
        omega

end Automation
end VariantOne
