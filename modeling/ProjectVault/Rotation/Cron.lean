import ProjectVault.Js.Runtime

/-!
Validation of rotation schedules (`shared/src/validation/rotation-cron.ts`).
-/

namespace RotationCron

open Js

def minIntervalMs : ℤ := 60 * 60 * 1000

def maxSamples : ℕ := 100

def maxSampleSpanMs : ℤ := 7 * 24 * 60 * 60 * 1000

/-! ### Expressions and their occurrences -/

/-- The days after which the Gregorian calendar, its weekdays included, repeats. -/
def calendarPeriod : ℤ := 146097

/-- What a five-field expression stands for: its minutes and hours in order, and the days (counted
from the epoch) that its other three fields name. -/
structure CronFields where
  minutes : List ℕ
  hours : List ℕ
  day : ℤ → Bool
  minutes_ne : minutes ≠ []
  minutes_sorted : minutes.Pairwise (· < ·)
  minutes_lt : ∀ m ∈ minutes, m < 60
  hours_ne : hours ≠ []
  hours_sorted : hours.Pairwise (· < ·)
  hours_lt : ∀ h ∈ hours, h < 24
  day_add : ∀ d, day (d + calendarPeriod) = day d

/-- A minute of an hour of a day. -/
def clock (d : ℤ) (h m : ℕ) : ℤ := ((d * 24 + h) * 60 + m) * 60000

namespace CronFields

variable (f : CronFields)

/-- The expression occurs at a time. -/
def Occurs (t : ℤ) : Prop :=
  ∃ d h m, f.day d = true ∧ h ∈ f.hours ∧ m ∈ f.minutes ∧ t = clock d h m

/-- The first occurrence after a time. -/
def IsNext (t u : ℤ) : Prop := IsLeast {v | f.Occurs v ∧ t < v} u

/-- Two consecutive occurrences. -/
def Consecutive (t u : ℤ) : Prop := f.Occurs t ∧ f.IsNext t u

end CronFields

/-! ### The check -/

/-- The package `cron-parser`, with the time zone fixed to UTC. -/
structure CronParser where
  /-- `CronExpressionParser.parse(expr, { tz: 'UTC' })`, `none` where it throws. -/
  parse : String → Option CronFields
  /-- `interval.next()` at a time, `none` where it throws. -/
  next : CronFields → ℤ → Option ℤ

/-- The package enumerates exactly the occurrences after the current time, in order. -/
def CronParser.Enumerates (cron : CronParser) : Prop :=
  ∀ f t u, cron.next f t = some u ↔ f.IsNext t u

inductive Rejection where
  | unparseable | tooFrequent

/-- `{ ok: true }` or `{ ok: false, reason }`. -/
inductive RotationCronResult where
  | ok
  | rejected (reason : Rejection)

/-- `text.split(/\s+/)`. -/
def splitSpaces : List Char → List (List Char)
  | [] => [[]]
  | c :: cs =>
    if isTrimmable c then
      if cs.head?.any isTrimmable then splitSpaces cs else [] :: splitSpaces cs
    else (splitSpaces cs).modifyHead (c :: ·)

/-- The expression has five fields. -/
def HasFiveFields (expr : String) : Prop := (splitSpaces (trim expr).toList).length = 5

instance : DecidablePred HasFiveFields := fun expr =>
  inferInstanceAs (Decidable ((splitSpaces (trim expr).toList).length = 5))

/-- The loop over the samples. -/
def sample (next : ℤ → Option ℤ) (windowStart : ℤ) : ℕ → ℤ → RotationCronResult
  | 0, _ => .ok
  | n + 1, previous =>
    match next previous with
    | none => .rejected .unparseable
    | some current =>
      if current - previous < minIntervalMs then .rejected .tooFrequent
      else if current - windowStart > maxSampleSpanMs then .ok
      else sample next windowStart n current

/-- `validateRotationCron(expr)`, called at `now`. -/
def validateRotationCron (cron : CronParser) (now : ℤ) (expr : String) : RotationCronResult :=
  if ¬ HasFiveFields expr then .rejected .unparseable
  else
    match cron.parse expr with
    | none => .rejected .unparseable
    | some fields =>
      match cron.next fields now with
      | none => .rejected .unparseable
      | some previous => sample (cron.next fields) previous maxSamples previous

/-! ### Occurrences -/

namespace CronFields

variable {f : CronFields} {t u v : ℤ}

/-- The start of the hour of a time. -/
def hourStart (t : ℤ) : ℤ := t / minIntervalMs * minIntervalMs

lemma clock_eq (d : ℤ) (h m : ℕ) : clock d h m = (d * 24 + h) * minIntervalMs + m * 60000 := by
  rw [clock, minIntervalMs]
  ring

lemma hourStart_clock {d : ℤ} {h m : ℕ} (hm : m < 60) :
    hourStart (clock d h m) = (d * 24 + h) * minIntervalMs := by
  rw [hourStart, clock_eq, minIntervalMs]
  omega

/-- An occurrence is a minute behind the start of its hour, and each minute of the expression
behind that start is an occurrence. -/
lemma Occurs.hour (ht : f.Occurs t) :
    (∃ m ∈ f.minutes, t = hourStart t + m * 60000) ∧
      ∀ m ∈ f.minutes, f.Occurs (hourStart t + m * 60000) := by
  obtain ⟨d, h, m, hd, hh, hm, rfl⟩ := ht
  rw [hourStart_clock (f.minutes_lt m hm)]
  exact ⟨⟨m, hm, clock_eq d h m⟩, fun n hn => ⟨d, h, n, hd, hh, hn, (clock_eq d h n).symm⟩⟩

/-- The calendar repeats. -/
lemma Occurs.add_period (ht : f.Occurs t) (n : ℕ) :
    f.Occurs (t + n * (calendarPeriod * 24 * minIntervalMs)) := by
  obtain ⟨d, h, m, hd, hh, hm, rfl⟩ := ht
  have hday : f.day (d + n * calendarPeriod) = true := by
    induction n with
    | zero => simpa using hd
    | succ n ih =>
      rw [show d + (n + 1 : ℕ) * calendarPeriod = d + n * calendarPeriod + calendarPeriod by
        push_cast
        ring, f.day_add]
      exact ih
  refine ⟨d + n * calendarPeriod, h, m, hday, hh, hm, ?_⟩
  rw [clock_eq, clock_eq]
  ring

/-- Behind every time there is an occurrence, if there is one at all. -/
lemma Occurs.exists_isNext (ht : f.Occurs t) (now : ℤ) : ∃ u, f.IsNext now u := by
  have hbound : ∀ v, f.Occurs v ∧ now < v → now ≤ v := fun v hv => hv.2.le
  have hlater : f.Occurs (t + (now - t).toNat.succ * (calendarPeriod * 24 * minIntervalMs)) ∧
      now < t + (now - t).toNat.succ * (calendarPeriod * 24 * minIntervalMs) := by
    refine ⟨ht.add_period _, ?_⟩
    rw [calendarPeriod, minIntervalMs]
    push_cast
    omega
  obtain ⟨u, hu, hle⟩ := Int.exists_least_of_bdd ⟨now, hbound⟩ ⟨_, hlater⟩
  exact ⟨u, hu, fun v hv => hle v hv⟩

lemma IsNext.lt (h : f.IsNext t u) : t < u := h.1.2

lemma IsNext.occurs (h : f.IsNext t u) : f.Occurs u := h.1.1

lemma IsNext.le (h : f.IsNext t u) (hv : f.Occurs v) (htv : t < v) : u ≤ v := h.2 ⟨hv, htv⟩

/-- With a single minute the occurrences are whole hours apart. -/
lemma minInterval_le (hone : f.minutes.length = 1) (ht : f.Occurs t) (hu : f.Occurs u)
    (hlt : t < u) : minIntervalMs ≤ u - t := by
  obtain ⟨m, hm⟩ := List.length_eq_one_iff.1 hone
  obtain ⟨⟨m₁, h₁, heq₁⟩, -⟩ := ht.hour
  obtain ⟨⟨m₂, h₂, heq₂⟩, -⟩ := hu.hour
  rw [hm, List.mem_singleton] at h₁ h₂
  subst h₁ h₂
  rw [hourStart, minIntervalMs] at heq₁ heq₂
  rw [minIntervalMs]
  omega

/-- With two minutes every occurrence has another one in its hour. -/
lemma Occurs.exists_near (ht : f.Occurs t) (htwo : f.minutes.length ≠ 1) :
    ∃ v, f.Occurs v ∧ hourStart t ≤ v ∧ v < hourStart t + minIntervalMs ∧ v ≠ t := by
  obtain ⟨⟨m, hm, heq⟩, hall⟩ := ht.hour
  obtain ⟨n, hn, hne⟩ : ∃ n ∈ f.minutes, n ≠ m := by
    by_contra hcon
    push Not at hcon
    have hrep := List.eq_replicate_of_mem hcon
    have hsorted := f.minutes_sorted
    rw [hrep, List.pairwise_replicate] at hsorted
    have := List.length_pos_iff.2 f.minutes_ne
    rcases hsorted with hle | hlt
    · omega
    · exact absurd hlt (lt_irrefl m)
  have hlt := f.minutes_lt n hn
  refine ⟨hourStart t + n * 60000, hall n hn, by omega, ?_, ?_⟩
  · rw [minIntervalMs]
    omega
  · omega

end CronFields

/-! ### The verdict -/

section Verdict

variable {cron : CronParser} {f : CronFields} {expr : String}

lemma isNext_of_next (hcron : cron.Enumerates) {t u : ℤ} (h : cron.next f t = some u) :
    f.IsNext t u :=
  (hcron f t u).1 h

lemma next_eq_none (hcron : cron.Enumerates) (hnever : ∀ t, ¬ f.Occurs t) (t : ℤ) :
    cron.next f t = none :=
  Option.eq_none_iff_forall_ne_some.2 fun u hu => hnever u (isNext_of_next hcron hu).occurs

lemma exists_next (hcron : cron.Enumerates) {t : ℤ} (ht : f.Occurs t) (now : ℤ) :
    ∃ u, cron.next f now = some u := by
  obtain ⟨u, hu⟩ := ht.exists_isNext now
  exact ⟨u, (hcron f now u).2 hu⟩

/-- A schedule with one minute an hour passes the loop. -/
lemma sample_ok (hcron : cron.Enumerates) (hone : f.minutes.length = 1) (start : ℤ) (n : ℕ)
    {previous : ℤ} (hprevious : f.Occurs previous) :
    sample (cron.next f) start n previous = .ok := by
  induction n generalizing previous with
  | zero => rfl
  | succ n ih =>
    obtain ⟨current, hcurrent⟩ := exists_next hcron hprevious previous
    have hnext := isNext_of_next hcron hcurrent
    have hgap := CronFields.minInterval_le hone hprevious hnext.occurs hnext.lt
    simp only [sample, hcurrent]
    rw [if_neg (by omega)]
    split_ifs
    · rfl
    · exact ih hnext.occurs

/-- Two minutes in an hour are found at the second or third sample, unless the second one is far
away. -/
lemma sample_tooFrequent (hcron : cron.Enumerates) (htwo : f.minutes.length ≠ 1) {t : ℤ}
    (ht : f.Occurs t) (hnear : ∀ u, f.IsNext t u → u - t ≤ maxSampleSpanMs) (n : ℕ) :
    sample (cron.next f) t (n + 2) t = .rejected .tooFrequent := by
  obtain ⟨u, hu⟩ := exists_next hcron ht t
  have hnext := isNext_of_next hcron hu
  simp only [sample, hu]
  by_cases hgap : u - t < minIntervalMs
  · rw [if_pos hgap]
  rw [if_neg hgap, if_neg (by have := hnear u hnext; omega)]
  -- the second sample is the first one of its hour, so the third one lies in the same hour
  obtain ⟨w, hw⟩ := exists_next hcron ht u
  obtain ⟨v, hv, hlow, hhigh, hne⟩ := hnext.occurs.exists_near htwo
  have hstart : CronFields.hourStart u ≤ u ∧ u < CronFields.hourStart u + minIntervalMs := by
    rw [CronFields.hourStart, minIntervalMs]
    omega
  have hafter : u < v := by
    have := hnext.le hv
    omega
  have hwv := (isNext_of_next hcron hw).le hv hafter
  simp only [hw]
  rw [if_pos (by omega)]

/-- A sample right behind the first one is refused. -/
lemma sample_near {t u : ℤ} (hu : cron.next f t = some u) (hnear : u - t < minIntervalMs) (n : ℕ) :
    sample (cron.next f) t (n + 1) t = .rejected .tooFrequent := by
  simp only [sample, hu]
  rw [if_pos hnear]

/-- A long pause behind the first sample ends the loop. -/
lemma sample_far {t u : ℤ} (hu : cron.next f t = some u) (hfar : maxSampleSpanMs < u - t) (n : ℕ) :
    sample (cron.next f) t (n + 1) t = .ok := by
  have hlong : minIntervalMs ≤ u - t := by
    rw [maxSampleSpanMs] at hfar
    rw [minIntervalMs]
    omega
  simp only [sample, hu]
  rw [if_neg (by omega), if_pos hfar]

/-- **The verdict on an expression is right and does not change**: what is accepted never occurs
twice within an hour, and every time of evaluation gives the same verdict. -/
structure VerdictHolds (cron : CronParser) (expr : String) : Prop where
  apart : ∀ now, validateRotationCron cron now expr = .ok → ∀ f, cron.parse expr = some f →
    ∀ t u, f.Consecutive t u → minIntervalMs ≤ u - t
  constant : ∀ now now', validateRotationCron cron now expr = validateRotationCron cron now' expr

lemma VerdictHolds.of_rejected {reason : Rejection}
    (h : ∀ now, validateRotationCron cron now expr = .rejected reason) :
    VerdictHolds cron expr where
  apart now hok := by
    rw [h now] at hok
    cases hok
  constant now now' := (h now).trans (h now').symm

/-- One minute an hour, or never more than the span of the samples between two occurrences. -/
def CronFields.Sampled (f : CronFields) : Prop :=
  f.minutes.length = 1 ∨ ∀ t u, f.Consecutive t u → u - t ≤ maxSampleSpanMs

lemma validateRotationCron_eq (hfive : HasFiveFields expr) (hparse : cron.parse expr = some f)
    (now : ℤ) : validateRotationCron cron now expr =
      match cron.next f now with
      | none => .rejected .unparseable
      | some previous => sample (cron.next f) previous maxSamples previous := by
  rw [validateRotationCron, if_neg (not_not.2 hfive), hparse]

/-- A schedule with a long pause passes right before the pause. -/
lemma validateRotationCron_beforePause (hcron : cron.Enumerates) (hfive : HasFiveFields expr)
    (hparse : cron.parse expr = some f) {t u : ℤ} (htu : f.Consecutive t u)
    (hfar : maxSampleSpanMs < u - t) : validateRotationCron cron (t - 1) expr = .ok := by
  have hfirst : cron.next f (t - 1) = some t :=
    (hcron f (t - 1) t).2 ⟨⟨htu.1, by omega⟩, fun v hv => by have := hv.2; omega⟩
  have hsecond : cron.next f t = some u := (hcron f t u).2 htu.2
  rw [validateRotationCron_eq hfive hparse, hfirst]
  exact sample_far hsecond hfar 99

/-- A schedule with two minutes an hour and a long pause is accepted although it is too
frequent. -/
lemma not_verdictHolds_of_pause (hcron : cron.Enumerates) (hfive : HasFiveFields expr)
    (hparse : cron.parse expr = some f) (htwo : f.minutes.length ≠ 1) {t u : ℤ}
    (htu : f.Consecutive t u) (hfar : maxSampleSpanMs < u - t) : ¬ VerdictHolds cron expr := by
  intro hholds
  -- the other occurrence in the hour of `t` lies before it
  obtain ⟨v, hv, hlow, hhigh, hne⟩ := htu.1.exists_near htwo
  have hstart : CronFields.hourStart t ≤ t ∧ t < CronFields.hourStart t + minIntervalMs := by
    rw [CronFields.hourStart, minIntervalMs]
    omega
  have hbefore : v < t := by
    by_contra hafter
    have := htu.2.le hv (by omega)
    rw [maxSampleSpanMs] at hfar
    rw [minIntervalMs] at hhigh hstart
    omega
  obtain ⟨w, hw⟩ := hv.exists_isNext v
  have hok := validateRotationCron_beforePause hcron hfive hparse htu hfar
  have hgap := hholds.apart _ hok f hparse v w ⟨hv, hw⟩
  have hwt := hw.le htu.1 hbefore
  omega

/-- A schedule that is sampled as it is gets the right verdict. -/
lemma verdictHolds_of_sampled (hcron : cron.Enumerates) (hfive : HasFiveFields expr)
    (hparse : cron.parse expr = some f) (hsampled : f.Sampled) : VerdictHolds cron expr := by
  have heq := validateRotationCron_eq hfive hparse
  by_cases hnever : ∀ t, ¬ f.Occurs t
  · exact .of_rejected fun now => by rw [heq, next_eq_none hcron hnever]
  push Not at hnever
  obtain ⟨t₀, ht₀⟩ := hnever
  by_cases hone : f.minutes.length = 1
  · have hverdict : ∀ now, validateRotationCron cron now expr = .ok := by
      intro now
      obtain ⟨u, hu⟩ := exists_next hcron ht₀ now
      rw [heq, hu]
      exact sample_ok hcron hone u maxSamples (isNext_of_next hcron hu).occurs
    refine ⟨fun now _ g hg t u htu => ?_, fun now now' => (hverdict now).trans (hverdict now').symm⟩
    obtain rfl := Option.some.inj (hparse.symm.trans hg)
    exact CronFields.minInterval_le hone htu.1 htu.2.occurs htu.2.lt
  · refine @VerdictHolds.of_rejected _ _ .tooFrequent fun now => ?_
    obtain ⟨u, hu⟩ := exists_next hcron ht₀ now
    have hoccurs := (isNext_of_next hcron hu).occurs
    rw [heq, hu]
    exact sample_tooFrequent hcron hone hoccurs
      (fun w hw => (hsampled.resolve_left hone) u w ⟨hoccurs, hw⟩) 98

/-- **When the check of a schedule is right**: for a five-field expression the verdict is sound and
the same at every time exactly if the expression names one minute an hour or never pauses for
longer than the span of the samples. -/
theorem validateRotationCron_iff (hcron : cron.Enumerates) (expr : String)
    (hfive : HasFiveFields expr) :
    VerdictHolds cron expr ↔ ∀ f, cron.parse expr = some f → f.Sampled := by
  constructor
  · intro hholds f hparse
    refine or_iff_not_imp_left.2 fun htwo t u htu => ?_
    by_contra hfar
    exact not_verdictHolds_of_pause hcron hfive hparse htwo htu (not_le.1 hfar) hholds
  · intro hsampled
    cases hparse : cron.parse expr with
    | none =>
      refine @VerdictHolds.of_rejected _ _ .unparseable fun now => ?_
      rw [validateRotationCron, if_neg (not_not.2 hfive), hparse]
    | some f => exact verdictHolds_of_sampled hcron hfive hparse (hsampled f hparse)

end Verdict

/-! ### Two schedules -/

/-- The month and the day of the month of a day counted from the epoch. -/
def civil (d : ℤ) : ℤ × ℤ :=
  let doe := (d + 719468) % calendarPeriod
  let yoe := (doe - doe / 1460 + doe / 36524 - doe / 146096) / 365
  let doy := doe - (365 * yoe + yoe / 4 - yoe / 100)
  let mp := (5 * doy + 2) / 153
  (if mp < 10 then mp + 3 else mp - 9, doy - (153 * mp + 2) / 5 + 1)

lemma civil_add (d : ℤ) : civil (d + calendarPeriod) = civil d := by
  have hdoe : (d + calendarPeriod + 719468) % calendarPeriod = (d + 719468) % calendarPeriod := by
    rw [add_right_comm, Int.add_emod_right]
  rw [civil, civil, hdoe]

/-- `0,30 0 1 1 *`. -/
def newYears : CronFields where
  minutes := [0, 30]
  hours := [0]
  day d := civil d = (1, 1)
  minutes_ne := by decide
  minutes_sorted := by decide
  minutes_lt := by decide
  hours_ne := by decide
  hours_sorted := by decide
  hours_lt := by decide
  day_add d := by rw [civil_add]

/-- `0 3 1 * *`. -/
def monthly : CronFields where
  minutes := [0]
  hours := [3]
  day d := (civil d).2 = 1
  minutes_ne := by decide
  minutes_sorted := by decide
  minutes_lt := by decide
  hours_ne := by decide
  hours_sorted := by decide
  hours_lt := by decide
  day_add d := by rw [civil_add]

open Classical in
/-- The first occurrence after a time, where there is one. -/
noncomputable def CronFields.next (f : CronFields) (t : ℤ) : Option ℤ :=
  if h : ∃ u, f.IsNext t u then some h.choose else none

/-- A parser of these two expressions. -/
noncomputable def smallCron : CronParser where
  parse expr :=
    if expr = "0,30 0 1 1 *" then some newYears
    else if expr = "0 3 1 * *" then some monthly else none
  next := CronFields.next

lemma smallCron_enumerates : smallCron.Enumerates := by
  intro f t u
  change f.next t = some u ↔ f.IsNext t u
  rw [CronFields.next]
  split_ifs with hex
  · rw [Option.some.injEq]
    exact ⟨fun hu => hu ▸ hex.choose_spec, fun hu => hex.choose_spec.unique hu⟩
  · exact ⟨fun hu => absurd hu (by simp), fun hu => (hex ⟨u, hu⟩).elim⟩

theorem validateRotationCron_iff_monthly : VerdictHolds smallCron "0 3 1 * *" := by
  refine (validateRotationCron_iff smallCron_enumerates "0 3 1 * *" (by decide)).2 fun f hf => ?_
  have hparse : smallCron.parse "0 3 1 * *" = some monthly := rfl
  obtain rfl := Option.some.inj (hparse.symm.trans hf)
  exact .inl rfl

lemma newYears_occurs {d : ℤ} {m : ℕ} (hd : civil d = (1, 1)) (hm : m ∈ [0, 30]) :
    newYears.Occurs (clock d 0 m) :=
  ⟨d, 0, m, decide_eq_true hd, List.mem_singleton_self 0, hm, rfl⟩

/-- From half an hour before the second minute of the year the next occurrence but one is a year
away. -/
lemma newYears_pause : newYears.Consecutive (clock 0 0 30) (clock 365 0 0) := by
  have hdays : ∀ n < 364, civil ((n : ℕ) + 1 : ℤ) ≠ (1, 1) := by decide +kernel
  refine ⟨newYears_occurs (by decide) (by decide), ⟨newYears_occurs (by decide) (by decide),
    by decide⟩, ?_⟩
  rintro v ⟨⟨d, h, m, hd, hh, hm, rfl⟩, hlt⟩
  rw [List.mem_singleton.1 hh] at hlt ⊢
  have hm60 := newYears.minutes_lt m hm
  by_contra hle
  rw [CronFields.clock_eq, CronFields.clock_eq, minIntervalMs] at hlt hle
  have hm' : m = 0 ∨ m = 30 := by simpa [newYears] using hm
  obtain ⟨n, rfl⟩ : ∃ n : ℕ, d = n + 1 := ⟨(d - 1).toNat, by omega⟩
  exact hdays n (by omega) (of_decide_eq_true hd)

/-- **A schedule of two times within half an hour is accepted** by a call between the two, and
refused by every call before the first one. -/
theorem newYears_accepted : smallCron.Enumerates ∧ HasFiveFields "0,30 0 1 1 *" ∧
    validateRotationCron smallCron (clock 0 0 30 - 1) "0,30 0 1 1 *" = .ok ∧
    validateRotationCron smallCron (clock 0 0 0 - 1) "0,30 0 1 1 *" = .rejected .tooFrequent ∧
    ¬ VerdictHolds smallCron "0,30 0 1 1 *" := by
  have hfive : HasFiveFields "0,30 0 1 1 *" := by decide
  have hparse : smallCron.parse "0,30 0 1 1 *" = some newYears := rfl
  have hfar : maxSampleSpanMs < clock 365 0 0 - clock 0 0 30 := by decide
  refine ⟨smallCron_enumerates, hfive, ?_, ?_, ?_⟩
  · exact validateRotationCron_beforePause smallCron_enumerates hfive hparse newYears_pause hfar
  · have hoccurs : newYears.Occurs (clock 0 0 0) := newYears_occurs (by decide) (by decide)
    have hfirst : smallCron.next newYears (clock 0 0 0 - 1) = some (clock 0 0 0) :=
      (smallCron_enumerates _ _ _).2 ⟨⟨hoccurs, by omega⟩, fun v hv => by have := hv.2; omega⟩
    obtain ⟨w, hw⟩ := exists_next smallCron_enumerates hoccurs (clock 0 0 0)
    have hle : w ≤ clock 0 0 30 := (isNext_of_next smallCron_enumerates hw).le
      (newYears_occurs (by decide) (by decide)) (by decide)
    have hnear : clock 0 0 30 - clock 0 0 0 < minIntervalMs := by decide
    rw [validateRotationCron_eq hfive hparse, hfirst]
    exact sample_near hw (by omega) 99
  · exact not_verdictHolds_of_pause smallCron_enumerates hfive hparse (by decide) newYears_pause hfar

end RotationCron
