import TeamDigest.Proofs.Run.Published

/-!
# How far back a report reaches

A report covers the days that its command line names, or else those of the configuration.
Both are looked at before a run: there has to be one day at least.  There is no bound from
above, though, and a window can only begin on a day of the calendar.

So a window is made exactly as long as it begins in the calendar (`endingAt?_eq_some_iff`),
and it then covers the days that were asked for (`days_of_endingAt?`).  That leaves room for
some 264000 years today; with more days than that, a run ends for want of a date
(`not_reached_by_all_days`).
-/

namespace TeamDigest

open Time

namespace Window

variable {stop : Instant} {days : Nat} {w : Window}

/-- A window is made if it begins in the calendar. -/
theorem endingAt?_eq_some_iff (hstop : stop.nano < giga) :
    endingAt? stop days = some w ↔
      (firstDay ≤ stop.dayNumber - days ∧ stop.dayNumber - days ≤ lastDay) ∧
        w = ⟨⟨stop.second - days * daySeconds, stop.nano⟩, stop⟩ := by
  have hleap : ¬ (giga ≤ stop.nano ∧ -(days : Int) ≠ 0) := fun h => by omega
  have hstart : stop.second + -(days : Int) * daySeconds = stop.second - days * daySeconds := by
    rw [Int.neg_mul, Int.sub_eq_add_neg]
  have hday : Instant.dayNumber ⟨stop.second - days * daySeconds, stop.nano⟩ =
      stop.dayNumber - days := Int.sub_mul_ediv_right _ _ (by decide)
  rw [endingAt?, Instant.addDays?, if_neg hleap, hstart, Instant.inCalendar, hday]
  simp only [Bool.and_eq_true, decide_eq_true_eq]
  split
  · next hcalendar =>
    exact ⟨fun h => ⟨hcalendar, (Option.some.inj h).symm⟩, fun h => congrArg some h.2.symm⟩
  · next hcalendar => exact ⟨fun h => by simp at h, fun h => absurd h.1 hcalendar⟩

/-- A window covers the days that it is made for. -/
theorem days_of_endingAt? (hstop : stop.nano < giga) (h : endingAt? stop days = some w) :
    w.days = days := by
  obtain ⟨-, rfl⟩ := (endingAt?_eq_some_iff hstop).1 h
  have helapsed : Instant.elapsed ⟨stop.second - days * daySeconds, stop.nano⟩ stop =
      days * Instant.ofDays 1 := by
    have hstart : (⟨stop.second - days * daySeconds, stop.nano⟩ : Instant).nano < giga := hstop
    rw [Instant.elapsed_eq hstart hstop]
    simp only [Instant.ofDays, giga, daySeconds]
    omega
  rw [Window.days, helapsed, Int.mul_tdiv_cancel _ (by decide)]

end Window

namespace Run

open Host

/-- An errand covers the days of its command line. -/
theorem Errand.days_eq {e : Errand} {line : CommandLine} (he : Errand.of? line = some e) :
    e.days = line.days := by
  unfold Errand.of? at he
  unfold CommandLine.days
  cases hcommand : line.command with
  | none =>
      rw [hcommand] at he
      obtain rfl := Option.some.inj he
      rfl
  | some command =>
      rw [hcommand] at he
      cases command with
      | summary options => exact congrArg Errand.days (Option.some.inj he).symm
      | metrics options => exact congrArg Errand.days (Option.some.inj he).symm
      | _ => simp at he

/-- What has been looked at before a run leaves one day at least. -/
theorem Errand.span_pos {e : Errand} {c : Config} {line : CommandLine}
    (he : Errand.of? line = some e) (hconfig : c.validate = .ok ())
    (hline : line.fault? = none) : 0 < e.span c := by
  rw [Errand.span, Errand.days_eq he]
  refine Nat.pos_of_ne_zero fun hzero => ?_
  cases hdays : line.days with
  | none =>
      have hfault : c.fault? = some .zeroTimespan := by
        simp only [hdays, Option.getD_none] at hzero
        simp [Config.fault?, Config.numberFault?, hzero]
      simp [Config.validate, hfault] at hconfig
  | some days =>
      simp only [hdays, Option.getD_some] at hzero
      simp [CommandLine.fault?, hdays, hzero] at hline

/-- With a configuration and a command line that are in order, and before the year 3000: if the
days that are asked for begin in the calendar, then there is a window for them, which ends now
and covers just these days; and if they do not, then the run fails for want of a date. -/
theorem window_of_validated {σ : Type} {world : World machine σ} {c : Config}
    {line : CommandLine} {e : Errand} {now : Instant} {s t : σ} (hconfig : c.validate = .ok ())
    (hline : line.fault? = none) (he : Errand.of? line = some e)
    (hnow : world .now s = (.ok now, t)) (hnano : now.nano < giga)
    (huntil : now < Instant.startOf ⟨3000, 1, 1⟩) :
    if (e.span c : Int) ≤ now.dayNumber - firstDay then
      ∃ w, (windowOf (e.span c)).run world s = (.ok w, t) ∧
        w.stop = now ∧ w.start < w.stop ∧ w.days = e.span c
    else (windowOf (e.span c)).run world s = (.error .outOfCalendar, t) := by
  have hspan : 0 < e.span c := Errand.span_pos he hconfig hline
  have hrun : (windowOf (e.span c)).run world s =
      (Plan.ofOption .outOfCalendar (Window.endingAt? now (e.span c)) : Job Window).run world t :=
    Plan.run_ask_bind_of_ok hnow
  have hlast : now.dayNumber - e.span c ≤ lastDay := by
    have hmillennium : Instant.startOf ⟨3000, 1, 1⟩ = ⟨376200 * daySeconds, 0⟩ := by decide
    have hday : now.dayNumber ≤ 376200 := by
      rw [hmillennium, Instant.lt_def] at huntil
      simp only [daySeconds] at huntil
      simp only [Instant.dayNumber, daySeconds]
      omega
    have hend : lastDay = 95026236 := by decide
    omega
  rw [hrun]
  split
  · next hfirst =>
    obtain ⟨w, hw⟩ : ∃ w, Window.endingAt? now (e.span c) = some w :=
      ⟨_, (Window.endingAt?_eq_some_iff hnano).2 ⟨⟨by omega, hlast⟩, rfl⟩⟩
    refine ⟨w, by rw [hw]; rfl, ?_, ?_, Window.days_of_endingAt? hnano hw⟩
    · obtain ⟨-, rfl⟩ := (Window.endingAt?_eq_some_iff hnano).1 hw
      rfl
    · obtain ⟨-, rfl⟩ := (Window.endingAt?_eq_some_iff hnano).1 hw
      refine Instant.lt_def.2 (.inl ?_)
      simp only [daySeconds]
      omega
  · next hfirst =>
    have hnone : Window.endingAt? now (e.span c) = none := by
      refine Option.eq_none_iff_forall_ne_some.2 fun w hw => hfirst ?_
      obtain ⟨⟨hbegin, -⟩, -⟩ := (Window.endingAt?_eq_some_iff hnano).1 hw
      omega
    rw [hnone]
    rfl

/-- A digest of a number of days. -/
def lineOfDays (days : Nat) : CommandLine :=
  { config := some "config.toml", noStore := false, verbosity := 0
    command := some (.summary { DigestOptions.usual with days := some days }) }

/-- A report may begin on the first day of the calendar. -/
theorem window_of_firstDay :
    Config.standard.validate = .ok () ∧ (lineOfDays 96485180).fault? = none ∧
      ∃ w, (windowOf 96485180).run Desktop.world idleMachine = (.ok w, idleMachine) ∧
        w.stop = idleMachine.time ∧ w.start < w.stop ∧ w.days = 96485180 := by
  have hconfig : Config.standard.validate = .ok () := by decide
  have hline : (lineOfDays 96485180).fault? = none := by decide
  have h := window_of_validated hconfig hline rfl
    (rfl : Desktop.world .now idleMachine = (.ok _, idleMachine)) (by decide) (by decide)
  rw [if_pos (by decide)] at h
  exact ⟨hconfig, hline, h⟩

/-- A number of days may be in order, and a report of as many days be beyond the calendar. -/
theorem not_reached_by_all_days :
    Config.standard.validate = .ok () ∧
      CommandLine.read ["summary", "-c", "config.toml", "--days", "4294967295"] =
        .ok (lineOfDays 4294967295) ∧
      (lineOfDays 4294967295).fault? = none ∧
      Instant.startOf ⟨2000, 1, 1⟩ ≤ idleMachine.time ∧
      idleMachine.time < Instant.startOf ⟨3000, 1, 1⟩ ∧
      Window.endingAt? idleMachine.time 4294967295 = none ∧
      ((program ["summary", "-c", "config.toml", "--days", "4294967295"]).run Desktop.world
        idleMachine).1 = .ok 101 :=
  ⟨by decide, by decide +kernel, by decide, by decide, by decide, by decide, by decide +kernel⟩

end Run

end TeamDigest
