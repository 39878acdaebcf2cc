import TeamDigest.Proofs.Rollup.Plans
import Mathlib.Data.List.Induction

/-!
# A store in the course of time

What a store answers depends on all that happened to it: a rollup leaves it when it
is set anew, when everything is cleared, when a cleanup sweeps it out, or when a get
comes across it too late.  How long is too long changes whenever the store is opened
with another lifetime.

An `Event` is a step with its moment.  `Stands` tells of a rollup, from the events
alone, that it was set at some moment and that everything since spares it.  One event
keeps the two views of a store together (`held?_take`), and so do all of them
(`held?_after`): the entries that can be read from the store are what `Stands` tells of,
provided that the clock shows instants of the calendar.  Others have no text that could be
read again.

With a fixed lifetime and a clock that does not go backwards, whatever a get or a
cleanup throws away would not be returned later on either, so these steps make no
difference to what can be got (`stands_filter_iff`).
-/

namespace TeamDigest.Rollup

open Time

/-! ## Events -/

/-- A step with the moment at which it is taken. -/
structure Event where
  time : Instant
  step : Step

/-- Holds of the steps of somebody who works with the store itself: everything but
recalling a rollup of a text and putting raw bytes under a key. -/
def Step.isPlain : Step → Bool
  | .set _ _ | .get _ | .clear | .cleanup | .reopen _ => true
  | .insertRaw _ _ | .rollup _ _ => false

/-- Holds of the steps that throw away what has expired and change nothing else. -/
def Step.isLook : Step → Bool
  | .get _ | .cleanup => true
  | _ => false

def Desk.take (d : Desk) (e : Event) : Except Error Outcome × Desk :=
  d.step (fun _ => e.time) e.step

def Desk.after (d : Desk) (events : List Event) : Desk :=
  events.foldl (fun d e => (d.take e).2) d

@[simp] theorem Desk.after_nil (d : Desk) : d.after [] = d := rfl

@[simp] theorem Desk.after_concat (d : Desk) (events : List Event) (e : Event) :
    d.after (events ++ [e]) = ((d.after events).take e).2 := by
  simp [Desk.after]

/-- The lifetime after several events: the one with which the store was opened last. -/
def lifetimeAfter (lifetime : Nat) (events : List Event) : Nat :=
  events.foldl (fun lifetime e => match e.step with
    | .reopen other => other
    | _ => lifetime) lifetime

/-- The event spares a rollup that was stored under the key. -/
structure Event.Spares (e : Event) (lifetime : Nat) (key : String) (stored : Instant) : Prop where
  not_clear : e.step ≠ .clear
  not_set : ∀ rollup, e.step ≠ .set key rollup
  in_time : e.step = .get key ∨ e.step = .cleanup →
    Instant.elapsed stored e.time ≤ Instant.ofHours lifetime

/-- The rollup was set under the key at the moment `stored`, and all events since
then spare it. -/
def Stands (lifetime : Nat) (events : List Event) (key rollup : String) (stored : Instant) :
    Prop :=
  ∃ earlier later, events = earlier ++ ⟨stored, .set key rollup⟩ :: later ∧
    ∀ between e rest, later = between ++ e :: rest →
      e.Spares (lifetimeAfter lifetime (earlier ++ ⟨stored, .set key rollup⟩ :: between)) key stored

variable {lifetime : Nat} {events : List Event} {e : Event} {key rollup : String}
  {stored : Instant} {d : Desk}

theorem not_stands_nil : ¬ Stands lifetime [] key rollup stored := by
  rintro ⟨earlier, later, hevents, -⟩
  simp at hevents

/-- With one more event a rollup stands if that sets it, or if it stood before and is
spared. -/
theorem stands_concat : Stands lifetime (events ++ [e]) key rollup stored ↔
    e = ⟨stored, .set key rollup⟩ ∨
      (Stands lifetime events key rollup stored ∧
        e.Spares (lifetimeAfter lifetime events) key stored) := by
  constructor
  -- The last event is either the set itself or one of those that came after it.
  · rintro ⟨earlier, later, hevents, hspares⟩
    rcases List.eq_nil_or_concat later with rfl | ⟨later, last, rfl⟩
    · exact .inl (List.singleton_inj.1 (List.append_inj' hevents rfl).2)
    · rw [List.concat_eq_append, ← List.cons_append, ← List.append_assoc] at hevents
      obtain ⟨rfl, hlast⟩ := List.append_inj' hevents rfl
      obtain rfl : e = last := List.singleton_inj.1 hlast
      refine .inr ⟨⟨earlier, later, rfl, fun between other rest hlater => ?_⟩, ?_⟩
      · exact hspares between other (rest ++ [e]) (by simp [hlater])
      · exact hspares later e [] (by simp)
  · rintro (rfl | ⟨⟨earlier, later, rfl, hspares⟩, hlast⟩)
    · exact ⟨events, [], rfl, by simp⟩
    · refine ⟨earlier, later ++ [e], by simp, fun between other rest hlater => ?_⟩
      rcases List.eq_nil_or_concat rest with rfl | ⟨rest, last, rfl⟩
      · obtain ⟨rfl, hsame⟩ := List.append_inj' hlater rfl
        obtain rfl : e = other := List.singleton_inj.1 hsame
        exact hlast
      · refine hspares between other rest ?_
        rw [List.concat_eq_append, ← List.cons_append, ← List.append_assoc] at hlater
        exact (List.append_inj' hlater rfl).1

/-! ## One event -/

@[simp] theorem spares_set {now : Instant} {other written : String} :
    Event.Spares ⟨now, .set other written⟩ lifetime key stored ↔ other ≠ key := by
  constructor
  · rintro ⟨-, hset, -⟩ rfl
    exact hset written rfl
  · exact fun hother => ⟨by simp, by simp [hother], by simp⟩

@[simp] theorem spares_get {now : Instant} {other : String} :
    Event.Spares ⟨now, .get other⟩ lifetime key stored ↔
      (other = key → Instant.elapsed stored now ≤ Instant.ofHours lifetime) := by
  constructor
  · rintro ⟨-, -, htime⟩ rfl
    exact htime (.inl rfl)
  · exact fun htime => ⟨by simp, by simp, by simpa using htime⟩

@[simp] theorem not_spares_clear {now : Instant} :
    ¬ Event.Spares ⟨now, .clear⟩ lifetime key stored :=
  fun hspares => hspares.not_clear rfl

@[simp] theorem spares_cleanup {now : Instant} :
    Event.Spares ⟨now, .cleanup⟩ lifetime key stored ↔
      Instant.elapsed stored now ≤ Instant.ofHours lifetime :=
  ⟨fun hspares => hspares.in_time (.inr rfl), fun htime => ⟨by simp, by simp, fun _ => htime⟩⟩

@[simp] theorem spares_reopen {now : Instant} {other : Nat} :
    Event.Spares ⟨now, .reopen other⟩ lifetime key stored :=
  ⟨by simp, by simp, by simp⟩

/-- One event keeps what can be read from the store in step with what is told of it. -/
theorem held?_take (hplain : e.step.isPlain = true) (hcalendar : e.time.OfCalendar) :
    (d.take e).2.store.held? key = some ⟨rollup, stored⟩ ↔
      e = ⟨stored, .set key rollup⟩ ∨
        (d.store.held? key = some ⟨rollup, stored⟩ ∧ e.Spares d.lifetime key stored) := by
  obtain ⟨now, step⟩ := e
  cases step with
  | set other written =>
      rw [Desk.take, step_set, Store.held?_insert_write hcalendar]
      by_cases hkey : key = other
      · simp [hkey, and_comm, eq_comm]
      · simp [hkey, Ne.symm hkey]
  | get other =>
      rw [Desk.take, Store.held?, find?_step_get]
      by_cases hkey : key = other
      · subst hkey
        rw [if_pos rfl, Store.bind_read?_filter]
        simp [Store.held?, isExpired_eq_false_iff]
      · simp [hkey, Ne.symm hkey, Store.held?]
  | clear => simp [Desk.take, step_clear, Store.held?]
  | cleanup =>
      rw [Desk.take, Store.held?, find?_step_cleanup, Store.bind_read?_filter]
      simp [Store.held?, isExpired_eq_false_iff]
  | reopen other => simp [Desk.take, Desk.step]
  | insertRaw other bytes => simp [Step.isPlain] at hplain
  | rollup text reply => simp [Step.isPlain] at hplain

/-- All slots of the store can be read. -/
def Readable (s : Store) : Prop :=
  ∀ key bytes, s.find? key = some bytes → ∃ entry, Entry.read? bytes = some entry

theorem readable_take (hplain : e.step.isPlain = true) (hcalendar : e.time.OfCalendar)
    (hreadable : Readable d.store) : Readable (d.take e).2.store := by
  intro other bytes hfind
  obtain ⟨now, step⟩ := e
  cases step with
  | set key rollup =>
      rw [Desk.take, step_set, Store.find?_insert] at hfind
      split at hfind
      · exact ⟨_, Option.some.inj hfind ▸ Entry.read?_write hcalendar⟩
      · exact hreadable other bytes hfind
  | get key =>
      rw [Desk.take, find?_step_get] at hfind
      split at hfind
      · next hkey => exact hreadable key bytes (Option.filter_eq_some_iff.1 hfind).1
      · exact hreadable other bytes hfind
  | clear => simp [Desk.take, step_clear] at hfind
  | cleanup =>
      rw [Desk.take, find?_step_cleanup] at hfind
      exact hreadable other bytes (Option.filter_eq_some_iff.1 hfind).1
  | reopen lifetime => exact hreadable other bytes hfind
  | insertRaw key bytes => simp [Step.isPlain] at hplain
  | rollup text reply => simp [Step.isPlain] at hplain

/-! ## Histories as events -/

/-- No time passes while the clock is looked at in the course of the step. -/
def Desk.Pauses (d : Desk) (clock : Nat → Instant) (s : Step) : Prop :=
  ∀ look < (d.step clock s).2.looks, d.looks ≤ look → clock look = clock d.looks

/-- No time passes in the course of any of the steps. -/
def Desk.PausesThrough (clock : Nat → Instant) : Desk → List Step → Prop
  | _, [] => True
  | d, s :: steps => d.Pauses clock s ∧ (d.step clock s).2.PausesThrough clock steps

/-- Where no time passes, it does not matter how often the clock is looked at. -/
theorem step_eq_take {clock : Nat → Instant} {s : Step} (hplain : s.isPlain = true)
    (hpauses : d.Pauses clock s) : d.step clock s = d.take ⟨clock d.looks, s⟩ := by
  cases s with
  | get key => rw [Desk.take, step_get, step_get]
  | cleanup =>
      have hstill : ∀ n < d.store.entries, clock (d.looks + n) = clock d.looks := by
        intro n hn
        refine hpauses _ ?_ (Nat.le_add_right _ _)
        rw [step_cleanup]
        exact Nat.add_lt_add_left hn _
      rw [Desk.take, step_cleanup, step_cleanup, Store.swept_eq_filter hstill,
        Store.swept_eq_filter fun _ _ => rfl]
  | set key rollup => rfl
  | clear => rfl
  | reopen other => rfl
  | insertRaw key bytes => simp [Step.isPlain] at hplain
  | rollup text reply => simp [Step.isPlain] at hplain

def Desk.timed (clock : Nat → Instant) : Desk → List Step → List Event
  | _, [] => []
  | d, s :: steps => ⟨clock d.looks, s⟩ :: (d.step clock s).2.timed clock steps

/-- A history goes through the events that are its steps with their moments. -/
theorem history_getElem? {clock : Nat → Instant} {steps : List Step}
    (hplain : ∀ s ∈ steps, s.isPlain = true) (hpauses : d.PausesThrough clock steps) (i : Nat) :
    (d.history clock steps)[i]? = (d.timed clock steps)[i]?.map fun e =>
      (d.after ((d.timed clock steps).take i)).take e := by
  induction steps generalizing d i with
  | nil => simp [Desk.history, Desk.timed]
  | cons s steps ih =>
      obtain ⟨hs, hsteps⟩ := List.forall_mem_cons.1 hplain
      obtain ⟨hpausesHere, hpausesRest⟩ := hpauses
      have hstep := step_eq_take hs hpausesHere
      cases i with
      | zero => simp [Desk.history, Desk.timed, hstep]
      | succ i =>
          have htail := ih hsteps hpausesRest i
          simpa [Desk.history, Desk.timed, Desk.after, hstep] using htail

/-! ## All events -/

@[simp] theorem lifetimeAfter_concat : lifetimeAfter lifetime (events ++ [e]) =
    match e.step with
      | .reopen other => other
      | _ => lifetimeAfter lifetime events := by
  simp [lifetimeAfter]

theorem lifetime_after :
    ((Desk.fresh lifetime).after events).lifetime = lifetimeAfter lifetime events := by
  induction events using List.reverseRecOn with
  | nil => rfl
  | append_singleton events e ih =>
      have hstep := lifetime_step (fun _ => e.time) ((Desk.fresh lifetime).after events) e.step
      rw [ih] at hstep
      rw [Desk.after_concat, lifetimeAfter_concat]
      exact hstep

theorem readable_after (hplain : ∀ e ∈ events, e.step.isPlain = true)
    (hcalendar : ∀ e ∈ events, e.time.OfCalendar) :
    Readable ((Desk.fresh lifetime).after events).store := by
  induction events using List.reverseRecOn with
  | nil => exact fun key bytes hfind => by simp [Desk.fresh] at hfind
  | append_singleton events e ih =>
      obtain ⟨hevents, he⟩ := List.forall_mem_append.1 hplain
      obtain ⟨hcalendarEvents, hcalendarLast⟩ := List.forall_mem_append.1 hcalendar
      rw [Desk.after_concat]
      exact readable_take (he e List.mem_cons_self) (hcalendarLast e List.mem_cons_self)
        (ih hevents hcalendarEvents)

/-- What can be read from the store is what was set and spared by all events since. -/
theorem held?_after (hplain : ∀ e ∈ events, e.step.isPlain = true)
    (hcalendar : ∀ e ∈ events, e.time.OfCalendar) :
    ((Desk.fresh lifetime).after events).store.held? key = some ⟨rollup, stored⟩ ↔
      Stands lifetime events key rollup stored := by
  induction events using List.reverseRecOn with
  | nil => simp [Desk.fresh, Store.held?, not_stands_nil]
  | append_singleton events e ih =>
      obtain ⟨hevents, he⟩ := List.forall_mem_append.1 hplain
      obtain ⟨hcalendarEvents, hcalendarLast⟩ := List.forall_mem_append.1 hcalendar
      rw [Desk.after_concat,
        held?_take (he e List.mem_cons_self) (hcalendarLast e List.mem_cons_self),
        ih hevents hcalendarEvents, lifetime_after, stands_concat]

/-- A get from a store that can be read does not fail, and returns exactly a rollup that has
not expired. -/
theorem exists_take_get (hreadable : Readable d.store) (now : Instant) (key : String) :
    ∃ answer, (d.take ⟨now, .get key⟩).1 = .ok (.rollup? answer) ∧
      ∀ rollup, answer = some rollup ↔ ∃ stored, d.store.held? key = some ⟨rollup, stored⟩ ∧
        Instant.elapsed stored now ≤ Instant.ofHours d.lifetime := by
  rw [Desk.take, step_get, Store.held?]
  cases hfind : d.store.find? key with
  | none => exact ⟨none, rfl, by simp⟩
  | some bytes =>
      obtain ⟨⟨found, storedAt⟩, hread⟩ := hreadable key bytes hfind
      rw [Option.bind_some, hread]
      cases hexpired : Entry.isExpired ⟨found, storedAt⟩ d.lifetime now with
      | true =>
          refine ⟨none, by simp [hread, hexpired], fun rollup => ?_⟩
          constructor
          · simp
          · rintro ⟨stored, hsame, hfresh⟩
            obtain ⟨rfl, rfl⟩ : found = rollup ∧ storedAt = stored := by simpa using hsame
            exact absurd (hexpired.symm.trans (isExpired_eq_false_iff.2 hfresh)) (by simp)
      | false =>
          refine ⟨some found, by simp [hread, hexpired], fun rollup => ?_⟩
          have hfresh := isExpired_eq_false_iff.1 hexpired
          constructor
          · rintro ⟨⟩
            exact ⟨storedAt, rfl, hfresh⟩
          · rintro ⟨stored, hsame, -⟩
            obtain ⟨rfl, rfl⟩ : found = rollup ∧ storedAt = stored := by simpa using hsame
            rfl

theorem exists_take_get_after (lifetime : Nat) (hplain : ∀ e ∈ events, e.step.isPlain = true)
    (hcalendar : ∀ e ∈ events, e.time.OfCalendar) (now : Instant) (key : String) :
    ∃ answer, (((Desk.fresh lifetime).after events).take ⟨now, .get key⟩).1 =
        .ok (.rollup? answer) ∧
      ∀ rollup, answer = some rollup ↔ ∃ stored, Stands lifetime events key rollup stored ∧
        Instant.elapsed stored now ≤ Instant.ofHours (lifetimeAfter lifetime events) := by
  have hreadable : Readable ((Desk.fresh lifetime).after events).store :=
    readable_after hplain hcalendar
  have hget := exists_take_get hreadable now key
  rw [lifetime_after] at hget
  simpa only [held?_after hplain hcalendar] using hget

/-! ## A fixed lifetime -/

/-- The clock of the events does not go backwards; like that of any machine, it shows
no leap second. -/
structure Onward (events : List Event) : Prop where
  sorted : events.Pairwise fun e later => e.time ≤ later.time
  ordinary : ∀ e ∈ events, e.time.nano < giga

/-- Whenever the store is opened again, that is with the same lifetime. -/
def Steady (lifetime : Nat) (events : List Event) : Prop :=
  ∀ e ∈ events, ∀ other, e.step = .reopen other → other = lifetime

theorem Steady.lifetimeAfter_eq (hsteady : Steady lifetime events) :
    lifetimeAfter lifetime events = lifetime := by
  induction events using List.reverseRecOn with
  | nil => rfl
  | append_singleton events e ih =>
      obtain ⟨hevents, he⟩ := List.forall_mem_append.1 hsteady
      rw [lifetimeAfter_concat]
      split
      · next other hstep => exact he e List.mem_cons_self other hstep
      · exact ih hevents

theorem Stands.mem (hstands : Stands lifetime events key rollup stored) :
    ⟨stored, .set key rollup⟩ ∈ events := by
  obtain ⟨earlier, later, rfl, -⟩ := hstands
  simp

/-- With a fixed lifetime, gets and cleanups have no say in what has been set and has
not expired at a later moment `now`. -/
theorem stands_filter_iff {now : Instant} (hsteady : Steady lifetime events)
    (hpast : ∀ e ∈ events, e.time ≤ now ∧ e.time.nano < giga) (hnow : now.nano < giga)
    (hfresh : Instant.elapsed stored now ≤ Instant.ofHours lifetime) :
    Stands lifetime (events.filter fun e => !e.step.isLook) key rollup stored ↔
      Stands lifetime events key rollup stored := by
  induction events using List.reverseRecOn with
  | nil => rfl
  | append_singleton events e ih =>
      have hsteadyEvents : Steady lifetime events := (List.forall_mem_append.1 hsteady).1
      obtain ⟨hpastEvents, he⟩ := List.forall_mem_append.1 hpast
      have ih := ih hsteadyEvents hpastEvents
      rw [List.filter_append, stands_concat]
      cases hlook : e.step.isLook with
      | true =>
          -- The event came no later than `now`, when the rollup has not expired yet.
          have hspares (hstands : Stands lifetime events key rollup stored) :
              e.Spares (lifetimeAfter lifetime events) key stored := by
            refine ⟨fun hclear => by simp [hclear, Step.isLook] at hlook,
              fun other hset => by simp [hset, Step.isLook] at hlook, fun _ => ?_⟩
            obtain ⟨htime, hordinary⟩ := he e List.mem_cons_self
            rw [hsteadyEvents.lifetimeAfter_eq]
            exact Int.le_trans (Instant.elapsed_le_elapsed (hpastEvents _ hstands.mem).2 hordinary
              hnow htime) hfresh
          have hset : e ≠ ⟨stored, .set key rollup⟩ := fun hset => by
            simp [hset, Step.isLook] at hlook
          simp only [List.filter_cons, hlook, Bool.not_true, Bool.false_eq_true, if_false,
            List.filter_nil, List.append_nil, ih, hset, false_or]
          exact ⟨fun hstands => ⟨hstands, hspares hstands⟩, And.left⟩
      | false =>
          have hsteadyFilter : Steady lifetime (events.filter fun e => !e.step.isLook) :=
            fun e he => hsteadyEvents e (List.mem_of_mem_filter he)
          simp only [List.filter_cons, hlook, Bool.not_false, if_true, List.filter_nil]
          rw [stands_concat, ih, hsteadyFilter.lifetimeAfter_eq, hsteadyEvents.lifetimeAfter_eq]

theorem Onward.past {now : Instant} {step : Step} (honward : Onward (events ++ [⟨now, step⟩])) :
    (∀ e ∈ events, e.time ≤ now ∧ e.time.nano < giga) ∧ now.nano < giga := by
  have hsorted := (List.pairwise_append.1 honward.sorted).2.2
  refine ⟨fun e he => ⟨hsorted e he _ List.mem_cons_self, honward.ordinary e (by simp [he])⟩, ?_⟩
  exact honward.ordinary ⟨now, step⟩ (by simp)

/-- After any events at instants of the calendar a get does not fail, and returns exactly a
rollup that stands and has not expired; clearing and cleaning up count the slots that leave
the store, also when time passes in the course of them.  With a fixed lifetime it does not
matter to a get which gets and cleanups there were before. -/
theorem outcomes_after (hplain : ∀ e ∈ events, e.step.isPlain = true)
    (hcalendar : ∀ e ∈ events, e.time.OfCalendar) :
    (∀ now key, ∃ answer,
      (((Desk.fresh lifetime).after events).take ⟨now, .get key⟩).1 = .ok (.rollup? answer) ∧
        ∀ rollup, answer = some rollup ↔ ∃ stored, Stands lifetime events key rollup stored ∧
          Instant.elapsed stored now ≤ Instant.ofHours (lifetimeAfter lifetime events)) ∧
    (∀ (clock : Nat → Instant) (s : Step), s = .clear ∨ s = .cleanup →
      (((Desk.fresh lifetime).after events).step clock s).1 = .ok (.count
        (((Desk.fresh lifetime).after events).store.removed
          (((Desk.fresh lifetime).after events).step clock s).2.store))) ∧
    ∀ others now key, (∀ e ∈ others, e.step.isPlain = true) →
      (∀ e ∈ others, e.time.OfCalendar) → Steady lifetime events → Steady lifetime others →
      Onward (events ++ [⟨now, .get key⟩]) → Onward (others ++ [⟨now, .get key⟩]) →
      (events.filter fun e => !e.step.isLook) = (others.filter fun e => !e.step.isLook) →
      (((Desk.fresh lifetime).after events).take ⟨now, .get key⟩).1 =
        (((Desk.fresh lifetime).after others).take ⟨now, .get key⟩).1 := by
  refine ⟨exists_take_get_after lifetime hplain hcalendar, ?_, ?_⟩
  · rintro clock step (rfl | rfl)
    · rw [step_clear]
    · rw [step_cleanup]
  · intro others now key hothers hcalendarOthers hsteady hsteadyOthers honward honwardOthers hsame
    obtain ⟨answer, hanswer, hstands⟩ :=
      exists_take_get_after lifetime hplain hcalendar now key
    obtain ⟨answer', hanswer', hstands'⟩ :=
      exists_take_get_after lifetime hothers hcalendarOthers now key
    have hsteps (rollup : String) : answer = some rollup ↔ answer' = some rollup := by
      rw [hstands, hstands', hsteady.lifetimeAfter_eq, hsteadyOthers.lifetimeAfter_eq]
      refine exists_congr fun stored => and_congr_left fun hfresh => ?_
      rw [← stands_filter_iff hsteady honward.past.1 honward.past.2 hfresh, hsame,
        stands_filter_iff hsteadyOthers honwardOthers.past.1 honwardOthers.past.2 hfresh]
    rw [hanswer, hanswer', Option.ext hsteps]

/-- Exactly at the end of its lifetime a rollup is still there, with or without the get
and the cleanup before. -/
theorem outcomes_after_one_hour :
    let events : List Event := [⟨⟨0, 0⟩, .set "rollup_a" "• Fixed login"⟩,
      ⟨⟨1800, 0⟩, .get "rollup_a"⟩, ⟨⟨3600, 0⟩, .cleanup⟩]
    let others : List Event := [⟨⟨0, 0⟩, .set "rollup_a" "• Fixed login"⟩]
    (∀ e ∈ events, e.step.isPlain = true) ∧ (∀ e ∈ events, e.time.OfCalendar) ∧
      Steady 1 events ∧ Onward (events ++ [⟨⟨3600, 0⟩, .get "rollup_a"⟩]) ∧
      (((Desk.fresh 1).after others).take ⟨⟨3600, 0⟩, .get "rollup_a"⟩).1 =
        .ok (.rollup? (some "• Fixed login")) ∧
      (((Desk.fresh 1).after events).take ⟨⟨3600, 0⟩, .get "rollup_a"⟩).1 =
        .ok (.rollup? (some "• Fixed login")) := by
  intro events others
  have hplain : ∀ e ∈ events, e.step.isPlain = true := by decide
  have hcalendar : ∀ e ∈ events, e.time.OfCalendar := by
    simp only [events, List.forall_mem_cons]
    exact ⟨⟨by decide, by decide, by decide⟩, ⟨by decide, by decide, by decide⟩,
      ⟨by decide, by decide, by decide⟩, nofun⟩
  have hcalendarOthers : ∀ e ∈ others, e.time.OfCalendar :=
    fun e he => hcalendar e (by simp only [others, List.mem_singleton] at he; simp [events, he])
  have hsteady : Steady 1 events := by simp [Steady, events]
  have hsteadyOthers : Steady 1 others := by simp [Steady, others]
  have honward : Onward (events ++ [⟨⟨3600, 0⟩, .get "rollup_a"⟩]) := ⟨by decide, by decide⟩
  have hothers : (((Desk.fresh 1).after others).take ⟨⟨3600, 0⟩, .get "rollup_a"⟩).1 =
      .ok (.rollup? (some "• Fixed login")) := by
    have hstands : Stands 1 others "rollup_a" "• Fixed login" ⟨0, 0⟩ := ⟨[], [], rfl, by simp⟩
    obtain ⟨answer, hanswer, hiff⟩ :=
      exists_take_get_after 1 (by decide) hcalendarOthers ⟨3600, 0⟩ "rollup_a"
    rw [hanswer, (hiff "• Fixed login").2 ⟨_, hstands, by decide⟩]
  refine ⟨hplain, hcalendar, hsteady, honward, hothers, hothers ▸ ?_⟩
  exact (outcomes_after hplain hcalendar).2.2 others ⟨3600, 0⟩ "rollup_a" (by decide)
    hcalendarOthers hsteady hsteadyOthers honward ⟨by decide, by decide⟩ rfl

end TeamDigest.Rollup
