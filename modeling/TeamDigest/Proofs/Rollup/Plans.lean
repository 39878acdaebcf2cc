import TeamDigest.Proofs.Json.Kept
import TeamDigest.Proofs.Plan.Transcript
import TeamDigest.Proofs.Time.Stamps
import TeamDigest.Rollup.History

/-!
# What the plans for rollups do to a store

The store holds bytes.  An entry that is written into it is read again as the same entry
(`Entry.read?_write`), provided that its instant is one of the calendar.  Every clock shows
such instants only.

For each plan there is an equation that says what its run brings and what it leaves
behind, on any store and with any clock: `run_get`, `run_set`, `run_clear`, `run_cleanup`
and `step_rollup`.  Nothing after this file takes the plans apart again.

## Strategy

All plans but one make a fixed number of moves, and their equations only read off what
these are.  A cleanup goes through the slots one after the other and looks at the clock
once for each entry, so at which moment it comes to a slot depends on how many entries
stand before that one (`Store.rank`).  The induction is on the slots that are still to be
passed, and what it carries along is how many of those already passed are entries
(`run_sweep`).  When the clock stands still, the moments are all one, and what a cleanup
leaves is what passes a test (`Store.swept_eq_filter`).
-/

namespace TeamDigest

open Time

namespace Rollup

/-! ## Entries -/

theorem Entry.encode_whole (e : Entry) : e.encode.Whole :=
  .record (Data.Whole.cons (.text _) (Data.Whole.cons (.text _) Data.Whole.nil))

/-- Of an entry that was written, the rollup is read as it was, and the instant as far as
its text can be read. -/
theorem Entry.read?_write_eq (e : Entry) :
    read? e.write = (Instant.read? e.storedAt.toText.toList).map fun t => ⟨e.rollup, t⟩ := by
  have hdecode : decode e.encode =
      (Instant.read? e.storedAt.toText.toList).map fun t => ⟨e.rollup, t⟩ := by
    unfold decode Decode.structure encode
    dsimp only
    rw [Fields.bind_apply, Fields.required_named (d := .text e.rollup) _ rfl, Decode.text,
      Option.map_some, Option.bind_some, Fields.bind_apply,
      Fields.required_named (d := .text e.storedAt.toText) _ rfl, Decode.instant]
    dsimp only
    cases Instant.read? e.storedAt.toText.toList <;> rfl
  rw [read?, write, fromUTF8?_toUTF8]
  simp only [Option.bind_eq_bind, Option.bind_some, Json.read?_write e.encode_whole, hdecode]

/-- An entry is read as it was written. -/
theorem Entry.read?_write {e : Entry} (h : e.storedAt.OfCalendar) : read? e.write = some e := by
  rw [read?_write_eq, Instant.read?_toText h]
  rfl

/-- Whatever is read of an entry that was written has its rollup. -/
theorem Entry.rollup_of_read? {e found : Entry} (h : read? e.write = some found) :
    found.rollup = e.rollup := by
  rw [read?_write_eq] at h
  obtain ⟨t, -, rfl⟩ := Option.map_eq_some_iff.1 h
  rfl

theorem isExpired_eq_false_iff {rollup : String} {stored now : Instant} {lifetime : Nat} :
    Entry.isExpired ⟨rollup, stored⟩ lifetime now = false ↔
      Instant.elapsed stored now ≤ Instant.ofHours lifetime := by
  rw [Entry.isExpired, decide_eq_false_iff_not, Int.not_lt]

/-- The bytes denote an entry that has expired. -/
def isStale (bytes : ByteArray) (lifetime : Nat) (now : Instant) : Bool :=
  (Entry.read? bytes).any (·.isExpired lifetime now)

theorem isStale_of_entry {bytes : ByteArray} {entry : Entry}
    (hread : Entry.read? bytes = some entry) (lifetime : Nat) (now : Instant) :
    isStale bytes lifetime now = entry.isExpired lifetime now := by
  rw [isStale, hread, Option.any_some]

theorem isStale_of_unreadable {bytes : ByteArray} (hread : Entry.read? bytes = none)
    (lifetime : Nat) (now : Instant) : isStale bytes lifetime now = false := by
  rw [isStale, hread, Option.any_none]

/-- The bytes of a slot denote an entry. -/
def holdsEntry (slot : String × ByteArray) : Bool := (Entry.read? slot.2).isSome

end Rollup

/-! ## Stores -/

namespace Store

open Rollup

/-- The entry under a key, if what stands there denotes one. -/
def held? (s : Store) (key : String) : Option Entry := (s.find? key).bind Entry.read?

/-- How many entries stand before a key.  A cleanup that comes to the key has looked at the
clock so many times. -/
def rank (s : Store) (key : String) : Nat :=
  (s.slots.filter fun slot => slot.1 < key && holdsEntry slot).length

/-- How many entries there are. -/
def entries (s : Store) : Nat := (s.slots.filter holdsEntry).length

/-- What a cleanup leaves of a store; `times` are those of its looks at the clock. -/
def swept (s : Store) (lifetime : Nat) (times : Nat → Instant) : Store :=
  s.filter fun slot => !isStale slot.2 lifetime (times (s.rank slot.1))

/-- How many slots of a store have no successor in another one. -/
def removed (s later : Store) : Nat :=
  (s.slots.filter fun slot => (later.find? slot.1).isNone).length

theorem find?_swept (s : Store) (lifetime : Nat) (times : Nat → Instant) (key : String) :
    (s.swept lifetime times).find? key =
      (s.find? key).filter fun bytes => !isStale bytes lifetime (times (s.rank key)) :=
  find?_filter s _ key

theorem removed_filter (s : Store) (p : String × ByteArray → Bool) :
    s.removed (s.filter p) = (s.slots.filter fun slot => !p slot).length := by
  unfold removed
  congr 1
  refine List.filter_congr fun slot hslot => ?_
  rw [find?_filter, find?_eq_some_iff.2 hslot, Option.filter_some]
  cases p slot <;> rfl

theorem removed_empty (s : Store) : s.removed ∅ = s.size := by
  simp [removed, size]

theorem held?_insert_write {e : Entry} (h : e.storedAt.OfCalendar) (s : Store)
    (key other : String) :
    (s.insert key e.write).held? other = if other = key then some e else s.held? other := by
  rw [held?, find?_insert]
  split
  · rw [Option.bind_some, Entry.read?_write h]
  · rw [held?]

/-- To leave out the keys of some slots is to leave out these slots. -/
theorem filter_apart (s : Store) (p : String × ByteArray → Bool) :
    s.filter (fun slot => (s.slots.filter p).all (slot.1 != ·.1)) =
      s.filter fun slot => !p slot := by
  refine Store.ext (List.filter_congr fun slot hslot => ?_)
  cases hp : p slot with
  | true =>
      have hmem : slot ∈ s.slots.filter p := List.mem_filter.2 ⟨hslot, hp⟩
      rw [Bool.not_true, List.all_eq_false]
      exact ⟨slot, hmem, by simp⟩
  | false =>
      rw [Bool.not_false, List.all_eq_true]
      intro other hother
      obtain ⟨hmem, hpasses⟩ := List.mem_filter.1 hother
      refine bne_iff_ne.2 fun hkey => ?_
      -- Under one key there is only one slot.
      have hbytes : some slot.2 = some other.2 :=
        (find?_eq_some_iff.2 hslot).symm.trans (hkey ▸ find?_eq_some_iff.2 hmem)
      have hsame : slot = other := Prod.ext hkey (Option.some.inj hbytes)
      simp [← hsame, hp] at hpasses

/-- The slots before a key are those that a walk through the store has passed when it comes
to the key. -/
theorem rank_eq {s : Store} {before after : List (String × ByteArray)} {key : String}
    {bytes : ByteArray} (h : before ++ (key, bytes) :: after = s.slots) :
    s.rank key = (before.filter holdsEntry).length := by
  have hordered := s.ordered
  rw [← h, List.pairwise_append] at hordered
  obtain ⟨-, hrest, hbefore⟩ := hordered
  have hpassed : before.filter (fun slot => slot.1 < key && holdsEntry slot) =
      before.filter holdsEntry := by
    refine List.filter_congr fun slot hslot => ?_
    simp [hbefore slot hslot (key, bytes) List.mem_cons_self]
  have hahead : ((key, bytes) :: after).filter (fun slot => slot.1 < key && holdsEntry slot) =
      [] := by
    refine List.filter_eq_nil_iff.2 fun slot hslot => ?_
    have hle : ¬ slot.1 < key := by
      rcases List.mem_cons.1 hslot with rfl | hslot
      · exact String.lt_irrefl key
      · exact fun hlt => String.lt_irrefl key
          (String.lt_trans ((List.pairwise_cons.1 hrest).1 slot hslot) hlt)
    simp [hle]
  rw [rank, ← h, List.filter_append, hpassed, hahead, List.append_nil]

theorem rank_lt_entries {s : Store} {slot : String × ByteArray} (hmem : slot ∈ s.slots)
    (hentry : holdsEntry slot = true) : s.rank slot.1 < s.entries := by
  obtain ⟨before, after, hslots⟩ := List.append_of_mem hmem
  rw [rank_eq hslots.symm, entries, hslots]
  simp [hentry]

/-- While the clock stands still, a cleanup leaves the slots that are not stale. -/
theorem swept_eq_filter {s : Store} {times : Nat → Instant} {now : Instant}
    (hstill : ∀ n < s.entries, times n = now) (lifetime : Nat) :
    s.swept lifetime times = s.filter fun slot => !isStale slot.2 lifetime now := by
  refine Store.ext (List.filter_congr fun slot hslot => ?_)
  cases hentry : holdsEntry slot with
  | true => rw [hstill _ (rank_lt_entries hslot hentry)]
  | false =>
      have hread : Entry.read? slot.2 = none := by simpa [holdsEntry] using hentry
      simp only [isStale_of_unreadable hread]

/-- The entries that are left where stale slots go are those that have not expired. -/
theorem bind_read?_filter (slot : Option ByteArray) (lifetime : Nat) (now : Instant) :
    (slot.filter fun bytes => !isStale bytes lifetime now).bind Entry.read? =
      (slot.bind Entry.read?).filter fun entry => !entry.isExpired lifetime now := by
  cases slot with
  | none => rfl
  | some bytes =>
      cases hread : Entry.read? bytes with
      | none => simp [Option.filter_some, isStale_of_unreadable hread, hread]
      | some entry =>
          cases hexpired : entry.isExpired lifetime now with
          | true => simp [Option.filter_some, isStale_of_entry hread, hexpired, hread]
          | false => simp [Option.filter_some, isStale_of_entry hread, hexpired, hread]

end Store

namespace Rollup

/-! ## Runs -/

/-- No plan changes the lifetime. -/
theorem lifetime_run {α : Type} (clock : Nat → Instant) (writer : String → Except Error String)
    (plan : Plan moves α) (d : Desk) :
    (plan.run (Desk.move clock writer) d).2.lifetime = d.lifetime := by
  induction plan generalizing d with
  | done value => rfl
  | fail error => rfl
  | ask m next ih =>
      have hmove : (Desk.move clock writer m d).2.lifetime = d.lifetime := by
        cases m with
        | store operation => rfl
        | now => rfl
        | write text => rfl
      unfold Plan.run
      cases hanswer : Desk.move clock writer m d with
      | mk outcome later =>
          rw [hanswer] at hmove
          cases outcome with
          | ok answer => exact (ih answer later).trans hmove
          | error error => exact hmove

/-- A get drops an entry that has expired and returns the rollup of any other one. -/
theorem run_get (clock : Nat → Instant) (writer : String → Except Error String) (d : Desk)
    (lifetime : Nat) (key : String) :
    (get lifetime key).run (Desk.move clock writer) d =
      match d.store.find? key with
      | none => (.ok none, d)
      | some bytes => match Entry.read? bytes with
        | none => (.error .json, d)
        | some entry =>
          if entry.isExpired lifetime (clock d.looks) then
            (.ok none, { d with store := d.store.erase key, looks := d.looks + 1 })
          else (.ok (some entry.rollup), { d with looks := d.looks + 1 }) := by
  have hlook : Desk.move clock writer (.store (.look key)) d = (.ok (d.store.find? key), d) := rfl
  refine (Plan.run_ask_of_ok hlook).trans ?_
  cases d.store.find? key with
  | none => rfl
  | some bytes =>
      simp only
      cases Entry.read? bytes with
      | none => rfl
      | some entry =>
          have hnow : Desk.move clock writer .now d =
              (.ok (clock d.looks), { d with looks := d.looks + 1 }) := rfl
          refine (Plan.run_ask_of_ok hnow).trans ?_
          simp only
          split
          · rfl
          · rfl

theorem run_set (clock : Nat → Instant) (writer : String → Except Error String) (d : Desk)
    (key rollup : String) :
    (set key rollup).run (Desk.move clock writer) d = (.ok (), { d with
      store := d.store.insert key (Entry.write ⟨rollup, clock d.looks⟩)
      looks := d.looks + 1 }) := rfl

theorem run_clear (clock : Nat → Instant) (writer : String → Except Error String) (d : Desk) :
    clear.run (Desk.move clock writer) d = (.ok (d.store.removed ∅), { d with store := ∅ }) := by
  rw [Store.removed_empty]
  rfl

/-- A sweep drops those of the slots ahead that are stale at the moment when it comes to
them.  The slots of the store `s` are those it has passed and those ahead. -/
theorem run_sweep (clock : Nat → Instant) (writer : String → Except Error String)
    (lifetime : Nat) {s : Store} {d : Desk} {looks : Nat}
    {passed ahead : List (String × ByteArray)} (hslots : passed ++ ahead = s.slots)
    (hlooks : d.looks = looks + (passed.filter holdsEntry).length) :
    let leaving := ahead.filter fun slot =>
      isStale slot.2 lifetime (clock (looks + s.rank slot.1))
    (sweep lifetime ahead).run (Desk.move clock writer) d = (.ok leaving.length, { d with
      store := d.store.filter fun slot => leaving.all (slot.1 != ·.1)
      looks := d.looks + (ahead.filter holdsEntry).length }) := by
  induction ahead generalizing passed d with
  | nil => simp [sweep, Store.filter]
  | cons slot ahead ih =>
      obtain ⟨key, bytes⟩ := slot
      have hrank : looks + s.rank key = d.looks := by rw [Store.rank_eq hslots, hlooks]
      have hnext : (passed ++ [(key, bytes)]) ++ ahead = s.slots := by simpa using hslots
      intro leaving
      cases hread : Entry.read? bytes with
      | none =>
          have hleaving : leaving = ahead.filter fun slot =>
              isStale slot.2 lifetime (clock (looks + s.rank slot.1)) := by
            simp [leaving, isStale, hread]
          have hpassed : d.looks =
              looks + ((passed ++ [(key, bytes)]).filter holdsEntry).length := by
            simp [hlooks, holdsEntry, hread]
          have hrest := ih (d := d) hnext hpassed
          rw [← hleaving] at hrest
          simpa [sweep, hread, holdsEntry] using hrest
      | some entry =>
          have hpassed : d.looks + 1 =
              looks + ((passed ++ [(key, bytes)]).filter holdsEntry).length := by
            simp [hlooks, holdsEntry, hread, Nat.add_assoc]
          have hstale : isStale bytes lifetime (clock (looks + s.rank key)) =
              entry.isExpired lifetime (clock d.looks) := by
            simp [isStale, hread, hrank]
          have hnow : Desk.move clock writer .now d =
              (.ok (clock d.looks), { d with looks := d.looks + 1 }) := rfl
          rw [sweep, hread]
          refine (Plan.run_ask_of_ok hnow).trans ?_
          cases hexpired : entry.isExpired lifetime (clock d.looks) with
          | true =>
              have hdrop : Desk.move clock writer (.store (.drop key))
                  { d with looks := d.looks + 1 } =
                  (.ok (), { d with store := d.store.erase key, looks := d.looks + 1 }) := rfl
              have hrest := ih
                (d := { d with store := d.store.erase key, looks := d.looks + 1 }) hnext hpassed
              have hleaving : leaving = (key, bytes) :: ahead.filter fun slot =>
                  isStale slot.2 lifetime (clock (looks + s.rank slot.1)) := by
                simp [leaving, hstale, hexpired]
              simp only [if_true]
              refine (Plan.run_ask_of_ok hdrop).trans ?_
              rw [Plan.run_map_of_ok hrest, hleaving, Store.erase, Store.filter_filter]
              simp [holdsEntry, hread, Nat.add_comm, Nat.add_left_comm]
          | false =>
              have hrest := ih (d := { d with looks := d.looks + 1 }) hnext hpassed
              have hleaving : leaving = ahead.filter fun slot =>
                  isStale slot.2 lifetime (clock (looks + s.rank slot.1)) := by
                simp [leaving, hstale, hexpired]
              rw [← hleaving] at hrest
              simpa [holdsEntry, hread, Nat.add_comm, Nat.add_left_comm] using hrest

/-- A cleanup drops the entries that have expired when it comes to them, and tells how many
they were. -/
theorem run_cleanup (clock : Nat → Instant) (writer : String → Except Error String) (d : Desk)
    (lifetime : Nat) :
    let later := d.store.swept lifetime fun n => clock (d.looks + n)
    (cleanup lifetime).run (Desk.move clock writer) d = (.ok (d.store.removed later), { d with
      store := later
      looks := d.looks + d.store.entries }) := by
  intro later
  have hsweep := run_sweep clock writer lifetime (List.nil_append d.store.slots)
    (Nat.add_zero d.looks).symm
  have hlist : (operate .list).run (Desk.move clock writer) d = (.ok d.store.slots, d) := rfl
  have hstore := Store.filter_apart d.store fun slot =>
    isStale slot.2 lifetime (clock (d.looks + d.store.rank slot.1))
  have hremoved : d.store.removed later = (d.store.slots.filter fun slot =>
      isStale slot.2 lifetime (clock (d.looks + d.store.rank slot.1))).length := by
    simp [later, Store.swept, Store.removed_filter]
  dsimp only at hsweep
  rw [hstore] at hsweep
  rw [cleanup, Plan.run_bind_of_ok hlist, Plan.run_bind_of_ok hsweep, hremoved]
  rfl

/-! ## Steps -/

theorem step_set (clock : Nat → Instant) (d : Desk) (key rollup : String) :
    d.step clock (.set key rollup) = (.ok .nothing, { d with
      store := d.store.insert key (Entry.write ⟨rollup, clock d.looks⟩)
      looks := d.looks + 1 }) := by
  rw [Desk.step, Desk.carryOut, run_set]
  rfl

theorem step_get (clock : Nat → Instant) (d : Desk) (key : String) :
    d.step clock (.get key) =
      match d.store.find? key with
      | none => (.ok (.rollup? none), d)
      | some bytes => match Entry.read? bytes with
        | none => (.error .json, d)
        | some entry =>
          if entry.isExpired d.lifetime (clock d.looks) then
            (.ok (.rollup? none), { d with store := d.store.erase key, looks := d.looks + 1 })
          else (.ok (.rollup? (some entry.rollup)), { d with looks := d.looks + 1 }) := by
  rw [Desk.step, Desk.carryOut, run_get]
  cases d.store.find? key with
  | none => rfl
  | some bytes =>
      simp only
      cases Entry.read? bytes with
      | none => rfl
      | some entry =>
          simp only
          split
          · rfl
          · rfl

theorem step_clear (clock : Nat → Instant) (d : Desk) :
    d.step clock .clear = (.ok (.count (d.store.removed ∅)), { d with store := ∅ }) := by
  rw [Desk.step, Desk.carryOut, run_clear]
  rfl

theorem step_cleanup (clock : Nat → Instant) (d : Desk) :
    let later := d.store.swept d.lifetime fun n => clock (d.looks + n)
    d.step clock .cleanup = (.ok (.count (d.store.removed later)), { d with
      store := later
      looks := d.looks + d.store.entries }) := by
  rw [Desk.step, Desk.carryOut, run_cleanup]
  rfl

theorem find?_step_get (clock : Nat → Instant) (d : Desk) (key other : String) :
    (d.step clock (.get key)).2.store.find? other =
      if other = key then
        (d.store.find? key).filter fun bytes => !isStale bytes d.lifetime (clock d.looks)
      else d.store.find? other := by
  rw [step_get]
  cases hfind : d.store.find? key with
  | none =>
      by_cases hkey : other = key
      · simp [hkey, hfind]
      · simp [hkey]
  | some bytes =>
      simp only [Option.filter_some]
      cases hread : Entry.read? bytes with
      | none =>
          by_cases hkey : other = key
          · simp [hkey, hfind, isStale_of_unreadable hread]
          · simp [hkey]
      | some entry =>
          rw [isStale_of_entry hread]
          cases hexpired : entry.isExpired d.lifetime (clock d.looks) with
          | true => simp [hexpired, Store.find?_erase]
          | false =>
              by_cases hkey : other = key
              · simp [hkey, hfind, hexpired]
              · simp [hkey, hexpired]

theorem find?_step_cleanup (clock : Nat → Instant) (d : Desk) (key : String) :
    (d.step clock .cleanup).2.store.find? key = (d.store.find? key).filter fun bytes =>
      !isStale bytes d.lifetime (clock (d.looks + d.store.rank key)) := by
  rw [step_cleanup, Store.find?_swept]

/-- A recall is a look at the store and, unless that brings a rollup, a call of the
writer. -/
theorem step_rollup (clock : Nat → Instant) (d : Desk) (text : String)
    (reply : Except Error String) :
    d.step clock (.rollup text reply) =
      match (get d.lifetime (key text)).run (Desk.move clock fun _ => reply) d with
      | (.ok (some rollup), d) => (.ok (.rollup rollup), d)
      | (.error error, d) => (.error error, d)
      | (.ok none, found) =>
        match reply with
        | .ok rollup => (.ok (.rollup rollup), { found with
            store := found.store.insert (key text) (Entry.write ⟨rollup, clock found.looks⟩)
            looks := found.looks + 1
            written := text :: found.written })
        | .error error => (.error error, { found with written := text :: found.written }) := by
  rw [Desk.step, Desk.carryOut, rollup, Plan.run_bind]
  rcases (get d.lifetime (key text)).run (Desk.move clock fun _ => reply) d with
    ⟨_ | _ | rollup, found⟩
  · rfl
  · cases reply with
    | ok rollup => rfl
    | error error => rfl
  · rfl

/-- Only to open the store again changes the lifetime. -/
theorem lifetime_step (clock : Nat → Instant) (d : Desk) (s : Step) :
    (d.step clock s).2.lifetime = match s with
      | .reopen other => other
      | _ => d.lifetime := by
  cases s with
  | set key rollup => rfl
  | get key => exact lifetime_run clock _ (get d.lifetime key) d
  | clear => rfl
  | cleanup => exact lifetime_run clock _ (cleanup d.lifetime) d
  | insertRaw key bytes => rfl
  | reopen other => rfl
  | rollup text reply => exact lifetime_run clock _ (Rollup.rollup d.lifetime text) d

end Rollup

end TeamDigest
