import TeamDigest.Proofs.Rollup.Plans

/-!
# Slots that hold no entry

Whoever has access to the store may put bytes into it, under any key.  Bytes that read as
an entry count as one; all others are in the way.  A cleanup passes over them, a get and a
recall fail at them, and only a set of their key or a clear gets rid of them.

## Strategy

Each step of a history treats the slots of the store one by one: what becomes of a slot
depends on the step, on the times in its course, on the lifetime, and on nothing else in
the store, but for the moment at which a cleanup comes to the slot: that depends on how
many entries stand before it.  `Occasion.slotAfter` says what becomes of a slot, and
`find?_attend` that this is all that happens.  The rest are consequences, by induction over
the steps:

* an unreadable slot stays as it is as long as nothing is put in its place
  (`find?_attendAll_of_unreadable`);
* two stores that agree on some keys agree on them ever after, and also on a key that is
  set or cleared in both (`Agree.attendAll`, `Agree.of_resets`), unless time passes in the
  course of a cleanup.
-/

namespace TeamDigest.Rollup

open Time

/-! ## Steps in their own time -/

/-- A step with the times that the clock shows in the course of it, look by look. -/
structure Occasion where
  step : Step
  times : Nat → Instant

def Desk.attend (d : Desk) (o : Occasion) : Except Error Outcome × Desk :=
  d.step (fun look => o.times (look - d.looks)) o.step

def Desk.attendAll (d : Desk) (occasions : List Occasion) : Desk :=
  occasions.foldl (fun d o => (d.attend o).2) d

/-- If the step is a cleanup, no time passes in the course of it. -/
def Occasion.Still (o : Occasion) : Prop := o.step = .cleanup → ∀ look, o.times look = o.times 0

/-- The bytes denote an entry that was stored more than `lifetime` hours ago. -/
def Stale (bytes : ByteArray) (lifetime : Nat) (now : Instant) : Prop :=
  ∃ entry, Entry.read? bytes = some entry ∧
    Instant.ofHours lifetime < Instant.elapsed entry.storedAt now

/-- Under the key there is something other than an entry. -/
def Desk.Unreadable (d : Desk) (key : String) : Prop :=
  ∃ bytes, d.store.find? key = some bytes ∧ Entry.read? bytes = none

/-- The step gets rid of whatever stands under the key: it sets the key, or clears the
store. -/
def Step.Resets (s : Step) (key : String) : Prop :=
  (∃ rollup, s = .set key rollup) ∨ s = .clear

/-- The step leaves alone what stands under the key, unless that is an entry: it neither
resets the key nor puts other bytes there. -/
structure Step.Spares (s : Step) (key : String) : Prop where
  not_resets : ¬ s.Resets key
  not_insertRaw : ∀ bytes, s ≠ .insertRaw key bytes

variable {d e : Desk} {o : Occasion} {occasions : List Occasion} {key other : String}
  {bytes : ByteArray} {keys : String → Prop} {lifetime : Nat}

@[simp] theorem Desk.attendAll_nil (d : Desk) : d.attendAll [] = d := rfl

@[simp] theorem Desk.attendAll_cons (d : Desk) (o : Occasion) (occasions : List Occasion) :
    d.attendAll (o :: occasions) = (d.attend o).2.attendAll occasions := rfl

theorem Desk.attendAll_append (d : Desk) (earlier later : List Occasion) :
    d.attendAll (earlier ++ later) = (d.attendAll earlier).attendAll later := by
  simp [Desk.attendAll]

theorem isStale_iff {now : Instant} :
    isStale bytes lifetime now = true ↔ Stale bytes lifetime now := by
  unfold Stale
  cases hread : Entry.read? bytes with
  | none => simp [isStale_of_unreadable hread]
  | some entry => simp [isStale_of_entry hread, Entry.isExpired]

/-! ## What becomes of one slot -/

/-- What a recall makes of the slot of its text. -/
def recalledSlot (lifetime : Nat) (times : Nat → Instant) (reply : Except Error String) :
    Option ByteArray → Option ByteArray
  | none => reply.toOption.map fun rollup => Entry.write ⟨rollup, times 0⟩
  | some bytes =>
    if isStale bytes lifetime (times 0) then
      reply.toOption.map fun rollup => Entry.write ⟨rollup, times 1⟩
    else some bytes

/-- What a step makes of the slot under a key before which `rank` entries stand. -/
def Occasion.slotAfter (o : Occasion) (lifetime rank : Nat) (key : String)
    (slot : Option ByteArray) : Option ByteArray :=
  match o.step with
  | .set other rollup =>
    if key = other then some (Entry.write ⟨rollup, o.times 0⟩) else slot
  | .get other =>
    if key = other then slot.filter fun bytes => !isStale bytes lifetime (o.times 0) else slot
  | .clear => none
  | .cleanup => slot.filter fun bytes => !isStale bytes lifetime (o.times rank)
  | .insertRaw other bytes => if key = other then some bytes else slot
  | .reopen _ => slot
  | .rollup text reply =>
    if key = Rollup.key text then recalledSlot lifetime o.times reply slot else slot

theorem find?_attend_rollup (text : String) (reply : Except Error String)
    (times : Nat → Instant) :
    (d.attend ⟨.rollup text reply, times⟩).2.store.find? other =
      if other = Rollup.key text then
        recalledSlot d.lifetime times reply (d.store.find? (Rollup.key text))
      else d.store.find? other := by
  rw [Desk.attend, step_rollup, run_get]
  cases hslot : d.store.find? (Rollup.key text) with
  | none =>
      cases reply with
      | ok rollup => simp [recalledSlot, Store.find?_insert, Except.toOption]
      | error error =>
          by_cases hother : other = Rollup.key text
          · simp [hother, hslot, recalledSlot, Except.toOption]
          · simp [hother]
  | some bytes =>
      cases hread : Entry.read? bytes with
      | none =>
          by_cases hother : other = Rollup.key text
          · simp [hother, hslot, hread, recalledSlot, isStale_of_unreadable hread]
          · simp [hother, hread]
      | some entry =>
          have hsame := isStale_of_entry hread d.lifetime (times 0)
          cases hexpired : entry.isExpired d.lifetime (times 0) with
          | true =>
              cases reply with
              | ok rollup =>
                  by_cases hother : other = Rollup.key text
                  · simp [hother, hread, hexpired, recalledSlot, hsame, Store.find?_insert,
                      Except.toOption]
                  · simp [hother, hread, hexpired, Store.find?_insert, Store.find?_erase]
              | error error =>
                  by_cases hother : other = Rollup.key text
                  · simp [hother, hread, hexpired, recalledSlot, hsame, Store.find?_erase,
                      Except.toOption]
                  · simp [hother, hread, hexpired, Store.find?_erase]
          | false =>
              by_cases hother : other = Rollup.key text
              · simp [hother, hslot, hread, hexpired, recalledSlot, hsame]
              · simp [hother, hread, hexpired]

/-- A step changes the store slot by slot. -/
theorem find?_attend (d : Desk) (o : Occasion) (key : String) :
    (d.attend o).2.store.find? key =
      o.slotAfter d.lifetime (d.store.rank key) key (d.store.find? key) := by
  obtain ⟨step, times⟩ := o
  cases step with
  | set other rollup =>
      rw [Desk.attend, step_set, Store.find?_insert, Nat.sub_self]
      rfl
  | get other =>
      rw [Desk.attend, find?_step_get, Nat.sub_self]
      by_cases hkey : key = other
      · simp [Occasion.slotAfter, hkey]
      · simp [Occasion.slotAfter, hkey]
  | clear => rfl
  | cleanup =>
      rw [Desk.attend, find?_step_cleanup, Nat.add_sub_cancel_left]
      rfl
  | insertRaw other bytes => exact Store.find?_insert _ _ _ _
  | reopen other => rfl
  | rollup text reply =>
      rw [find?_attend_rollup]
      by_cases hkey : key = Rollup.key text
      · simp [Occasion.slotAfter, hkey]
      · simp [Occasion.slotAfter, hkey]

/-! ## Unreadable slots stay -/

theorem slotAfter_of_unreadable (hread : Entry.read? bytes = none) (hspares : o.step.Spares key)
    (lifetime rank : Nat) : o.slotAfter lifetime rank key (some bytes) = some bytes := by
  obtain ⟨step, times⟩ := o
  have hstale := isStale_of_unreadable hread lifetime
  cases step with
  | set other rollup =>
      have hkey : key ≠ other := fun hkey => hspares.not_resets (.inl ⟨rollup, hkey ▸ rfl⟩)
      simp [Occasion.slotAfter, hkey]
  | get other => simp [Occasion.slotAfter, Option.filter_some, hstale]
  | clear => exact absurd (.inr rfl) hspares.not_resets
  | cleanup => simp [Occasion.slotAfter, Option.filter_some, hstale]
  | insertRaw other bytes =>
      have hkey : key ≠ other := fun hkey => hspares.not_insertRaw bytes (hkey ▸ rfl)
      simp [Occasion.slotAfter, hkey]
  | reopen other => rfl
  | rollup text reply => simp [Occasion.slotAfter, recalledSlot, hstale]

theorem find?_attendAll_of_unreadable (hfind : d.store.find? key = some bytes)
    (hread : Entry.read? bytes = none) (hspares : ∀ o ∈ occasions, o.step.Spares key) :
    (d.attendAll occasions).store.find? key = some bytes := by
  induction occasions generalizing d with
  | nil => exact hfind
  | cons o occasions ih =>
      obtain ⟨ho, hoccasions⟩ := List.forall_mem_cons.1 hspares
      refine ih ?_ hoccasions
      rw [find?_attend, hfind, slotAfter_of_unreadable hread ho]

theorem attend_get_of_unreadable (hbad : d.Unreadable key) (times : Nat → Instant) :
    d.attend ⟨.get key, times⟩ = (.error .json, d) := by
  obtain ⟨bytes, hfind, hread⟩ := hbad
  simp [Desk.attend, step_get, hfind, hread]

/-- The writer is not asked, and the store is not changed. -/
theorem attend_rollup_of_unreadable {text : String} (hbad : d.Unreadable (Rollup.key text))
    (reply : Except Error String) (times : Nat → Instant) :
    d.attend ⟨.rollup text reply, times⟩ = (.error .json, d) := by
  obtain ⟨bytes, hfind, hread⟩ := hbad
  simp [Desk.attend, step_rollup, run_get, hfind, hread]

/-- A cleanup removes what is stale when it comes to it and nothing else, and counts it. -/
theorem attend_cleanup (d : Desk) (times : Nat → Instant) :
    ∃ later, d.attend ⟨.cleanup, times⟩ = (.ok (.count (d.store.removed later.store)), later) ∧
      ∀ key bytes, later.store.find? key = some bytes ↔
        d.store.find? key = some bytes ∧
          ¬ Stale bytes d.lifetime (times (d.store.rank key)) := by
  refine ⟨(d.attend ⟨.cleanup, times⟩).2, ?_, fun key bytes => ?_⟩
  · rw [Desk.attend, step_cleanup]
  · rw [find?_attend, Occasion.slotAfter, Option.filter_eq_some_iff, ← isStale_iff,
      Bool.not_eq_true, Bool.not_eq_true']

/-! ## Stores that agree -/

/-- The desks have the same lifetime, and the same slots under the given keys. -/
structure Agree (keys : String → Prop) (d e : Desk) : Prop where
  lifetime_eq : d.lifetime = e.lifetime
  find?_eq : ∀ key, keys key → d.store.find? key = e.store.find? key

theorem slotAfter_of_resets (hresets : o.step.Resets key) (lifetime other rank place : Nat)
    (first second : Option ByteArray) :
    o.slotAfter lifetime rank key first = o.slotAfter other place key second := by
  obtain ⟨step, times⟩ := o
  rcases hresets with ⟨rollup, rfl⟩ | rfl
  · simp [Occasion.slotAfter]
  · rfl

/-- Where no time passes, it does not matter how many entries stand before a slot. -/
theorem slotAfter_of_still (hstill : o.Still) (lifetime rank place : Nat) (key : String)
    (slot : Option ByteArray) :
    o.slotAfter lifetime rank key slot = o.slotAfter lifetime place key slot := by
  obtain ⟨step, times⟩ := o
  cases step with
  | cleanup =>
      have htimes : times rank = times place := (hstill rfl rank).trans (hstill rfl place).symm
      simp only [Occasion.slotAfter, htimes]
  | _ => rfl

/-- After a step the desks agree where they did before, and on what the step resets. -/
theorem Agree.attend (h : Agree keys d e) (hstill : o.Still) :
    Agree (fun key => keys key ∨ o.step.Resets key) (d.attend o).2 (e.attend o).2 where
  lifetime_eq := by rw [Desk.attend, Desk.attend, lifetime_step, lifetime_step, h.lifetime_eq]
  find?_eq key hkey := by
    rw [find?_attend, find?_attend]
    rcases hkey with hkey | hresets
    · rw [h.lifetime_eq, h.find?_eq key hkey, slotAfter_of_still hstill]
    · exact slotAfter_of_resets hresets _ _ _ _ _ _

theorem Agree.mono {fewer : String → Prop} (h : Agree keys d e)
    (hsub : ∀ key, fewer key → keys key) : Agree fewer d e :=
  ⟨h.lifetime_eq, fun key hkey => h.find?_eq key (hsub key hkey)⟩

theorem Agree.attendAll (h : Agree keys d e) (hstill : ∀ o ∈ occasions, o.Still) :
    Agree keys (d.attendAll occasions) (e.attendAll occasions) := by
  induction occasions generalizing d e with
  | nil => exact h
  | cons o occasions ih =>
      obtain ⟨ho, hoccasions⟩ := List.forall_mem_cons.1 hstill
      exact ih ((h.attend ho).mono fun key hkey => .inl hkey) hoccasions

/-- A get brings the same on desks that agree on its key. -/
theorem Agree.get (h : Agree keys d e) (hkey : keys key) (times : Nat → Instant) :
    (d.attend ⟨.get key, times⟩).1 = (e.attend ⟨.get key, times⟩).1 := by
  simp only [Desk.attend, step_get, Nat.sub_self, h.lifetime_eq, h.find?_eq key hkey]
  cases e.store.find? key with
  | none => rfl
  | some bytes =>
      cases hread : Entry.read? bytes with
      | none => simp [hread]
      | some entry =>
          cases hexpired : entry.isExpired e.lifetime (times 0) with
          | true => simp [hread, hexpired]
          | false => simp [hread, hexpired]

/-- Once a key has been reset, nothing tells what stood under it before. -/
theorem Agree.of_resets (h : Agree (· ≠ key) d e) (hresets : o.step.Resets key)
    {earlier later : List Occasion} (hstill : ∀ o ∈ earlier ++ later, o.Still) :
    Agree (fun _ => True) (d.attendAll (earlier ++ o :: later))
      (e.attendAll (earlier ++ o :: later)) := by
  obtain ⟨hearlier, hlater⟩ := List.forall_mem_append.1 hstill
  have ho : o.Still := by
    rintro hcleanup
    rcases hresets with ⟨rollup, hset⟩ | hclear
    · simp [hcleanup] at hset
    · simp [hcleanup] at hclear
  rw [Desk.attendAll_append, Desk.attendAll_append, Desk.attendAll_cons, Desk.attendAll_cons]
  refine Agree.attendAll (((h.attendAll hearlier).attend ho).mono fun other _ => ?_) hlater
  by_cases hother : other = key
  · exact .inr (hother ▸ hresets)
  · exact .inl hother

/-- Of a store with any slots whatever, some of them unreadable: a cleanup does not fail,
removes exactly the entries that have expired when it comes to them, and counts them.  A get
of an unreadable slot fails and changes nothing, and so does each recall of a text in whose
slot there is something unreadable, whatever else happens, until the slot is reset; the
writer is not asked.  Once a key has been reset, gets do not depend on what stood under it,
each cleanup before or after that taking place at some one moment. -/
theorem unreadable_until_reset (d : Desk) :
    (∀ times, ∃ later,
      d.attend ⟨.cleanup, times⟩ = (.ok (.count (d.store.removed later.store)), later) ∧
        ∀ key bytes, later.store.find? key = some bytes ↔
          d.store.find? key = some bytes ∧
            ¬ Stale bytes d.lifetime (times (d.store.rank key))) ∧
    (∀ key, d.Unreadable key → ∀ times, d.attend ⟨.get key, times⟩ = (.error .json, d)) ∧
    (∀ text, d.Unreadable (Rollup.key text) →
      ∀ occasions, (∀ o ∈ occasions, o.step.Spares (Rollup.key text)) → ∀ reply times,
        (d.attendAll occasions).attend ⟨.rollup text reply, times⟩ =
            (.error .json, d.attendAll occasions) ∧
          (d.attendAll occasions).store.find? (Rollup.key text) =
            d.store.find? (Rollup.key text)) ∧
    ∀ key (o : Occasion), o.step.Resets key → ∀ earlier later,
      (∀ p ∈ earlier ++ later, p.Still) → ∀ other times,
        ((d.attendAll (earlier ++ o :: later)).attend ⟨.get other, times⟩).1 =
          ((Desk.attendAll { d with store := d.store.erase key }
            (earlier ++ o :: later)).attend ⟨.get other, times⟩).1 := by
  refine ⟨attend_cleanup d, fun key hbad => attend_get_of_unreadable hbad, ?_, ?_⟩
  · rintro text ⟨bytes, hfind, hread⟩ occasions hspares reply times
    have hkept := find?_attendAll_of_unreadable hfind hread hspares
    exact ⟨attend_rollup_of_unreadable ⟨bytes, hkept, hread⟩ reply times, hkept.trans hfind.symm⟩
  · intro key o hresets earlier later hstill other times
    have hagree : Agree (· ≠ key) d { d with store := d.store.erase key } :=
      ⟨rfl, fun other hother => by rw [Store.find?_erase, if_neg hother]⟩
    exact (hagree.of_resets hresets hstill).get trivial times

/-- A store with bytes that are no text in the slot of a text, and with the bytes of an old
entry under another key. -/
def smudged : Desk :=
  { Desk.fresh 1 with
    store := ((∅ : Store).insert "old"
      "\x7b\"rollup\":\"Old\",\"cached_at\":\"2020-01-01T00:00:00Z\"\x7d".toUTF8).insert
        (Rollup.key "Fix login") ⟨#[0xff]⟩ }

theorem key_ne_old (text : String) : Rollup.key text ≠ "old" := by
  intro hkey
  have hhead : (Rollup.key text).toList.head? = "old".toList.head? := by rw [hkey]
  simp [Rollup.key] at hhead

/-- In 2024 the old entry is swept out of the store and the other slot is not.  Recalls of
its text keep failing until a rollup is set there. -/
theorem unreadable_until_reset_in_2024 :
    let times : Nat → Instant := fun _ => ⟨1718366400, 0⟩
    let retries : List Occasion := [⟨.cleanup, times⟩, ⟨.get (Rollup.key "Fix login"), times⟩,
      ⟨.rollup "Fix login" (.ok "• Login works"), times⟩]
    let set : Occasion := ⟨.set (Rollup.key "Fix login") "• Fixed login", times⟩
    smudged.Unreadable (Rollup.key "Fix login") ∧
      (∀ o ∈ retries, o.step.Spares (Rollup.key "Fix login")) ∧
      set.step.Resets (Rollup.key "Fix login") ∧ (∀ o ∈ retries ++ [], o.Still) ∧
      (∃ later, smudged.attend ⟨.cleanup, times⟩ =
          (.ok (.count (smudged.store.removed later.store)), later) ∧
        later.store.find? "old" = none ∧
        later.store.find? (Rollup.key "Fix login") = some ⟨#[0xff]⟩) ∧
      smudged.attend ⟨.get (Rollup.key "Fix login"), times⟩ = (.error .json, smudged) ∧
      (smudged.attendAll retries).attend ⟨.rollup "Fix login" (.ok "• Fixed login"), times⟩ =
        (.error .json, smudged.attendAll retries) ∧
      ((smudged.attendAll (retries ++ [set])).attend ⟨.get (Rollup.key "Fix login"), times⟩).1 =
        .ok (.rollup? (some "• Fixed login")) := by
  intro times retries set
  have hfind : smudged.store.find? (Rollup.key "Fix login") = some ⟨#[0xff]⟩ := by
    simp [smudged, Store.find?_insert]
  have hread : Entry.read? ⟨#[0xff]⟩ = none := by decide +kernel
  have hbad : smudged.Unreadable (Rollup.key "Fix login") := ⟨_, hfind, hread⟩
  have hspares : ∀ o ∈ retries, o.step.Spares (Rollup.key "Fix login") := by
    simp only [retries, List.forall_mem_cons]
    refine ⟨⟨?_, ?_⟩, ⟨?_, ?_⟩, ⟨?_, ?_⟩, by simp⟩ <;> simp [Step.Resets]
  have hresets : set.step.Resets (Rollup.key "Fix login") := .inl ⟨_, rfl⟩
  have hstill : ∀ o ∈ retries ++ [], o.Still := by
    simp [retries, Occasion.Still, times]
  obtain ⟨hcleanup, hget, hrollup, hreset⟩ := unreadable_until_reset smudged
  refine ⟨hbad, hspares, hresets, hstill, ?_, hget _ hbad times, ?_, ?_⟩
  · obtain ⟨later, hlater, hkept⟩ := hcleanup times
    refine ⟨later, hlater, Option.eq_none_iff_forall_ne_some.2 fun bytes hbytes => ?_, ?_⟩
    · obtain ⟨hold, hfresh⟩ := (hkept _ _).1 hbytes
      rw [smudged, Store.find?_insert, if_neg (key_ne_old _).symm, Store.find?_insert, if_pos rfl]
        at hold
      obtain rfl := Option.some.inj hold
      exact hfresh (isStale_iff.1 (by decide +kernel))
    · refine (hkept _ _).2 ⟨hfind, ?_⟩
      rintro ⟨entry, hentry, -⟩
      simp [hread] at hentry
  · exact (hrollup "Fix login" hbad retries hspares _ times).1
  · have hslot (lifetime rank : Nat) (slot : Option ByteArray) :
        set.slotAfter lifetime rank (Rollup.key "Fix login") slot =
          some (Entry.write ⟨"• Fixed login", times 0⟩) := by
      simp [Occasion.slotAfter, set]
    have hwritten : Entry.read? (Entry.write ⟨"• Fixed login", times 0⟩) =
        some ⟨"• Fixed login", times 0⟩ :=
      Entry.read?_write ⟨by decide, by decide, by decide⟩
    have hlifetime (d : Desk) : (d.attendAll (retries ++ [set])).lifetime = d.lifetime := by
      simp [retries, set, Desk.attendAll, Desk.attend, lifetime_step]
    have hfresh : Entry.isExpired ⟨"• Fixed login", times 0⟩ 1 (times 0) = false := by decide
    rw [hreset _ set hresets retries [] hstill _ times, Desk.attend, step_get, hlifetime,
      Desk.attendAll_append, Desk.attendAll_cons, Desk.attendAll_nil, find?_attend, hslot]
    simp [hwritten, smudged, Desk.fresh, hfresh]

end TeamDigest.Rollup
