import TeamDigest.Proofs.Rollup.Timeline

/-!
# Recalls one after another

Rollups are recalled one after another over one store, which may be closed and opened
again in between.  A recall takes its time: the moment at which it looks at the store is
one, and the moment at which it keeps what the writer has delivered is another.

A `Call` is a recall with these two moments and the reply of the writer, should it be
asked.  What the writer has delivered so far is told from the calls alone, by
`Desk.deliveries`.

## Strategy

One call either finds an entry that has not expired and changes nothing
(`call_of_fresh`), or asks the writer (`call_of_stale`).  In the second case an entry
that has expired is gone from the store, whatever the writer replies, and a failure puts
nothing in its place.  So the store may hold less than the latest delivery for a text,
and the invariant `Remembers` says when: only after every delivery for that text has
been found too old at some moment of the past.  Since the clock does not go backwards,
it is too old ever after.
-/

namespace TeamDigest.Rollup

open Time

/-! ## Calls -/

/-- A recall of the rollup of a text, with the moment of its look at the store, the
moment at which it keeps a rollup there, and the reply of the writer; the latter two are
of no account unless the writer is asked. -/
structure Call where
  text : String
  looked : Instant
  kept : Instant
  reply : Except Error String

/-- What happens to a store over which rollups are recalled. -/
inductive Visit where
  | call (c : Call)
  /-- The store is opened again, with the lifetime that it has. -/
  | reopen

/-- The clock in the course of a call.  A slot that is found is held against the clock
first, and the next look is for the entry to be kept; where no slot is found, that is
the only look. -/
def Call.clock (c : Call) (d : Desk) (look : Nat) : Instant :=
  if look = d.looks ∧ (d.store.find? (key c.text)).isSome then c.looked else c.kept

def Desk.call (d : Desk) (c : Call) : Except Error Outcome × Desk :=
  d.step (c.clock d) (.rollup c.text c.reply)

def Desk.visit (d : Desk) : Visit → Desk
  | .call c => (d.call c).2
  | .reopen => (d.step (fun _ => default) (.reopen d.lifetime)).2

def Desk.visits (d : Desk) (visits : List Visit) : Desk := visits.foldl visit d

/-- The call asks the writer for a rollup of its text. -/
def Desk.Asks (d : Desk) (c : Call) : Prop := (d.call c).2.written = c.text :: d.written

instance (d : Desk) (c : Call) : Decidable (d.Asks c) := inferInstanceAs (Decidable (_ = _))

/-- A rollup that the writer has delivered for a text, with the moment at which it was
kept. -/
structure Delivery where
  text : String
  rollup : String
  time : Instant
  deriving DecidableEq

/-- What the writer delivers in the course of one visit. -/
def Desk.delivered (d : Desk) : Visit → List Delivery
  | .call c =>
    match c.reply with
    | .ok rollup => if d.Asks c then [⟨c.text, rollup, c.kept⟩] else []
    | .error _ => []
  | .reopen => []

/-- What the writer delivers in the course of several visits, in order. -/
def Desk.deliveries (d : Desk) : List Visit → List Delivery
  | [] => []
  | v :: visits => d.delivered v ++ (d.visit v).deliveries visits

/-- The last one of the deliveries for a text. -/
def latest? (deliveries : List Delivery) (text : String) : Option Delivery :=
  (deliveries.filter (·.text = text)).getLast?

/-- The moments of a visit. -/
def Visit.moments : Visit → List Instant
  | .call c => [c.looked, c.kept]
  | .reopen => []

def moments (visits : List Visit) : List Instant := visits.flatMap Visit.moments

/-- The texts of the calls. -/
def textsOf (visits : List Visit) : List String := visits.filterMap fun
  | .call c => some c.text
  | .reopen => none

/-- The clock does not go backwards from one moment to the next; like that of any
machine, it shows instants of the calendar and no leap second. -/
structure Forward (moments : List Instant) : Prop where
  sorted : moments.Pairwise (· ≤ ·)
  ordinary : ∀ now ∈ moments, now.nano < giga
  inCalendar : ∀ now ∈ moments, now.inCalendar = true

/-- Different texts have different keys. -/
def Distinct (texts : List String) : Prop :=
  ∀ text ∈ texts, ∀ other ∈ texts, key other = key text → other = text

variable {lifetime : Nat} {visits : List Visit} {v : Visit} {c : Call} {d : Desk}
  {deliveries : List Delivery} {texts : List String} {past : List Instant} {text : String}

@[simp] theorem Desk.visits_nil (d : Desk) : d.visits [] = d := rfl

@[simp] theorem Desk.visits_concat (d : Desk) (visits : List Visit) (v : Visit) :
    d.visits (visits ++ [v]) = (d.visits visits).visit v := by
  simp [Desk.visits]

theorem deliveries_concat (d : Desk) (visits : List Visit) (v : Visit) :
    d.deliveries (visits ++ [v]) = d.deliveries visits ++ (d.visits visits).delivered v := by
  induction visits generalizing d with
  | nil => simp [Desk.deliveries]
  | cons first visits ih => simp [Desk.deliveries, ih, Desk.visits]

@[simp] theorem moments_concat (visits : List Visit) (v : Visit) :
    moments (visits ++ [v]) = moments visits ++ v.moments := by
  simp [moments]

@[simp] theorem textsOf_concat (visits : List Visit) (c : Call) :
    textsOf (visits ++ [.call c]) = textsOf visits ++ [c.text] := by
  simp [textsOf]

theorem latest?_append_self (rollup : String) (time : Instant) :
    latest? (deliveries ++ [⟨text, rollup, time⟩]) text = some ⟨text, rollup, time⟩ := by
  simp [latest?]

theorem latest?_append_other {a : Delivery} (hother : a.text ≠ text) :
    latest? (deliveries ++ [a]) text = latest? deliveries text := by
  simp [latest?, hother]

theorem mem_of_latest? {a : Delivery} (hlatest : latest? deliveries text = some a) :
    a ∈ deliveries ∧ a.text = text := by
  simpa using List.mem_of_getLast? hlatest

/-- The latest delivery is the latest by time, too, as long as the deliveries are in the
order of their moments. -/
theorem le_latest? {a b : Delivery} (hsorted : deliveries.Pairwise (·.time ≤ ·.time))
    (hlatest : latest? deliveries text = some a) (hb : b ∈ deliveries) (htext : b.text = text) :
    b.time ≤ a.time := by
  obtain ⟨earlier, hearlier⟩ := List.getLast?_eq_some_iff.1 hlatest
  have hmem : b ∈ earlier ++ [a] := hearlier ▸ List.mem_filter.2 ⟨hb, by simpa using htext⟩
  have hpairwise : (earlier ++ [a]).Pairwise (·.time ≤ ·.time) := hearlier ▸ hsorted.filter _
  rcases List.mem_append.1 hmem with hb | hb
  · exact (List.pairwise_append.1 hpairwise).2.2 b hb a List.mem_cons_self
  · rw [List.mem_singleton.1 hb]
    exact Instant.le_refl _

/-! ## One call -/

/-- A call, as a look at the store and, unless that brings a rollup, a call of the
writer. -/
theorem call_eq (d : Desk) (c : Call) :
    d.call c =
      match (get d.lifetime (key c.text)).run (Desk.move (c.clock d) fun _ => c.reply) d with
      | (.ok (some rollup), d) => (.ok (.rollup rollup), d)
      | (.error error, d) => (.error error, d)
      | (.ok none, found) =>
        match c.reply with
        | .ok rollup => (.ok (.rollup rollup), { found with
            store := found.store.insert (key c.text) (Entry.write ⟨rollup, c.clock d found.looks⟩)
            looks := found.looks + 1
            written := c.text :: found.written })
        | .error error => (.error error, { found with written := c.text :: found.written }) :=
  step_rollup (c.clock d) d c.text c.reply

/-- An entry that has not expired is recalled, and nothing is changed. -/
theorem call_of_fresh {entry : Entry} (hslot : d.store.held? (key c.text) = some entry)
    (hfresh : Instant.elapsed entry.storedAt c.looked ≤ Instant.ofHours d.lifetime) :
    d.call c = (.ok (.rollup entry.rollup), { d with looks := d.looks + 1 }) := by
  obtain ⟨bytes, hfind, hread⟩ := Option.bind_eq_some_iff.1 hslot
  have hclock : c.clock d d.looks = c.looked := by simp [Call.clock, hfind]
  have hexpired : entry.isExpired d.lifetime c.looked = false := isExpired_eq_false_iff.2 hfresh
  simp [call_eq, run_get, hfind, hread, hclock, hexpired]

/-- Where there is no entry, or one that has expired, the writer is asked. What it
delivers is kept; if it fails, the slot is empty afterwards. -/
theorem call_of_stale
    (hstale : d.store.find? (key c.text) = none ∨
      ∃ entry, d.store.held? (key c.text) = some entry ∧
        Instant.ofHours d.lifetime < Instant.elapsed entry.storedAt c.looked) :
    (d.call c).1 = c.reply.map .rollup ∧ d.Asks c ∧ (d.call c).2.lifetime = d.lifetime ∧
      ∀ other, (d.call c).2.store.find? other =
        if other = key c.text then
          c.reply.toOption.map fun rollup => Entry.write ⟨rollup, c.kept⟩
        else d.store.find? other := by
  unfold Desk.Asks
  rcases hstale with hslot | ⟨entry, hslot, hold⟩
  · have hclock : c.clock d d.looks = c.kept := by simp [Call.clock, hslot]
    have hcall : (get d.lifetime (key c.text)).run (Desk.move (c.clock d) fun _ => c.reply) d =
        (.ok none, d) := by
      simp [run_get, hslot]
    rw [call_eq, hcall]
    cases hreply : c.reply with
    | ok rollup => simp [Except.map, Except.toOption, Store.find?_insert, hclock]
    | error error =>
        refine ⟨rfl, rfl, rfl, fun other => ?_⟩
        by_cases hother : other = key c.text
        · simp [hother, hslot, Except.toOption]
        · simp [hother]
  · obtain ⟨bytes, hfind, hread⟩ := Option.bind_eq_some_iff.1 hslot
    have hlooked : c.clock d d.looks = c.looked := by simp [Call.clock, hfind]
    have hkept : c.clock d (d.looks + 1) = c.kept := by simp [Call.clock]
    have hexpired : entry.isExpired d.lifetime c.looked = true := by
      simpa [Entry.isExpired] using hold
    have hcall : (get d.lifetime (key c.text)).run (Desk.move (c.clock d) fun _ => c.reply) d =
        (.ok none, { d with store := d.store.erase (key c.text), looks := d.looks + 1 }) := by
      simp [run_get, hfind, hread, hlooked, hexpired]
    rw [call_eq, hcall]
    cases hreply : c.reply with
    | ok rollup =>
        refine ⟨rfl, rfl, rfl, fun other => ?_⟩
        by_cases hother : other = key c.text
        · simp [hother, Store.find?_insert, Except.toOption, hkept]
        · simp [hother, Store.find?_insert, Store.find?_erase]
    | error error =>
        refine ⟨rfl, rfl, rfl, fun other => ?_⟩
        by_cases hother : other = key c.text
        · simp [hother, Store.find?_erase, Except.toOption]
        · simp [hother, Store.find?_erase]

/-! ## All calls -/

/-- What is read from the store is the latest delivery for its text, and a text that has no
slot has no delivery either that was not too old at some moment of the past. -/
structure Remembers (lifetime : Nat) (texts : List String) (past : List Instant)
    (deliveries : List Delivery) (d : Desk) : Prop where
  lifetime_eq : d.lifetime = lifetime
  held : ∀ text ∈ texts, ∀ bytes, d.store.find? (key text) = some bytes →
    ∃ a, latest? deliveries text = some a ∧ Entry.read? bytes = some ⟨a.rollup, a.time⟩
  gone : ∀ text ∈ texts, d.store.find? (key text) = none → ∀ a ∈ deliveries, a.text = text →
    ∃ now ∈ past, Instant.ofHours lifetime < Instant.elapsed a.time now
  time_mem : ∀ a ∈ deliveries, a.time ∈ past
  sorted : deliveries.Pairwise (·.time ≤ ·.time)

theorem Forward.of_append {later : List Instant} (h : Forward (past ++ later)) : Forward past :=
  ⟨(List.pairwise_append.1 h.sorted).1,
    fun now hnow => h.ordinary now (List.mem_append_left _ hnow),
    fun now hnow => h.inCalendar now (List.mem_append_left _ hnow)⟩

theorem Forward.ofCalendar {moments : List Instant} (h : Forward moments) {now : Instant}
    (hnow : now ∈ moments) : now.OfCalendar :=
  .of_ordinary (h.inCalendar now hnow) (h.ordinary now hnow)

/-- At a later moment, the latest delivery for a text is in the store and has not
expired, or else all deliveries for it are too old and there is nothing to recall. -/
theorem Remembers.fresh_or_stale (h : Remembers lifetime texts past deliveries d)
    (htext : c.text ∈ texts) (hforward : Forward (past ++ [c.looked])) :
    (∃ a, latest? deliveries c.text = some a ∧
      d.store.held? (key c.text) = some ⟨a.rollup, a.time⟩ ∧
      Instant.elapsed a.time c.looked ≤ Instant.ofHours d.lifetime) ∨
    ((d.store.find? (key c.text) = none ∨
        ∃ entry, d.store.held? (key c.text) = some entry ∧
          Instant.ofHours d.lifetime < Instant.elapsed entry.storedAt c.looked) ∧
      ∀ a ∈ deliveries, a.text = c.text →
        Instant.ofHours lifetime < Instant.elapsed a.time c.looked) := by
  have hordinary : ∀ now ∈ past, now.nano < giga := hforward.of_append.ordinary
  have hlooked : c.looked.nano < giga := hforward.ordinary c.looked (by simp)
  cases hslot : d.store.find? (key c.text) with
  | none =>
      refine .inr ⟨.inl rfl, fun a ha hatext => ?_⟩
      obtain ⟨now, hnow, hold⟩ := h.gone c.text htext hslot a ha hatext
      have hle : now ≤ c.looked := (List.pairwise_append.1 hforward.sorted).2.2 now hnow _ (by simp)
      calc Instant.ofHours lifetime
          < Instant.elapsed a.time now := hold
        _ ≤ Instant.elapsed a.time c.looked :=
            Instant.elapsed_le_elapsed (hordinary _ (h.time_mem a ha)) (hordinary now hnow)
              hlooked hle
  | some bytes =>
      obtain ⟨a, hlatest, hread⟩ := h.held c.text htext bytes hslot
      have hentry : d.store.held? (key c.text) = some ⟨a.rollup, a.time⟩ := by
        rw [Store.held?, hslot, Option.bind_some, hread]
      by_cases hfresh : Instant.elapsed a.time c.looked ≤ Instant.ofHours d.lifetime
      · exact .inl ⟨a, hlatest, hentry, hfresh⟩
      · have hold : Instant.ofHours d.lifetime < Instant.elapsed a.time c.looked :=
          Int.not_le.1 hfresh
        refine .inr ⟨.inr ⟨_, hentry, hold⟩, fun b hb hbtext => ?_⟩
        have hle : b.time ≤ a.time := le_latest? h.sorted hlatest hb hbtext
        have ha : a ∈ deliveries := (mem_of_latest? hlatest).1
        calc Instant.ofHours lifetime
            = Instant.ofHours d.lifetime := by rw [h.lifetime_eq]
          _ < Instant.elapsed a.time c.looked := hold
          _ ≤ Instant.elapsed b.time c.looked :=
              Instant.elapsed_le_elapsed_of_le (hordinary _ (h.time_mem b hb))
                (hordinary _ (h.time_mem a ha)) hlooked hle

theorem Remembers.mono {later : List Instant} (h : Remembers lifetime texts past deliveries d)
    (hsub : past ⊆ later) : Remembers lifetime texts later deliveries d where
  lifetime_eq := h.lifetime_eq
  held := h.held
  gone text htext hslot a ha hatext :=
    let ⟨now, hnow, hold⟩ := h.gone text htext hslot a ha hatext
    ⟨now, hsub hnow, hold⟩
  time_mem a ha := hsub (h.time_mem a ha)
  sorted := h.sorted

theorem not_asks_of_fresh {entry : Entry}
    (hslot : d.store.held? (key c.text) = some entry)
    (hfresh : Instant.elapsed entry.storedAt c.looked ≤ Instant.ofHours d.lifetime) :
    ¬ d.Asks c := by
  simp [Desk.Asks, call_of_fresh hslot hfresh]

/-- One call preserves what the store is to remember. -/
theorem Remembers.call (h : Remembers lifetime texts past deliveries d) (htext : c.text ∈ texts)
    (hdistinct : Distinct texts) (hforward : Forward (past ++ [c.looked, c.kept])) :
    Remembers lifetime texts (past ++ [c.looked, c.kept]) (deliveries ++ d.delivered (.call c))
      (d.call c).2 := by
  have hlooked : Forward (past ++ [c.looked]) := by
    have hsplit : past ++ [c.looked, c.kept] = (past ++ [c.looked]) ++ [c.kept] := by simp
    exact Forward.of_append (hsplit ▸ hforward)
  have hpast : Remembers lifetime texts (past ++ [c.looked, c.kept]) deliveries d :=
    h.mono (List.subset_append_left _ _)
  obtain ⟨a, -, hslot, hfresh⟩ | ⟨hstale, hold⟩ := h.fresh_or_stale htext hlooked
  · have hdelivered : d.delivered (.call c) = [] := by
      cases hreply : c.reply with
      | ok rollup => simp [Desk.delivered, hreply, not_asks_of_fresh hslot hfresh]
      | error error => simp [Desk.delivered, hreply]
    rw [hdelivered, List.append_nil, call_of_fresh hslot hfresh]
    exact ⟨hpast.lifetime_eq, hpast.held, hpast.gone, hpast.time_mem, hpast.sorted⟩
  · obtain ⟨-, hasks, hlifetime, hfind⟩ := call_of_stale hstale
    -- The slots of all other texts are as they were before.
    have hother {text : String} (hmem : text ∈ texts) (hne : text ≠ c.text) :
        (d.call c).2.store.find? (key text) = d.store.find? (key text) := by
      rw [hfind, if_neg fun hkey => hne (hdistinct c.text htext text hmem hkey)]
    cases hreply : c.reply with
    | ok rollup =>
        have hdelivered : d.delivered (.call c) = [⟨c.text, rollup, c.kept⟩] := by
          simp [Desk.delivered, hreply, hasks]
        have hself : (d.call c).2.store.find? (key c.text) =
            some (Entry.write ⟨rollup, c.kept⟩) := by
          simp [hfind, hreply, Except.toOption]
        have hread : Entry.read? (Entry.write ⟨rollup, c.kept⟩) = some ⟨rollup, c.kept⟩ :=
          Entry.read?_write (hforward.ofCalendar (by simp))
        rw [hdelivered]
        refine ⟨hlifetime.trans h.lifetime_eq, ?_, ?_, ?_, ?_⟩
        · intro text hmem bytes hslot
          by_cases heq : text = c.text
          · subst heq
            rw [hself] at hslot
            obtain rfl := Option.some.inj hslot
            exact ⟨_, latest?_append_self rollup c.kept, hread⟩
          · rw [hother hmem heq] at hslot
            rw [latest?_append_other (Ne.symm heq)]
            exact hpast.held text hmem bytes hslot
        · intro text hmem hslot b hb hbtext
          by_cases heq : text = c.text
          · subst heq
            rw [hself] at hslot
            exact absurd hslot (by simp)
          · rw [hother hmem heq] at hslot
            rcases List.mem_append.1 hb with hb | hb
            · exact hpast.gone text hmem hslot b hb hbtext
            · rw [List.mem_singleton.1 hb] at hbtext
              exact absurd hbtext.symm heq
        · intro b hb
          rcases List.mem_append.1 hb with hb | hb
          · exact hpast.time_mem b hb
          · simp [List.mem_singleton.1 hb]
        · refine List.pairwise_append.2 ⟨h.sorted, List.pairwise_singleton _ _, ?_⟩
          intro b hb other hlast
          rw [List.mem_singleton.1 hlast]
          exact (List.pairwise_append.1 hforward.sorted).2.2 _ (h.time_mem b hb) _ (by simp)
    | error error =>
        have hdelivered : d.delivered (.call c) = [] := by simp [Desk.delivered, hreply]
        have hself : (d.call c).2.store.find? (key c.text) = none := by
          simp [hfind, hreply, Except.toOption]
        rw [hdelivered, List.append_nil]
        refine ⟨hlifetime.trans h.lifetime_eq, ?_, ?_, hpast.time_mem, h.sorted⟩
        · intro text hmem bytes hslot
          by_cases heq : text = c.text
          · subst heq
            rw [hself] at hslot
            exact absurd hslot (by simp)
          · rw [hother hmem heq] at hslot
            exact hpast.held text hmem bytes hslot
        · intro text hmem hslot b hb hbtext
          by_cases heq : text = c.text
          · exact ⟨c.looked, by simp, hold b hb (hbtext.trans heq)⟩
          · rw [hother hmem heq] at hslot
            exact hpast.gone text hmem hslot b hb hbtext

theorem remembers_visits (htexts : textsOf visits ⊆ texts) (hdistinct : Distinct texts)
    (hforward : Forward (moments visits)) :
    Remembers lifetime texts (moments visits) ((Desk.fresh lifetime).deliveries visits)
      ((Desk.fresh lifetime).visits visits) := by
  induction visits using List.reverseRecOn with
  | nil =>
      exact ⟨rfl, by simp [Desk.fresh], by simp [Desk.deliveries], by simp [Desk.deliveries],
        by simp [Desk.deliveries]⟩
  | append_singleton visits v ih =>
      rw [moments_concat] at hforward ⊢
      rw [deliveries_concat, Desk.visits_concat]
      cases v with
      | call c =>
          rw [textsOf_concat] at htexts
          have hbefore := ih (List.Subset.trans (List.subset_append_left _ _) htexts)
            hforward.of_append
          exact hbefore.call (htexts (by simp)) hdistinct hforward
      | reopen =>
          have hbefore := ih (by simpa [textsOf] using htexts) hforward.of_append
          have hdesk : ((Desk.fresh lifetime).visits visits).visit .reopen =
              (Desk.fresh lifetime).visits visits := rfl
          simpa [hdesk, Desk.delivered, Visit.moments] using hbefore

/-- Rollups are recalled one after another over a store that is empty at first, and that
may be opened again in between; different texts have different keys.  A recall asks the
writer if and only if no rollup that it has delivered for the text is young enough.  If
it does not ask, it returns the latest one.  If the writer fails, so does the recall; no
entry comes into the store, and those under other keys stay.  If the writer delivers, its
rollup is returned and kept. -/
theorem recalls_in_turn (lifetime : Nat) {visits : List Visit} {c : Call}
    (hdistinct : Distinct (textsOf (visits ++ [.call c])))
    (hforward : Forward (moments (visits ++ [.call c]))) :
    let d := (Desk.fresh lifetime).visits visits
    let deliveries := (Desk.fresh lifetime).deliveries visits
    (d.Asks c ↔ ¬ ∃ a ∈ deliveries, a.text = c.text ∧
      Instant.elapsed a.time c.looked ≤ Instant.ofHours lifetime) ∧
    (¬ d.Asks c → (d.call c).2.written = d.written ∧ (d.call c).2.store = d.store ∧
      ∃ a, latest? deliveries c.text = some a ∧ (d.call c).1 = .ok (.rollup a.rollup)) ∧
    (d.Asks c → ∀ error, c.reply = .error error → (d.call c).1 = .error error ∧
      (d.call c).2.store.find? (key c.text) = none ∧
      ∀ other, other ≠ key c.text → (d.call c).2.store.find? other = d.store.find? other) ∧
    (d.Asks c → ∀ rollup, c.reply = .ok rollup → (d.call c).1 = .ok (.rollup rollup) ∧
      (d.call c).2.store.find? (key c.text) = some (Entry.write ⟨rollup, c.kept⟩) ∧
      ∀ other, other ≠ key c.text → (d.call c).2.store.find? other = d.store.find? other) := by
  intro d deliveries
  have hmoments : moments (visits ++ [.call c]) = (moments visits ++ [c.looked]) ++ [c.kept] := by
    simp [Visit.moments]
  rw [hmoments] at hforward
  have hlooked : Forward (moments visits ++ [c.looked]) := hforward.of_append
  have hremembers :
      Remembers lifetime (textsOf (visits ++ [.call c])) (moments visits) deliveries d :=
    remembers_visits (by simp [textsOf]) hdistinct hlooked.of_append
  obtain ⟨a, hlatest, hslot, hfresh⟩ | ⟨hstale, hold⟩ :=
    hremembers.fresh_or_stale (by simp) hlooked
  · have hasks : ¬ d.Asks c := not_asks_of_fresh hslot hfresh
    have hyoung : ∃ a ∈ deliveries, a.text = c.text ∧
        Instant.elapsed a.time c.looked ≤ Instant.ofHours lifetime := by
      obtain ⟨hmem, htext⟩ := mem_of_latest? hlatest
      exact ⟨a, hmem, htext, hremembers.lifetime_eq ▸ hfresh⟩
    refine ⟨iff_of_false hasks (not_not_intro hyoung), fun _ => ?_, fun h => absurd h hasks,
      fun h => absurd h hasks⟩
    rw [call_of_fresh hslot hfresh]
    exact ⟨rfl, rfl, a, hlatest, rfl⟩
  · obtain ⟨hresult, hasks, -, hfind⟩ := call_of_stale hstale
    have hnone : ¬ ∃ a ∈ deliveries, a.text = c.text ∧
        Instant.elapsed a.time c.looked ≤ Instant.ofHours lifetime := by
      rintro ⟨a, ha, htext, hyoung⟩
      exact Int.not_le.2 (hold a ha htext) hyoung
    have hothers (other : String) (hother : other ≠ key c.text) :
        (d.call c).2.store.find? other = d.store.find? other := by
      rw [hfind, if_neg hother]
    refine ⟨iff_of_true hasks hnone, fun h => absurd hasks h, ?_, ?_⟩
    · intro _ error hreply
      rw [hreply] at hresult
      exact ⟨hresult, by simp [hfind, hreply, Except.toOption], hothers⟩
    · intro _ rollup hreply
      rw [hreply] at hresult
      exact ⟨hresult, by simp [hfind, hreply, Except.toOption], hothers⟩

/-- A rollup expires, the writer fails at the next one, the store is opened again, and
then the writer delivers another rollup. -/
def ofOneText : List Visit :=
  [.call ⟨"Fix login", ⟨0, 0⟩, ⟨1, 0⟩, .ok "• Login works"⟩,
    .call ⟨"Fix login", ⟨3602, 0⟩, ⟨3603, 0⟩, .error (.writer .unavailable)⟩, .reopen,
    .call ⟨"Fix login", ⟨3604, 0⟩, ⟨3605, 0⟩, .ok "• Fixed login"⟩]

/-- The second one is recalled exactly at the end of its lifetime. -/
theorem recalls_of_one_text :
    let last : Call := ⟨"Fix login", ⟨7205, 0⟩, ⟨7206, 0⟩, .error (.writer .unavailable)⟩
    Distinct (textsOf (ofOneText ++ [.call last])) ∧
      Forward (moments (ofOneText ++ [.call last])) ∧
      (((Desk.fresh 1).visits ofOneText).call last).1 = .ok (.rollup "• Fixed login") := by
  intro last
  have hdistinct : Distinct (textsOf (ofOneText ++ [.call last])) := by
    simp [Distinct, textsOf, ofOneText, last]
  have hforward : Forward (moments (ofOneText ++ [.call last])) := ⟨by decide, by decide, by decide⟩
  have hdeliveries : (Desk.fresh 1).deliveries ofOneText =
      [⟨"Fix login", "• Login works", ⟨1, 0⟩⟩, ⟨"Fix login", "• Fixed login", ⟨3605, 0⟩⟩] := by
    decide +kernel
  obtain ⟨hasks, hrecalled, -⟩ := recalls_in_turn 1 hdistinct hforward
  rw [hdeliveries] at hasks hrecalled
  have hnot : ¬ ((Desk.fresh 1).visits ofOneText).Asks last := by
    rw [hasks, not_not]
    exact ⟨_, List.mem_cons_of_mem _ List.mem_cons_self, rfl, by decide⟩
  obtain ⟨-, -, a, hlatest, hresult⟩ := hrecalled hnot
  obtain rfl : ⟨"Fix login", "• Fixed login", ⟨3605, 0⟩⟩ = a := by
    simpa [latest?, last] using hlatest
  exact ⟨hdistinct, hforward, hresult⟩

end TeamDigest.Rollup
