import TeamDigest.Proofs.Rollup.Plans

/-!
# Recalls side by side

The rollups of several texts may be recalled at the same time over one store, each by
a plan of its own.  In every turn one of these recalls makes its next move, or
somebody clears or cleans up the store; the turns come in any order.  So between the
look of a recall at a slot and the entry that it keeps there, others may have dropped
that slot or written over it.

## Strategy

The recalls meet nowhere but in the store.  Each of them relies on it that a slot holds
the text of an entry with a rollup which the writer has returned for the text of the slot
(`Relies`), and gives the same assurance for what it puts there itself (`Assures`).  What
is read of such a slot has the rollup that was written (`Entry.rollup_of_read?`), whatever
the clock has shown.  That is a property of the plan of one recall (`meets_rollup`).  One
turn then preserves the property of the whole pool (`Sound.turn`), and so does any schedule
(`Sound.run`).

Which rollups the writer has returned changes in the course of a schedule, and a recall
relies on more and more.  The invariant is therefore stated for a fixed relation
`known`, which in the end is taken to be what has been returned by the last turn.
-/

namespace TeamDigest.Rollup

open Time

/-- A text with what is left to do for its rollup. -/
structure Recall where
  text : String
  rest : Plan moves String

/-- Recalls that share a store. -/
structure Pool where
  desk : Desk
  recalls : List Recall
  /-- The moves that were answered, the latest first. -/
  account : List (Reply moves)

inductive Turn where
  /-- A recall makes its next move; if the writer is asked, it answers with `reply`. -/
  | move (number : Nat) (now : Instant) (reply : Except Error String)
  | clear
  | cleanup (now : Instant)
  /-- A single slot goes, as in a cleanup that takes its time. -/
  | drop (key : String)

namespace Pool

/-- The recalls of several texts before their first moves. -/
def start (lifetime : Nat) (texts : List String) : Pool :=
  ⟨Desk.fresh lifetime, texts.map fun text => ⟨text, rollup lifetime text⟩, []⟩

def turn (p : Pool) : Turn → Pool
  | .move number now reply =>
    match p.recalls[number]? with
    | some ⟨text, .ask m next⟩ =>
      match Desk.move (fun _ => now) (fun _ => reply) m p.desk with
      | (.ok answer, desk) =>
        ⟨desk, p.recalls.set number ⟨text, next answer⟩, ⟨m, answer⟩ :: p.account⟩
      | (.error error, desk) =>
        { p with desk, recalls := p.recalls.set number ⟨text, .fail error⟩ }
    | _ => p
  | .clear => { p with desk := (p.desk.step (fun _ => default) .clear).2 }
  | .cleanup now => { p with desk := (p.desk.step (fun _ => now) .cleanup).2 }
  | .drop key => { p with desk := { p.desk with store := p.desk.store.erase key } }

def run (p : Pool) (schedule : List Turn) : Pool := schedule.foldl turn p

/-- The writer has returned the rollup for the text. -/
def Returned (p : Pool) (text rollup : String) : Prop :=
  (⟨Move.write text, rollup⟩ : Reply moves) ∈ p.account

end Pool

/-! ## One recall -/

section

variable (texts : List String) (known : String → String → Prop)

/-- In the slot stands what is written of an entry, and its rollup is known for each of the
texts with the key. -/
def Trusted (key : String) (bytes : ByteArray) : Prop :=
  ∃ entry : Entry, bytes = entry.write ∧
    ∀ text ∈ texts, Rollup.key text = key → known text entry.rollup

/-- What a recall relies on. -/
def Relies : Reply moves → Prop
  | ⟨.store (.look key), answer⟩ => ∀ bytes, answer = some bytes → Trusted texts known key bytes
  | ⟨.write text, rollup⟩ => known text rollup
  | _ => True

/-- What a recall assures the others of: that it puts such entries into the store only, and
does no more to it than that, to look, to drop slots and to flush. -/
def Assures : Move → Prop
  | .store (.put key bytes) => Trusted texts known key bytes
  | .store (.look _) | .store (.drop _) | .store .flush | .now | .write _ => True
  | .store _ => False

end

variable {texts : List String} {known : String → String → Prop} {lifetime : Nat} {text : String}

theorem meets_get (htext : text ∈ texts) :
    (get lifetime (key text)).Meets (Relies texts known) (Assures texts known)
      fun found => ∀ rollup, found = some rollup → known text rollup := by
  refine ⟨trivial, fun found hfound => ?_⟩
  cases found with
  | none => exact fun rollup hrollup => by simp at hrollup
  | some bytes =>
      obtain ⟨entry, rfl, hentry⟩ := hfound bytes rfl
      dsimp only
      cases hread : Entry.read? entry.write with
      | none => trivial
      | some found =>
          refine ⟨trivial, fun now _ => ?_⟩
          beta_reduce
          split
          · exact ⟨trivial, fun _ _ rollup hrollup => by simp at hrollup⟩
          · rintro rollup ⟨⟩
            rw [Entry.rollup_of_read? hread]
            exact hentry text htext rfl

/-- A recall that can rely on the store returns a rollup of its text, and keeps only
that, provided that no other text has the same key. -/
theorem meets_rollup (htext : text ∈ texts)
    (hkey : ∀ other ∈ texts, key other = key text → other = text) :
    (rollup lifetime text).Meets (Relies texts known) (Assures texts known) (known text) := by
  refine (meets_get htext).bind fun found hfound => ?_
  cases found with
  | some rollup => exact hfound rollup rfl
  | none =>
      refine ⟨trivial, fun rollup hrollup => ⟨trivial, fun now _ => ⟨?_, fun _ _ => ?_⟩⟩⟩
      · refine ⟨_, rfl, fun other hother hsame => ?_⟩
        rw [hkey other hother hsame]
        exact hrollup
      · exact ⟨trivial, fun _ _ => hrollup⟩

/-! ## One turn -/

/-- The recalls rely on the store and assure each other, and the store deserves it. -/
structure Pool.Sound (texts : List String) (known : String → String → Prop) (p : Pool) :
    Prop where
  recalls : ∀ r ∈ p.recalls,
    r.rest.Meets (Relies texts known) (Assures texts known) (known r.text)
  slots : ∀ key bytes, p.desk.store.find? key = some bytes → Trusted texts known key bytes

variable {clock : Nat → Instant} {writer : String → Except Error String} {d : Desk} {m : Move}
  {p : Pool} {t : Turn}

theorem trusted_of_move (hslots : ∀ key bytes, d.store.find? key = some bytes →
      Trusted texts known key bytes) (hm : Assures texts known m) (key : String)
    (bytes : ByteArray) (hfind : (Desk.move clock writer m d).2.store.find? key = some bytes) :
    Trusted texts known key bytes := by
  cases m with
  | store operation =>
      cases operation with
      | put kept content =>
          simp only [Desk.move, Store.perform, Store.find?_insert] at hfind
          split at hfind
          · next hkey =>
              subst hkey
              exact Option.some.inj hfind ▸ hm
          · exact hslots key bytes hfind
      | drop dropped =>
          simp only [Desk.move, Store.perform, Store.find?_erase] at hfind
          split at hfind
          · simp at hfind
          · exact hslots key bytes hfind
      | look looked => exact hslots key bytes hfind
      | flush => exact hslots key bytes hfind
      | list => exact hm.elim
      | clear => exact hm.elim
      | count => exact hm.elim
      | extent => exact hm.elim
  | now => exact hslots key bytes hfind
  | write text => exact hslots key bytes hfind

theorem relies_of_move (hslots : ∀ key bytes, d.store.find? key = some bytes →
      Trusted texts known key bytes) {answer : m.Answer}
    (hanswer : (Desk.move clock writer m d).1 = .ok answer)
    (hwritten : ∀ text rollup, (⟨m, answer⟩ : Reply moves) = ⟨.write text, rollup⟩ →
      known text rollup) : Relies texts known ⟨m, answer⟩ := by
  cases m with
  | store operation =>
      cases operation with
      | look key =>
          obtain rfl := Except.ok.inj hanswer
          exact hslots key
      | _ => trivial
  | write text => exact hwritten text answer rfl
  | now => trivial

/-- A move does nothing where no recall is left to make it; else the recall goes on with
the answer, or fails. -/
theorem turn_move_cases (p : Pool) (number : Nat) (now : Instant) (reply : Except Error String) :
    p.turn (.move number now reply) = p ∨
      ∃ text m next, p.recalls[number]? = some ⟨text, .ask m next⟩ ∧
        ((∃ answer, (Desk.move (fun _ => now) (fun _ => reply) m p.desk).1 = .ok answer ∧
          p.turn (.move number now reply) =
            ⟨(Desk.move (fun _ => now) (fun _ => reply) m p.desk).2,
              p.recalls.set number ⟨text, next answer⟩, ⟨m, answer⟩ :: p.account⟩) ∨
        ∃ error, p.turn (.move number now reply) =
          ⟨(Desk.move (fun _ => now) (fun _ => reply) m p.desk).2,
            p.recalls.set number ⟨text, .fail error⟩, p.account⟩) := by
  cases hrecall : p.recalls[number]? with
  | none => exact .inl (by simp [Pool.turn, hrecall])
  | some r =>
      obtain ⟨text, rest⟩ := r
      cases rest with
      | done rollup => exact .inl (by simp [Pool.turn, hrecall])
      | fail error => exact .inl (by simp [Pool.turn, hrecall])
      | ask m next =>
          refine .inr ⟨text, m, next, rfl, ?_⟩
          cases hmove : Desk.move (fun _ => now) (fun _ => reply) m p.desk with
          | mk result desk =>
              cases result with
              | ok answer => exact .inl ⟨answer, rfl, by simp [Pool.turn, hrecall, hmove]⟩
              | error error => exact .inr ⟨error, by simp [Pool.turn, hrecall, hmove]⟩

theorem returned_turn {text rollup : String} (hreturned : p.Returned text rollup) :
    (p.turn t).Returned text rollup := by
  cases t with
  | move number now reply =>
      obtain hsame | ⟨_, _, _, -, ⟨answer, -, hturn⟩ | ⟨error, hturn⟩⟩ :=
        turn_move_cases p number now reply
      · rwa [hsame]
      · rw [hturn]
        exact List.mem_cons_of_mem _ hreturned
      · rw [hturn]
        exact hreturned
  | clear => exact hreturned
  | cleanup now => exact hreturned
  | drop key => exact hreturned

/-- If what the writer has returned is known after a turn, that turn preserves
soundness. -/
theorem Pool.Sound.turn (hp : p.Sound texts known)
    (hknown : ∀ text rollup, (p.turn t).Returned text rollup → known text rollup) :
    (p.turn t).Sound texts known := by
  cases t with
  | move number now reply =>
      obtain hsame | ⟨text, m, next, hrecall, hmove⟩ := turn_move_cases p number now reply
      · rwa [hsame]
      · have hmeets := hp.recalls _ (List.mem_of_getElem? hrecall)
        have hslots : ∀ key bytes,
            (Desk.move (fun _ => now) (fun _ => reply) m p.desk).2.store.find? key = some bytes →
              Trusted texts known key bytes :=
          trusted_of_move hp.slots hmeets.1
        obtain ⟨answer, hanswer, hturn⟩ | ⟨error, hturn⟩ := hmove
        · rw [hturn] at hknown ⊢
          -- What the writer returns in this very turn is known, too.
          have hrelies : Relies texts known ⟨m, answer⟩ :=
            relies_of_move hp.slots hanswer fun text rollup hsame =>
              hknown text rollup (hsame ▸ List.mem_cons_self)
          refine ⟨fun r hr => ?_, hslots⟩
          obtain hr | rfl := List.mem_or_eq_of_mem_set hr
          · exact hp.recalls r hr
          · exact hmeets.2 answer hrelies
        · rw [hturn]
          refine ⟨fun r hr => ?_, hslots⟩
          obtain hr | rfl := List.mem_or_eq_of_mem_set hr
          · exact hp.recalls r hr
          · trivial
  | clear => exact ⟨hp.recalls, fun key bytes hfind => by simp [Pool.turn, step_clear] at hfind⟩
  | cleanup now =>
      refine ⟨hp.recalls, fun key bytes hfind => ?_⟩
      simp only [Pool.turn, find?_step_cleanup] at hfind
      exact hp.slots key bytes (Option.filter_eq_some_iff.1 hfind).1
  | drop dropped =>
      refine ⟨hp.recalls, fun key bytes hfind => ?_⟩
      simp only [Pool.turn, Store.find?_erase] at hfind
      split at hfind
      · simp at hfind
      · exact hp.slots key bytes hfind

theorem texts_turn (p : Pool) (t : Turn) :
    (p.turn t).recalls.map Recall.text = p.recalls.map Recall.text := by
  cases t with
  | move number now reply =>
      have hset {text : String} {rest other : Plan moves String}
          (hrecall : p.recalls[number]? = some ⟨text, rest⟩) :
          (p.recalls.set number ⟨text, other⟩).map Recall.text = p.recalls.map Recall.text := by
        obtain ⟨hnumber, hr⟩ := List.getElem?_eq_some_iff.1 hrecall
        have hsame := List.set_getElem_self
          (show number < (p.recalls.map Recall.text).length by simpa using hnumber)
        rw [List.getElem_map, hr] at hsame
        rw [List.map_set, hsame]
      obtain hsame | ⟨text, m, next, hrecall, ⟨answer, -, hturn⟩ | ⟨error, hturn⟩⟩ :=
        turn_move_cases p number now reply
      · rw [hsame]
      · rw [hturn]
        exact hset hrecall
      · rw [hturn]
        exact hset hrecall
  | clear => rfl
  | cleanup now => rfl
  | drop key => rfl

/-! ## All turns -/

@[simp] theorem Pool.run_nil (p : Pool) : p.run [] = p := rfl

@[simp] theorem Pool.run_cons (p : Pool) (t : Turn) (schedule : List Turn) :
    p.run (t :: schedule) = (p.turn t).run schedule := rfl

theorem returned_run {schedule : List Turn} {text rollup : String}
    (hreturned : p.Returned text rollup) : (p.run schedule).Returned text rollup := by
  induction schedule generalizing p with
  | nil => exact hreturned
  | cons t schedule ih => exact ih (returned_turn hreturned)

theorem texts_run (p : Pool) (schedule : List Turn) :
    (p.run schedule).recalls.map Recall.text = p.recalls.map Recall.text := by
  induction schedule generalizing p with
  | nil => rfl
  | cons t schedule ih => exact (ih (p.turn t)).trans (texts_turn p t)

theorem Pool.Sound.run {schedule : List Turn} (hp : p.Sound texts known)
    (hknown : ∀ text rollup, (p.run schedule).Returned text rollup → known text rollup) :
    (p.run schedule).Sound texts known := by
  induction schedule generalizing p with
  | nil => exact hp
  | cons t schedule ih =>
      have hturn : (p.turn t).Sound texts known :=
        hp.turn fun text rollup hreturned =>
          hknown text rollup (returned_run (p := p.turn t) hreturned)
      exact ih hturn hknown

theorem sound_start (hkeys : ∀ text ∈ texts, ∀ other ∈ texts, key other = key text → other = text) :
    (Pool.start lifetime texts).Sound texts known := by
  refine ⟨fun r hr => ?_, fun key bytes hfind => by simp [Pool.start, Desk.fresh] at hfind⟩
  obtain ⟨text, htext, rfl⟩ := List.mem_map.1 hr
  exact meets_rollup htext (hkeys text htext)

/-- Let any number of recalls share a store that is empty at first, such that different
texts have different keys.  In whatever order they move, and whatever the writer
answers, each rollup that a recall ends with has been returned by the writer for its
text.  Under the key of a text there stands an entry with such a rollup, if anything, and no
other rollup is read of it. -/
theorem returned_of_shared (lifetime : Nat) {texts : List String}
    (hkeys : ∀ text ∈ texts, ∀ other ∈ texts, key other = key text → other = text)
    (schedule : List Turn) :
    ((Pool.start lifetime texts).run schedule).recalls.map Recall.text = texts ∧
    (∀ r ∈ ((Pool.start lifetime texts).run schedule).recalls, ∀ rollup, r.rest = .done rollup →
      ((Pool.start lifetime texts).run schedule).Returned r.text rollup) ∧
    ∀ text ∈ texts, ∀ bytes,
      ((Pool.start lifetime texts).run schedule).desk.store.find? (key text) = some bytes →
        ∃ entry : Entry, bytes = entry.write ∧
          (∀ found, Entry.read? bytes = some found → found.rollup = entry.rollup) ∧
          ((Pool.start lifetime texts).run schedule).Returned text entry.rollup := by
  have hsound : ((Pool.start lifetime texts).run schedule).Sound texts
      ((Pool.start lifetime texts).run schedule).Returned :=
    (sound_start hkeys).run fun _ _ hreturned => hreturned
  refine ⟨?_, fun r hr rollup hdone => ?_, fun text htext bytes hfind => ?_⟩
  · rw [texts_run]
    simp [Pool.start, Function.comp_def]
  · have hmeets := hsound.recalls r hr
    rw [hdone] at hmeets
    exact hmeets
  · obtain ⟨entry, rfl, hknown⟩ := hsound.slots (key text) bytes hfind
    exact ⟨entry, rfl, fun _ => Entry.rollup_of_read?, hknown text htext rfl⟩

/-- Two recalls look at the store before either of them keeps its entry there, and
the store is cleared after the first one has. -/
def sideBySide : List Turn :=
  [.move 0 ⟨0, 0⟩ (.error .json), .move 1 ⟨0, 0⟩ (.error .json),
    .move 0 ⟨1, 0⟩ (.ok "• Login works"), .move 1 ⟨1, 0⟩ (.ok "• Fixed login"),
    .move 0 ⟨2, 0⟩ (.error .json), .move 1 ⟨2, 0⟩ (.error .json),
    .move 0 ⟨2, 0⟩ (.error .json), .move 0 ⟨2, 0⟩ (.error .json), .clear,
    .move 1 ⟨3, 0⟩ (.error .json), .move 1 ⟨3, 0⟩ (.error .json)]

/-- The two recalls return different rollups of one text, and the writer has returned
both. -/
theorem returned_of_shared_sideBySide :
    (∀ text ∈ ["Fix login", "Fix login", "Add export"],
      ∀ other ∈ ["Fix login", "Fix login", "Add export"], key other = key text → other = text) ∧
    ((Pool.start 24 ["Fix login", "Fix login", "Add export"]).run sideBySide).Returned
      "Fix login" "• Login works" ∧
    ((Pool.start 24 ["Fix login", "Fix login", "Add export"]).run sideBySide).Returned
      "Fix login" "• Fixed login" := by
  have hkeys : ∀ text ∈ ["Fix login", "Fix login", "Add export"],
      ∀ other ∈ ["Fix login", "Fix login", "Add export"], key other = key text → other = text := by
    decide +kernel
  have hfirst : ((Pool.start 24 ["Fix login", "Fix login", "Add export"]).run
      sideBySide).recalls[0]? = some ⟨"Fix login", .done "• Login works"⟩ := rfl
  have hsecond : ((Pool.start 24 ["Fix login", "Fix login", "Add export"]).run
      sideBySide).recalls[1]? = some ⟨"Fix login", .done "• Fixed login"⟩ := rfl
  have hreturned := (returned_of_shared 24 hkeys sideBySide).2.1
  exact ⟨hkeys,
    hreturned ⟨"Fix login", .done "• Login works"⟩ (List.mem_of_getElem? hfirst) _ rfl,
    hreturned ⟨"Fix login", .done "• Fixed login"⟩ (List.mem_of_getElem? hsecond) _ rfl⟩

end TeamDigest.Rollup
