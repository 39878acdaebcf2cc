import TeamDigest.Proofs.Host.Stores
import TeamDigest.Proofs.Rollup.Plans
import TeamDigest.Run.Services

/-!
# The store of a run

What is proved of a store in use, a `Desk`, holds of the store that a run keeps on its
machine.  The run carries out the same plans there, so all that has to be shown is that
each of their moves does to the store of the machine what it does to that of the desk.

A plan that leaves the writer alone ends on the machine as it does on a desk with that
store and a clock that shows the same times (`carryOut_of_tend`); this covers the cleanup
with which a store is opened (`step_of_cleanup`) and the clearing of a store
(`step_of_clear`).  A rollup that a gathering asks for is the step of a desk that recalls it
(`exists_step`).  Hence the rollups of a whole gathering are what a history of such steps
brings, and the store that it leaves on the machine is the one that this history leaves on
the desk (`history_of_carryOut`).

## Strategy

A desk has a clock of its own.  `Plays` states what a plan does on every desk whose clock
tells some given times, and `Follows` that it does the same on the machine when these are the
times that the machine shows.  Both go along with the parts of a plan, and the induction on
a plan that leaves the writer alone adds one time for each look at the clock
(`follows_of_mute`).  In the same way the induction on a gathering adds one step for each
rollup that is asked for (`exists_amounts`).

The writer of a machine may give another answer each time.  A recall asks it once at most,
so the answer that its desk needs is the one of that moment (`follows_rollup`).
-/

namespace TeamDigest.Rollup

open Time Host

/-! ## Clocks -/

/-- From one of its looks on, the clock tells these times. -/
def Tells (clock : Nat → Instant) (from_ : Nat) (times : List Instant) : Prop :=
  ∀ n time, times[n]? = some time → clock (from_ + n) = time

variable {clock : Nat → Instant} {from_ : Nat}

theorem tells_cons_iff {time : Instant} {times : List Instant} :
    Tells clock from_ (time :: times) ↔ clock from_ = time ∧ Tells clock (from_ + 1) times := by
  constructor
  · refine fun h => ⟨h 0 time rfl, fun n other hother => ?_⟩
    rw [Nat.add_assoc, Nat.add_comm 1]
    exact h (n + 1) other hother
  · rintro ⟨hfirst, hrest⟩ (_ | n) other hother
    · exact hfirst.trans (Option.some.inj hother)
    · rw [Nat.add_comm n, ← Nat.add_assoc]
      exact hrest n other hother

theorem tells_append_iff {first rest : List Instant} : Tells clock from_ (first ++ rest) ↔
    Tells clock from_ first ∧ Tells clock (from_ + first.length) rest := by
  induction first generalizing from_ with
  | nil => simp [Tells]
  | cons time first ih =>
      rw [List.cons_append, tells_cons_iff, ih, tells_cons_iff, List.length_cons, and_assoc,
        Nat.add_assoc, Nat.add_comm 1]

/-- Some clock tells any given times. -/
theorem tells_getD (times : List Instant) (other : Instant) :
    Tells (fun n => times.getD n other) 0 times := by
  intro n time htime
  simp [htime]

/-! ## Plans on a desk -/

variable {α β : Type} {writer : String → Except Error String} {store later last : Store}
  {times more : List Instant} {texts further : List String}

/-- On every desk with the store and a clock that shows the times, the plan ends with the
result, leaves `later` behind, and has asked the writer for the texts, the latest first. -/
def Plays (writer : String → Except Error String) (plan : Plan moves α) (store : Store)
    (result : Except Error α) (times : List Instant) (later : Store) (texts : List String) :
    Prop :=
  ∀ clock d, d.store = store → Tells clock d.looks times →
    plan.run (Desk.move clock writer) d =
      (result, ⟨later, d.lifetime, d.looks + times.length, texts ++ d.written⟩)

theorem Plays.done (value : α) : Plays writer (.done value) store (.ok value) [] store [] := by
  rintro clock d rfl -
  rfl

theorem Plays.fail (error : Error) :
    Plays writer (.fail error : Plan moves α) store (.error error) [] store [] := by
  rintro clock d rfl -
  rfl

/-- What comes after an operation goes on with the store that this leaves. -/
theorem Plays.operate {operation : Store.Operation} {next : operation.Answer → Plan moves α}
    {result : Except Error α}
    (hnext : Plays writer (next (store.perform operation).1) (store.perform operation).2 result
      times later texts) :
    Plays writer (.ask (Move.store operation) next) store result times later texts := by
  rintro clock d rfl htimes
  have hmove : Desk.move clock writer (.store operation) d =
      (.ok (d.store.perform operation).1, { d with store := (d.store.perform operation).2 }) := rfl
  exact (Plan.run_ask_of_ok hmove).trans
    (hnext clock { d with store := (d.store.perform operation).2 } rfl htimes)

/-- A look at the clock takes up one time. -/
theorem Plays.now {next : Instant → Plan moves α} {result : Except Error α} {time : Instant}
    (hnext : Plays writer (next time) store result times later texts) :
    Plays writer (.ask Move.now next) store result (time :: times) later texts := by
  rintro clock d rfl htimes
  obtain ⟨htime, hrest⟩ := tells_cons_iff.1 htimes
  have hmove : Desk.move clock writer .now d =
      (.ok (clock d.looks), { d with looks := d.looks + 1 }) := rfl
  refine (Plan.run_ask_of_ok hmove).trans ?_
  rw [htime, hnext clock { d with looks := d.looks + 1 } rfl hrest, List.length_cons,
    Nat.add_assoc, Nat.add_comm 1]

/-- The writer is asked for a text. -/
theorem plays_write (text : String) :
    Plays writer (.ask (Move.write text) .done) store (writer text) [] store [text] := by
  rintro clock d rfl -
  exact Plan.run_ask_done (Desk.move clock writer) (Move.write text) d

theorem Plays.bind_ok {p : Plan moves α} {f : α → Plan moves β} {a : α}
    {result : Except Error β} (hp : Plays writer p store (.ok a) times later texts)
    (hf : Plays writer (f a) later result more last further) :
    Plays writer (p >>= f) store result (times ++ more) last (further ++ texts) := by
  intro clock d hd htimes
  obtain ⟨hfirst, hrest⟩ := tells_append_iff.1 htimes
  rw [Plan.run_bind_of_ok (hp clock d hd hfirst), hf clock _ rfl hrest, List.length_append,
    List.append_assoc, Nat.add_assoc]

theorem Plays.bind_error {p : Plan moves α} {f : α → Plan moves β} {error : Error}
    (hp : Plays writer p store (.error error) times later texts) :
    Plays writer (p >>= f) store (.error error) times later texts := by
  intro clock d hd htimes
  rw [Plan.run_bind_of_error (hp clock d hd htimes)]

/-! ## Plans that leave the writer alone -/

/-- The move is none of the writer's. -/
def Move.IsMute : Move → Prop
  | .write _ => False
  | _ => True

theorem mute_get (lifetime : Nat) (key : String) : (get lifetime key).AsksOnly Move.IsMute := by
  refine ⟨trivial, fun found => ?_⟩
  cases found with
  | none => trivial
  | some bytes =>
      simp only
      cases Entry.read? bytes with
      | none => trivial
      | some entry =>
          refine ⟨trivial, fun now => ?_⟩
          simp only
          split
          · exact ⟨trivial, fun _ => trivial⟩
          · trivial

theorem mute_set (key rollup : String) : (set key rollup).AsksOnly Move.IsMute :=
  ⟨trivial, fun _ => ⟨trivial, fun _ => ⟨trivial, fun _ => trivial⟩⟩⟩

theorem mute_clear : clear.AsksOnly Move.IsMute :=
  ⟨trivial, fun _ => ⟨trivial, fun _ => ⟨trivial, fun _ => trivial⟩⟩⟩

theorem mute_sweep (lifetime : Nat) (slots : List (String × ByteArray)) :
    (sweep lifetime slots).AsksOnly Move.IsMute := by
  induction slots with
  | nil => trivial
  | cons slot slots ih =>
      unfold sweep
      cases Entry.read? slot.2 with
      | none => exact ih
      | some entry =>
          refine ⟨trivial, fun now => ?_⟩
          simp only
          split
          · exact ⟨trivial, fun _ => ih.map⟩
          · exact ih

theorem mute_cleanup (lifetime : Nat) : (cleanup lifetime).AsksOnly Move.IsMute :=
  ⟨trivial, fun slots => (mute_sweep lifetime slots).bind fun _ => ⟨trivial, fun _ => trivial⟩⟩

/-! ## Plans on a machine -/

variable {σ : Type} {world : World machine σ} {archive : Archive} {holds : σ → Store → Prop}
  {write : String → Job String} {s t : σ}

theorem carryOut_bind (archive : Archive) (write : String → Job String) (p : Plan moves α)
    (f : α → Plan moves β) : archive.carryOut write (p >>= f) =
      archive.carryOut write p >>= fun a => archive.carryOut write (f a) :=
  Plan.serve_bind (J := moves) (archive.move write) p f

/-- The plan ends on the machine as on a desk with the store and a clock that shows the same
times, and leaves the same store behind. -/
def Follows (holds : σ → Store → Prop) (world : World machine σ) (archive : Archive)
    (write : String → Job String) (writer : String → Except Error String) (plan : Plan moves α)
    (s : σ) (store : Store) : Prop :=
  ∃ result t later texts, (archive.carryOut write plan).run world s = (result, t) ∧
    holds t later ∧
    Plays writer plan store result (shown world (archive.carryOut write plan) s) later texts

theorem follows_done (value : α) (hs : holds s store) :
    Follows holds world archive write writer (.done value) s store :=
  ⟨.ok value, s, store, [], rfl, hs, .done value⟩

theorem follows_fail (error : Error) (hs : holds s store) :
    Follows holds world archive write writer (.fail error : Plan moves α) s store :=
  ⟨.error error, s, store, [], rfl, hs, .fail error⟩

theorem Follows.bind {p : Plan moves α} {f : α → Plan moves β}
    (hp : Follows holds world archive write writer p s store)
    (hf : ∀ a t later, (archive.carryOut write p).run world s = (.ok a, t) → holds t later →
      Follows holds world archive write writer (f a) t later) :
    Follows holds world archive write writer (p >>= f) s store := by
  unfold Follows
  rw [carryOut_bind]
  obtain ⟨error | a, t, later, texts, hrun, hlater, hplays⟩ := hp
  · rw [shown_bind_of_error hrun]
    exact ⟨.error error, t, later, texts, Plan.run_bind_of_error hrun, hlater, hplays.bind_error⟩
  · obtain ⟨result, u, last, further, hrest, hlast, hmore⟩ := hf a t later hrun hlater
    rw [shown_bind_of_ok hrun]
    exact ⟨result, u, last, further ++ texts, (Plan.run_bind_of_ok hrun).trans hrest, hlast,
      hplays.bind_ok hmore⟩

/-- A move that the machine makes leads on. -/
theorem Follows.of_move {m : Move} {next : m.Answer → Plan moves α} {answer : m.Answer}
    (hmove : (archive.move write m).run world s = (.ok answer, t))
    (hnext : Follows holds world archive write writer (next answer) t later)
    (hplays : ∀ result times last texts, Plays writer (next answer) later result times last texts →
      Plays writer (.ask m next) store result (shown world (archive.move write m) s ++ times) last
        texts) :
    Follows holds world archive write writer (.ask m next) s store := by
  obtain ⟨result, u, last, texts, hrun, hlast, hrest⟩ := hnext
  refine ⟨result, u, last, texts, (Plan.run_bind_of_ok hmove).trans hrun, hlast, ?_⟩
  have hshown := shown_bind_of_ok (f := fun a => archive.carryOut write (next a)) hmove
  exact hshown.symm ▸ hplays _ _ _ _ hrest

/-- On a machine that keeps the store, a plan that leaves the writer alone follows it. -/
theorem follows_of_mute (write : String → Job String) (writer : String → Except Error String)
    (hkeeps : Keeps world archive.path holds) {plan : Plan moves α}
    (hmute : plan.AsksOnly Move.IsMute) (hs : holds s store) :
    Follows holds world archive write writer plan s store := by
  induction plan generalizing s store with
  | done value => exact follows_done value hs
  | fail error => exact follows_fail error hs
  | ask m next ih =>
      cases m with
      | store operation =>
          obtain ⟨t, hanswer, ht⟩ := hkeeps.operate operation hs
          have hmove : (archive.move write (.store operation)).run world s =
              (.ok (store.perform operation).1, t) := (Plan.run_ask_of_ok hanswer).trans rfl
          have hshown : shown world (archive.move write (.store operation)) s = [] := by
            refine shown_eq_nil ⟨nofun, fun found => ?_⟩
            cases found with
            | ok answer => trivial
            | error fault => trivial
          refine .of_move hmove (ih _ (hmute.2 _) ht) fun result times last texts hplays => ?_
          rw [hshown]
          exact hplays.operate
      | now =>
          obtain ⟨time, t, hanswer, ht⟩ := hkeeps.now hs
          have hmove : (archive.move write .now).run world s = (.ok time, t) :=
            (Plan.run_ask_of_ok hanswer).trans rfl
          have hshown : shown world (archive.move write .now) s = [time] :=
            congrArg (List.filterMap time?) (Plan.replies_ask_of_ok hanswer)
          refine .of_move hmove (ih time (hmute.2 time) ht) fun result times last texts hplays => ?_
          rw [hshown]
          exact hplays.now
      | write text => exact hmute.1.elim

/-- A call of the writer is followed by a desk whose writer gives the same answer. -/
theorem follows_write {text : String} {reply : Except Error String}
    (hwrite : (write text).run world s = (reply, t)) (hshown : shown world (write text) s = [])
    (ht : holds t store) :
    Follows holds world archive write (fun _ => reply) (.ask (Move.write text) .done) s store := by
  have hcall : archive.carryOut write (.ask (Move.write text) .done) = write text :=
    bind_pure (write text)
  have hnone : shown world (archive.carryOut write (.ask (Move.write text) .done)) s = [] :=
    (congrArg (shown world · s) hcall).trans hshown
  exact ⟨reply, t, store, [text], (congrArg (·.run world s) hcall).trans hwrite, ht,
    hnone.symm ▸ plays_write text⟩

/-- A recall follows the store too, with a writer that gives an answer of the machine. -/
theorem follows_rollup (hkeeps : Keeps world archive.path holds)
    (hwrite : ∀ text {s store}, holds s store → holds ((write text).run world s).2 store)
    (hshown : ∀ text s, shown world (write text) s = []) (lifetime : Nat) (text : String)
    (hs : holds s store) :
    ∃ u, Follows holds world archive write (fun _ => ((write text).run world u).1)
      (rollup lifetime text) s store := by
  let asking := ((archive.carryOut write (get lifetime (key text))).run world s).2
  refine ⟨asking, (follows_of_mute write _ hkeeps (mute_get lifetime (key text)) hs).bind ?_⟩
  intro found t later hget hlater
  obtain rfl : asking = t := congrArg Prod.snd hget
  cases found with
  | some rollup => exact follows_done rollup hlater
  | none =>
      refine (follows_write rfl (hshown text asking) (hwrite text hlater)).bind
        fun rollup u last _ hlast => ?_
      exact (follows_of_mute write _ hkeeps (mute_set (key text) rollup) hlast).bind
        fun _ _ _ _ hend => follows_done rollup hend

/-! ## Steps of a desk -/

/-- The steps that recall the rollups of some texts, with the answers of the writer if it is
asked. -/
def recalls (asked : List (String × Except Error String)) : List Step :=
  asked.map fun (text, reply) => .rollup text reply

/-- What several steps leave on a desk. -/
def Desk.leftBy (clock : Nat → Instant) (d : Desk) (steps : List Step) : Desk :=
  steps.foldl (fun d step => (d.step clock step).2) d

/-- The texts that are recalled in a history, with what comes of those that do not fail. -/
def Desk.brought (clock : Nat → Instant) (d : Desk) (asked : List (String × Except Error String)) :
    List (String × Outcome) :=
  (asked.zip (d.history clock (recalls asked))).filterMap fun (call, outcome, _) =>
    outcome.toOption.map (call.1, ·)

theorem brought_cons (clock : Nat → Instant) (d : Desk) (text : String)
    (reply : Except Error String) (asked : List (String × Except Error String)) :
    d.brought clock ((text, reply) :: asked) =
      ((d.step clock (.rollup text reply)).1.toOption.map (text, ·)).toList ++
        (d.step clock (.rollup text reply)).2.brought clock asked := by
  rw [Desk.brought, recalls, List.map_cons, Desk.history, List.zip_cons_cons, List.filterMap_cons]
  cases (d.step clock (.rollup text reply)).1 with
  | error error => rfl
  | ok outcome => rfl

/-- A plan that a step carries out ends the step as it plays. -/
theorem Plays.carryOut {plan : Plan moves α} {result : Except Error α} {reply : Except Error String}
    (h : Plays (fun _ => reply) plan store result times later texts) (outcome : α → Outcome)
    {d : Desk} (hd : d.store = store) (htimes : Tells clock d.looks times) :
    d.carryOut clock reply plan outcome = (result.map outcome,
      ⟨later, d.lifetime, d.looks + times.length, texts ++ d.written⟩) := by
  rw [Desk.carryOut, h clock d hd htimes]

end TeamDigest.Rollup

namespace TeamDigest.Run

open Time Host Rollup

variable {σ α : Type} {world : World machine σ} {services : Services} {archive : Archive}
  {lifetime : Nat} {holds : σ → Store → Prop} {s : σ} {store : Store}

/-! ## A run -/

/-- The questions of a gathering as the services answer them on a machine. -/
def Services.served (services : Services) (world : World machine σ) : World Gather.sources σ :=
  fun q => (services.answer q).run world

/-- The rollup that a reply brings, with its text. -/
def rollupOf? : Reply Gather.sources → Option (String × Outcome)
  | ⟨.rollup text, rollup⟩ => some (text, .rollup rollup)
  | _ => none

theorem rollupOf?_eq_none {reply : Reply Gather.sources}
    (h : ∀ text, reply.question ≠ .rollup text) : rollupOf? reply = none := by
  obtain ⟨q, answer⟩ := reply
  cases q with
  | rollup text => exact absurd rfl (h text)
  | _ => rfl

/-- Only rollups have an effect on the store, and ask for the time. -/
theorem holds_answer (services : Services) (hkeeps : Keeps world archive.path holds)
    {q : Gather.Question} (hq : ∀ text, q ≠ .rollup text) (hs : holds s store) :
    holds ((services.answer q).run world s).2 store ∧ shown world (services.answer q) s = [] := by
  have honline {β : Type} (client : Http.Client β) :
      holds ((Job.online client).run world s).2 store ∧ shown world (Job.online client) s = [] :=
    ⟨hkeeps.run_online client hs, shown_online client⟩
  cases q with
  | rollup text => exact absurd rfl (hq text)
  | turns n => exact ⟨hs, rfl⟩
  | incidents service w =>
      rw [Services.answer]
      cases services.incidents with
      | none => exact ⟨hs, rfl⟩
      | some account => exact honline _
  | _ => exact honline _

/-- The writer of the services gives the answer, at some moment, to a text. -/
def Services.Replies (services : Services) (world : World machine σ)
    (call : String × Except Error String) : Prop :=
  ∃ u, ((Job.online (services.writer.rollup call.1)).run world u).1 = call.2

/-- A rollup that is asked for is a step of a desk. -/
theorem exists_step (hkeeps : Keeps world archive.path holds)
    (hstore : services.store = some (archive, lifetime)) (text : String) (hs : holds s store) :
    ∃ reply result t later, services.Replies world (text, reply) ∧
      (services.answer (.rollup text)).run world s = (result, t) ∧ holds t later ∧
      ∀ clock (d : Desk), d.store = store → d.lifetime = lifetime →
        Tells clock d.looks (shown world (services.answer (.rollup text)) s) →
        ∃ written, d.step clock (.rollup text reply) = (result.map .rollup,
          ⟨later, lifetime, d.looks + (shown world (services.answer (.rollup text)) s).length,
            written⟩) := by
  have hanswer : services.answer (.rollup text) =
      archive.carryOut (fun text => Job.online (services.writer.rollup text))
        (rollup lifetime text) := by
    rw [Services.answer, Services.rollup, hstore]
  rw [hanswer]
  obtain ⟨u, result, t, later, texts, hrun, hlater, hplays⟩ :=
    follows_rollup hkeeps
      (fun text {s store} hs => hkeeps.run_online (services.writer.rollup text) hs)
      (fun text s => shown_online _) lifetime text hs
  refine ⟨((Job.online (services.writer.rollup text)).run world u).1, result, t, later, ⟨u, rfl⟩,
    hrun, hlater, ?_⟩
  rintro clock d hd rfl htimes
  exact ⟨texts ++ d.written, hplays.carryOut .rollup hd htimes⟩

/-- The recalls, with a clock that shows the times, bring these rollups and leave `later`
behind. -/
def Amounts (lifetime : Nat) (store : Store) (asked : List (String × Except Error String))
    (times : List Instant) (rollups : List (String × Outcome)) (later : Store) : Prop :=
  ∀ clock (d : Desk), d.store = store → d.lifetime = lifetime → Tells clock d.looks times →
    d.brought clock asked = rollups ∧ ∃ written, d.leftBy clock (recalls asked) =
      ⟨later, lifetime, d.looks + times.length, written⟩

theorem amounts_nil (lifetime : Nat) (store : Store) : Amounts lifetime store [] [] [] store := by
  rintro clock d rfl rfl -
  exact ⟨rfl, d.written, rfl⟩

theorem Amounts.cons {text : String} {reply result : Except Error String} {later last : Store}
    {times more : List Instant} {asked : List (String × Except Error String)}
    {rollups : List (String × Outcome)}
    (hstep : ∀ clock (d : Desk), d.store = store → d.lifetime = lifetime →
      Tells clock d.looks times → ∃ written, d.step clock (.rollup text reply) =
        (result.map .rollup, ⟨later, lifetime, d.looks + times.length, written⟩))
    (hrest : Amounts lifetime later asked more rollups last) :
    Amounts lifetime store ((text, reply) :: asked) (times ++ more)
      ((result.toOption.map fun rollup => (text, Outcome.rollup rollup)).toList ++ rollups)
      last := by
  intro clock d hd hlifetime htimes
  obtain ⟨hfirst, hmore⟩ := tells_append_iff.1 htimes
  obtain ⟨written, hstep⟩ := hstep clock d hd hlifetime hfirst
  obtain ⟨hbrought, further, hleft⟩ :=
    hrest clock ⟨later, lifetime, d.looks + times.length, written⟩ rfl rfl hmore
  constructor
  · rw [brought_cons, hstep, hbrought]
    cases result with
    | ok rollup => rfl
    | error error => rfl
  · refine ⟨further, ?_⟩
    rw [List.length_append, ← Nat.add_assoc, ← hleft, recalls, List.map_cons, Desk.leftBy,
      List.foldl_cons, hstep]
    rfl

/-- A gathering goes along with a history of recalls. -/
theorem exists_amounts (hkeeps : Keeps world archive.path holds)
    (hstore : services.store = some (archive, lifetime)) (task : Gather.Task α)
    (hs : holds s store) :
    ∃ asked later, (∀ call ∈ asked, services.Replies world call) ∧
      holds ((services.carryOut task).run world s).2 later ∧
      Amounts lifetime store asked (shown world (services.carryOut task) s)
        ((task.replies (services.served world) s).filterMap rollupOf?) later := by
  induction task generalizing s store with
  | done value => exact ⟨[], store, by simp, hs, amounts_nil lifetime store⟩
  | fail error => exact ⟨[], store, by simp, hs, amounts_nil lifetime store⟩
  | ask q next ih =>
      have hcarry : services.carryOut (.ask q next) =
          services.answer q >>= fun answer => services.carryOut (next answer) := rfl
      rw [hcarry]
      by_cases hq : ∃ text, q = .rollup text
      · obtain ⟨text, rfl⟩ := hq
        obtain ⟨reply, result, t, later, hreply, hanswer, hlater, hstep⟩ :=
          exists_step hkeeps hstore text hs
        cases result with
        | ok rollup =>
            obtain ⟨asked, last, hasked, hlast, hrest⟩ := ih rollup hlater
            refine ⟨(text, reply) :: asked, last, List.forall_mem_cons.2 ⟨hreply, hasked⟩, ?_, ?_⟩
            · rwa [Plan.run_bind_of_ok hanswer]
            · rw [shown_bind_of_ok hanswer, Plan.replies_ask_of_ok hanswer]
              exact .cons hstep hrest
        | error error =>
            refine ⟨[(text, reply)], later, List.forall_mem_singleton.2 hreply, ?_, ?_⟩
            · rwa [Plan.run_bind_of_error hanswer]
            · rw [shown_bind_of_error hanswer, Plan.replies_ask_of_error hanswer,
                ← List.append_nil (shown world _ s)]
              exact .cons hstep (amounts_nil lifetime later)
      · have hother : ∀ text, q ≠ .rollup text := fun text htext => hq ⟨text, htext⟩
        obtain ⟨hkept, hshown⟩ := holds_answer services hkeeps hother hs
        rcases hanswer : (services.answer q).run world s with ⟨error | answer, t⟩
        · rw [hanswer] at hkept
          refine ⟨[], store, by simp, ?_, ?_⟩
          · rwa [Plan.run_bind_of_error hanswer]
          · rw [shown_bind_of_error hanswer, hshown, Plan.replies_ask_of_error hanswer]
            exact amounts_nil lifetime store
        · rw [hanswer] at hkept
          rw [Plan.run_bind_of_ok hanswer, shown_bind_of_ok hanswer, hshown,
            Plan.replies_ask_of_ok hanswer, List.filterMap_cons_none (rollupOf?_eq_none hother)]
          exact ih answer hkept

/-- The rollups that a gathering is given, and the store that it leaves on the machine, are
those of a desk with the same store on which they are recalled one after the other: the clock
of the desk tells the times that the machine has shown, and its writer gives the answers of
the writer on the machine. -/
theorem history_of_carryOut (hkeeps : Keeps world archive.path holds)
    (hstore : services.store = some (archive, lifetime)) (task : Gather.Task α)
    (hs : holds s store) :
    ∃ asked, (∀ call ∈ asked, services.Replies world call) ∧
      ∀ clock, Tells clock 0 (shown world (services.carryOut task) s) →
        let desk : Desk := ⟨store, lifetime, 0, []⟩
        let left := desk.leftBy clock (recalls asked)
        desk.brought clock asked = (task.replies (services.served world) s).filterMap rollupOf? ∧
          left.looks = (shown world (services.carryOut task) s).length ∧
          holds ((services.carryOut task).run world s).2 left.store := by
  obtain ⟨asked, later, hasked, hlater, hamounts⟩ := exists_amounts hkeeps hstore task hs
  refine ⟨asked, hasked, fun clock htimes => ?_⟩
  obtain ⟨hbrought, written, hleft⟩ := hamounts clock ⟨store, lifetime, 0, []⟩ rfl rfl htimes
  dsimp only
  rw [hleft]
  exact ⟨hbrought, Nat.zero_add _, hlater⟩

/-- What is done to an archive without a writer is done to a desk with its store. -/
theorem carryOut_of_tend (hkeeps : Keeps world archive.path holds) {plan : Plan moves α}
    (hmute : plan.AsksOnly Move.IsMute) (outcome : α → Outcome) (lifetime : Nat)
    (hs : holds s store) {clock : Nat → Instant}
    (htimes : Tells clock 0 (shown world (archive.tend plan) s)) :
    let desk : Desk := ⟨store, lifetime, 0, []⟩
    let left := desk.carryOut clock (.error .json) plan outcome
    ((archive.tend plan).run world s).1.map outcome = left.1 ∧
      holds ((archive.tend plan).run world s).2 left.2.store := by
  obtain ⟨result, t, later, texts, hrun, hlater, hplays⟩ :=
    follows_of_mute (fun _ => .fail .json) (fun _ => .error .json) hkeeps hmute hs
  dsimp only
  rw [Archive.tend, hrun, hplays.carryOut (d := ⟨store, lifetime, 0, []⟩) outcome rfl htimes]
  exact ⟨rfl, hlater⟩

/-- The cleanup of an archive that has been opened is a step of a desk. -/
theorem step_of_cleanup (hkeeps : Keeps world archive.path holds) (lifetime : Nat)
    (hs : holds s store) {clock : Nat → Instant}
    (htimes : Tells clock 0 (shown world (archive.tend (cleanup lifetime)) s)) :
    let left := (⟨store, lifetime, 0, []⟩ : Desk).step clock .cleanup
    ((archive.tend (cleanup lifetime)).run world s).1.map .count = left.1 ∧
      holds ((archive.tend (cleanup lifetime)).run world s).2 left.2.store :=
  carryOut_of_tend hkeeps (mute_cleanup lifetime) .count lifetime hs htimes

/-- So is the clearing of an archive. -/
theorem step_of_clear (hkeeps : Keeps world archive.path holds) (lifetime : Nat)
    (hs : holds s store) {clock : Nat → Instant}
    (htimes : Tells clock 0 (shown world (archive.tend clear) s)) :
    let left := (⟨store, lifetime, 0, []⟩ : Desk).step clock .clear
    ((archive.tend clear).run world s).1.map .count = left.1 ∧
      holds ((archive.tend clear).run world s).2 left.2.store :=
  carryOut_of_tend hkeeps mute_clear .count lifetime hs htimes

/-- On a machine in memory that has opened the archive, a gathering recalls rollups as on a
desk with the store that has been there before. -/
theorem history_of_openStore {d t : Desktop} (hopen : d.openStore archive.path = (.ok (), t))
    (hfree : ∀ files, d.files.makeDirectoryIn d.working archive.path "blobs" = .ok files →
      ∀ content, ∀ file ∈ d.layout content,
        files.node? (aim d.working archive.path ++ [file.1]) ≠ some .directory)
    (hstore : services.store = some (archive, lifetime)) (task : Gather.Task α) :
    ∃ clock asked, (∀ call ∈ asked, services.Replies Desktop.world call) ∧
      Tells clock 0 (shown Desktop.world (services.carryOut task) t) ∧
      let desk : Desk :=
        ⟨(d.stores.lookup (aim d.working archive.path)).getD ∅, lifetime, 0, []⟩
      desk.brought clock asked =
          (task.replies (services.served Desktop.world) t).filterMap rollupOf? ∧
        Desktop.Holds archive.path ((services.carryOut task).run Desktop.world t).2
          (desk.leftBy clock (recalls asked)).store := by
  obtain ⟨asked, hasked, hhistory⟩ := history_of_carryOut (Desktop.keeps archive.path) hstore task
    (Desktop.holds_of_openStore hopen hfree)
  have htimes := tells_getD (shown Desktop.world (services.carryOut task) t) default
  obtain ⟨hbrought, -, hleft⟩ := hhistory _ htimes
  exact ⟨_, asked, hasked, htimes, hbrought, hleft⟩

end TeamDigest.Run
