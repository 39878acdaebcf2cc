import TeamDigest.Proofs.Run.Errand

/-!
# A report is published whole or not at all

What a run does before its report is there goes on unseen, and what it publishes has been
delivered before.  This holds on every machine that is orderly, whatever its files hold and
whatever comes over its network, and however it lays out the store of rollups.

## Strategy

An errand is a draft, a delivery and, if it is asked for, a message to a channel.  In a run
that comes into trouble the draft fails (`draft_run_of_trouble`): in the setting up that is
read off its steps, and in the gathering it is because every client of a service gives up on
a request that fails.  What remains of the run is the account of the error.

The requests of a draft are no messages, and they go to the services that the run has been
set up with (`Inward`); the delivery sends nothing.  So where a message is posted, or
anything is sent elsewhere, the run has come to its last part, the draft has ended with a
text, and the delivery of that text has ended well.
-/

namespace TeamDigest.Run

open Host

variable {σ : Type} {view : View σ} {world : World machine σ} {s t u : σ} {e : Errand}
  {line : CommandLine} {arguments : List String}

/-- What may be amiss before there is a report. -/
inductive Trouble (e : Errand) (line : CommandLine) (world : World machine σ) (s : σ) : Prop
  /-- The configuration cannot be loaded. -/
  | config {error : Error} {t : σ} (h : (loadConfig line).run world s = (.error error, t))
  /-- The token for the tracker or the key to the writer is missing. -/
  | secret {c : Config} {env : Environment} {error : Error} {t u : σ}
      (hconfig : (loadConfig line).run world s = (.ok c, t))
      (henv : environment.run world t = (.ok env, u))
      (h : c.trackerSecret env = .error error ∨ c.claudeSecret env = .error error)
  /-- A call of the gathering fails. -/
  | call {x : Errand.Setting} {t : σ} (hsetup : (e.setUp line).run world s = (.ok x, t))
      (h : (e.task x.config x.env x.window).Falters (fun q => (x.services.answer q).run world) t)
  /-- A request of the gathering fails, be it on behalf of whatever call. -/
  | request {x : Errand.Setting} {t : σ} {reply : Reply machine}
      (hsetup : (e.setUp line).run world s = (.ok x, t))
      (hreply : reply ∈ (e.gather x).replies world t) (h : Fails reply)

/-- Without its secrets, no service is opened. -/
theorem openServices_run_of_secret {c : Config} {env : Environment} {error : Error} (s : σ)
    (h : c.trackerSecret env = .error error ∨ c.claudeSecret env = .error error) :
    ∃ error, (openServices c env).run world s = (.error error, s) := by
  unfold openServices
  cases htracker : c.trackerSecret env with
  | error fault => exact ⟨fault, rfl⟩
  | ok token =>
      have hclaude : c.claudeSecret env = .error error := by simpa [htracker] using h
      exact ⟨error, by rw [hclaude]; rfl⟩

/-- In trouble, there comes no report of it. -/
theorem draft_run_of_trouble (horderly : Orderly view world) (h : Trouble e line world s) :
    ∃ error t, (e.draft line).run world s = (.error error, t) := by
  have hsetup {error : Error} {t : σ} (h : (e.setUp line).run world s = (.error error, t)) :
      ∃ error t, (e.draft line).run world s = (.error error, t) :=
    ⟨error, t, Plan.run_bind_of_error h⟩
  have hgather {x : Errand.Setting} {t u : σ} {error : Error}
      (hx : (e.setUp line).run world s = (.ok x, t))
      (h : (e.gather x).run world t = (.error error, u)) :
      ∃ error t, (e.draft line).run world s = (.error error, t) :=
    ⟨_, u, (Plan.run_bind_of_ok hx).trans <|
      Plan.run_bind_of_error (Plan.run_during_of_error horderly.total e.course h)⟩
  cases h with
  | config h => exact hsetup (Plan.run_bind_of_error h)
  | @secret c env error t u hconfig henv h =>
      obtain ⟨error, hopen⟩ :
          ∃ error, (openServices c env).run world u = (.error error, u) :=
        openServices_run_of_secret u h
      have hrun : (e.setUp line).run world s = (.error error, u) := by
        rw [Errand.setUp, Plan.run_bind_of_ok hconfig, Plan.run_bind_of_ok henv,
          Plan.run_bind_of_error hopen]
      exact hsetup hrun
  | @call x t hx h =>
      obtain ⟨error, u, herror⟩ := h.run_eq_error
      exact hgather hx ((Plan.run_serve _ _ _ _).trans herror)
  | @request x t reply hx hreply h =>
      have hplaced := e.isPlaced_of_setUp line horderly hx
      cases hrun : (e.gather x).run world t with
      | mk outcome u =>
          cases outcome with
          | error error => exact hgather hx hrun
          | ok text => exact absurd h ((e.gather_heeds hplaced).not_bad hrun hreply)

/-! ## The end of a run -/

/-- Ends a run after what has come of it. -/
def finish : Except Error ExitCode → Job ExitCode
  | .ok code => pure code
  | .error error => endBadly error

theorem program_eq (hread : CommandLine.read arguments = .ok line) (hfault : line.fault? = none) :
    program arguments = (perform line).attempt >>= finish := by
  simp only [program, hread, hfault]
  exact bind_congr fun result => by cases result <;> rfl

/-- A line to the standard error. -/
def IsNote : Question → Prop
  | .note _ => True
  | _ => False

theorem IsNote.not_touches (q : Question) (hq : IsNote q) (working place : Place)
    (before after : Option Node) : ¬ Touches working place before after q := by
  cases q with
  | note text => exact id
  | _ => exact hq.elim

theorem endBadly_asksOnly (error : Error) : (endBadly error).AsksOnly IsNote := by
  unfold endBadly
  split
  · exact ⟨trivial, fun _ => trivial⟩
  · exact ⟨trivial, fun _ => trivial⟩

theorem endBadly_run (hworld : Total world) (error : Error) (s : σ) :
    ∃ code t, (endBadly error).run world s = (.ok code, t) ∧ code ≠ 0 := by
  unfold endBadly
  split
  · obtain ⟨answer, t, h⟩ := hworld (.note (Error.outOfCalendar.message ++ "\n")) s
    exact ⟨101, t, Plan.run_ask_bind_of_ok h, by decide⟩
  · obtain ⟨answer, t, h⟩ := hworld (.note (error.account ++ "\n")) s
    exact ⟨1, t, Plan.run_ask_bind_of_ok h, by decide⟩

/-! ## The delivery -/

/-- The questions of a delivery. -/
def Delivers : Question → Prop
  | .write _ _ => True
  | .print _ => True
  | .note _ => True
  | _ => False

theorem deliver_asksOnly (text : String) (output : Option String) :
    (deliver text output).AsksOnly Delivers := by
  cases output with
  | none => exact ⟨trivial, fun _ => trivial⟩
  | some path =>
      refine Plan.AsksOnly.bind ⟨trivial, fun _ => trivial⟩ fun result => ?_
      exact (settled_asksOnly _ _).bind fun _ => ⟨trivial, fun _ => trivial⟩

/-- How a text has been delivered. -/
def delivery (text : String) : Option String → Reply machine
  | some path => ⟨.write path text.toUTF8, .ok ()⟩
  | none => ⟨.print (text ++ "\n"), ()⟩

theorem delivery_mem_of_run {text : String} {output : Option String}
    (hrun : (deliver text output).run world s = (.ok (), t)) :
    delivery text output ∈ (deliver text output).replies world s := by
  have hends := Plan.ends_of_run hrun
  generalize (deliver text output).replies world s = account at hends ⊢
  cases output with
  | none =>
      obtain rfl := Plan.ends_ask_done_iff.1 hends
      exact List.mem_singleton.2 rfl
  | some path =>
      unfold deliver Job.write at hends
      obtain ⟨result, first, rest, rfl, hwrite, hrest⟩ := Plan.ends_bind_iff.1 hends
      obtain rfl := Plan.ends_ask_done_iff.1 hwrite
      cases result with
      | error fault => exact absurd hrest Plan.not_ends_fail
      | ok done => exact List.mem_append_left _ (List.mem_singleton.2 rfl)

/-- A file that has been delivered is there. -/
theorem files_of_deliver (horderly : Orderly view world) {text path : String}
    (hrun : (deliver text (some path)).run world s = (.ok (), t)) :
    view.files t (aim (view.working s) path) = some (.file text.toUTF8) := by
  obtain ⟨result, u, hwrite⟩ := horderly.total (.write path text.toUTF8) s
  have hrest := (Plan.run_ask_bind_of_ok hwrite).symm.trans hrun
  cases result with
  | error fault => simp [Job.settled] at hrest
  | ok done =>
      have hnote : (Job.note ("✓ Wrote summary to " ++ path ++ "\n")).AsksOnly IsNote :=
        ⟨trivial, fun _ => trivial⟩
      have hsame : view.files t = view.files u := by
        have h := horderly.files_eq u hnote IsNote.not_touches
        rwa [show (Job.note _).run world u = (.ok (), t) from hrest] at h
      rw [hsame]
      exact horderly.written hwrite

/-- The questions with which a text is published. -/
def Tells (text : String) : Question → Prop
  | .exchange request => Service.Posts request text
  | .note _ => True
  | _ => False

theorem Tells.not_touches (text : String) (q : Question) (hq : Tells text q)
    (working place : Place) (before after : Option Node) :
    ¬ Touches working place before after q := by
  cases q with
  | exchange request => exact id
  | note text => exact id
  | _ => exact hq.elim

theorem online_asksOnly {α : Type} {client : Http.Client α} {text : String}
    (hclient : client.AsksOnly fun request => Service.Posts request text) :
    (Job.online client).AsksOnly (Tells text) := by
  unfold Job.online
  induction client with
  | done value => trivial
  | fail error => trivial
  | ask request next ih =>
      refine ⟨hclient.1, fun answer => ?_⟩
      cases answer with
      | error error => trivial
      | ok response => exact ih response (hclient.2 response)

theorem publish_asksOnly (c : Config) (env : Environment) (text : String) :
    (publish c env text).AsksOnly (Tells text) := by
  unfold publish
  refine (Plan.AsksOnly.ofOption _ _).bind fun webhook => ?_
  have hsent := Service.publish_asksOnly webhook text
  generalize Service.Slack.publish webhook text = client at hsent ⊢
  exact ((online_asksOnly hsent).during _).bind fun _ => ⟨trivial, fun _ => trivial⟩

/-! ## The whole run -/

/-- Nothing is printed to the standard output and no message is posted. -/
def Unseen : Question → Prop
  | .print _ => False
  | .exchange request => Service.IsSilent request
  | _ => True

/-- No message is posted, and what is sent goes to the given addresses. -/
def Inward (addresses : String → Prop) : Question → Prop
  | .exchange request => Service.IsSound addresses request
  | _ => True

/-- Nothing is sent to the address. -/
def SendsNothingTo (url : Http.Url) : Question → Prop
  | .exchange request => request.url.target ≠ url.target
  | _ => True

/-- What stands at a place is as before, but for the store of rollups under the home
directory: its directory is its own, and directories are made on the way there where there
was nothing. -/
def Spared (home : String) (working place : Place) (before after : Option Node) : Prop :=
  after = before ∨ aim working (archiveUnder home) <+: place ∨
    before = none ∧ after = some .directory ∧
      (place ∈ way working (storeUnder home) ∨ place ∈ way working (archiveUnder home))

section Kinds

variable {q : Question} {home text : String} {addresses : String → Prop}

theorem Quiet.unseen (h : Quiet home addresses q) : Unseen q := by
  cases q with
  | print text => exact h
  | exchange request => exact h.1
  | _ => trivial

theorem Quiet.inward (h : Quiet home addresses q) : Inward addresses q := by
  cases q with
  | exchange request => exact h
  | _ => trivial

theorem IsNote.unseen (h : IsNote q) : Unseen q := by
  cases q with
  | note text => trivial
  | _ => exact h.elim

theorem IsNote.tells (h : IsNote q) : Tells text q := by
  cases q with
  | note text => trivial
  | _ => exact h.elim

theorem IsNote.inward (h : IsNote q) : Inward addresses q := by
  cases q with
  | note text => trivial
  | _ => exact h.elim

theorem Delivers.inward (h : Delivers q) : Inward addresses q := by
  cases q with
  | exchange request => exact h.elim
  | _ => trivial

theorem Inward.sendsNothingTo (h : Inward addresses q) {url : Http.Url}
    (hurl : ¬ url.LeadsTo addresses) : SendsNothingTo url q := by
  cases q with
  | exchange request =>
      intro hsame
      obtain ⟨address, found, query, haddress, hread, htarget⟩ := h.2
      exact hurl ⟨address, found, query, haddress, hread, hsame ▸ htarget⟩
  | _ => trivial

end Kinds

theorem spared_of_kept {home : String} {addresses : String → Prop} {working place : Place}
    {before after : Option Node} (h : Kept (Quiet home addresses) working place before after) :
    Spared home working place before after := by
  rcases h with hsame | ⟨q, hq, htouches⟩
  · exact .inl hsame
  · cases q with
    | makeDirectory path =>
        obtain ⟨hbefore, hafter, hway⟩ := htouches
        exact .inr (.inr ⟨hbefore, hafter, .inl (hq ▸ hway)⟩)
    | openStore path =>
        rcases htouches with hinside | ⟨hbefore, hafter, hway⟩
        · exact .inr (.inl (hq ▸ hinside))
        · exact .inr (.inr ⟨hbefore, hafter, .inr (hq ▸ hway)⟩)
    | store path operation => exact .inr (.inl (hq ▸ htouches))
    | write path content => exact hq.elim
    | _ => exact htouches.elim

/-- Where something comes up after a part in which it does not, that part is over. -/
theorem eq_append_of_not_mem {α : Type} {first rest before after : List α} {a : α}
    (h : first ++ rest = before ++ a :: after) (ha : a ∉ first) :
    ∃ between, before = first ++ between ∧ rest = between ++ a :: after := by
  rcases List.append_eq_append_iff.1 h with ⟨between, hbefore, hrest⟩ | ⟨tail, hfirst, htail⟩
  · exact ⟨between, hbefore, hrest⟩
  · cases tail with
    | nil => exact ⟨[], by simpa using hfirst.symm, by simpa using htail.symm⟩
    | cons b tail =>
        obtain ⟨rfl, -⟩ := List.cons.inj htail
        exact absurd (hfirst ▸ List.mem_append_right _ List.mem_cons_self) ha

/-- A call that is refused for its options says so and does nothing else. -/
theorem refused_asksOnly {fault : String} (hread : CommandLine.read arguments = .ok line)
    (hfault : line.fault? = some fault) : (program arguments).AsksOnly IsNote := by
  simp only [program, hread, hfault]
  exact ⟨trivial, fun _ => trivial⟩

theorem refused_run (hworld : Total world) {fault : String}
    (hread : CommandLine.read arguments = .ok line) (hfault : line.fault? = some fault) (s : σ) :
    ∃ t, (program arguments).run world s = (.ok 1, t) := by
  obtain ⟨answer, t, h⟩ := hworld (.note ("Error: " ++ fault ++ "\n")) s
  simp only [program, hread, hfault]
  exact ⟨t, Plan.run_ask_bind_of_ok h⟩

theorem program_ends (hworld : Total world) (hread : CommandLine.read arguments = .ok line)
    (s : σ) : ∃ code t, (program arguments).run world s = (.ok code, t) := by
  cases hfault : line.fault? with
  | some fault =>
      obtain ⟨t, hrun⟩ := refused_run hworld hread hfault s
      exact ⟨1, t, hrun⟩
  | none =>
      rw [program_eq hread hfault]
      cases hrun : (perform line).run world s with
      | mk outcome t =>
          rw [Plan.run_bind_of_ok ((Plan.run_attempt hworld _ s).trans (by rw [hrun]))]
          cases outcome with
          | ok code => exact ⟨code, t, rfl⟩
          | error error =>
              obtain ⟨code, u, hend, -⟩ := endBadly_run hworld error t
              exact ⟨code, u, hend⟩

/-- Publishes a text if that is asked for. -/
def Errand.close (e : Errand) (x : Setting) (text : String) : Job ExitCode :=
  (if e.isPublished then publish x.config x.env text else pure ()) >>= fun _ => pure 0

theorem Errand.close_asksOnly (e : Errand) (x : Setting) (text : String) :
    (e.close x text).AsksOnly (Tells text) := by
  unfold Errand.close
  split
  · exact (publish_asksOnly _ _ _).bind fun _ => trivial
  · trivial

/-- An errand is attempted step by step: a draft, its delivery, and what follows. -/
theorem program_eq_attempt (hread : CommandLine.read arguments = .ok line)
    (hfault : line.fault? = none) (he : Errand.of? line = some e) :
    program arguments = (e.draft line >>= fun (x, text) =>
      deliver text e.output >>= fun _ => e.close x text).attempt >>= finish := by
  rw [program_eq hread hfault, Errand.perform_eq he]
  simp only [emit, Errand.close, bind_assoc]

/-- In trouble, a run ends badly and unseen. -/
theorem unseen_of_trouble (horderly : Orderly view world)
    (hread : CommandLine.read arguments = .ok line) (he : Errand.of? line = some e)
    (h : Trouble e line world s) :
    ∃ code t, (program arguments).run world s = (.ok code, t) ∧ code ≠ 0 ∧
      (∀ reply ∈ (program arguments).replies world s, Unseen reply.question) ∧
      (∀ reply ∈ (program arguments).replies world s,
        Inward (e.Asked line world s) reply.question) ∧
      ∀ place, Spared (homeOf (view.surroundings s)) (view.working s) place
        (view.files s place) (view.files t place) := by
  cases hfault : line.fault? with
  | some fault =>
      have hasks := refused_asksOnly hread hfault
      obtain ⟨t, hrun⟩ := refused_run horderly.total hread hfault s
      have hfiles := horderly.files_eq s hasks IsNote.not_touches
      rw [hrun] at hfiles
      refine ⟨1, t, hrun, Nat.one_ne_zero, fun reply hreply => ?_, fun reply hreply => ?_,
        fun place => .inl (by rw [hfiles])⟩
      · exact (hasks.of_mem_replies hreply).unseen
      · exact (hasks.of_mem_replies hreply).inward
  | none =>
      obtain ⟨error, t, hdraft⟩ := draft_run_of_trouble horderly h
      obtain ⟨code, u, hend, hcode⟩ := endBadly_run horderly.total error t
      obtain ⟨hrun, hreplies⟩ := Plan.attempt_step_of_error horderly.total finish hdraft
      rw [program_eq_attempt hread hfault he, hrun, hreplies]
      obtain ⟨⟨-, -, hkept⟩, -⟩ := horderly.run_keeps s (e.draft_meets line)
      have hfiles := horderly.files_eq t (endBadly_asksOnly error) IsNote.not_touches
      rw [hdraft] at hkept
      rw [hend] at hfiles
      refine ⟨code, u, hend, hcode, fun reply hreply => ?_, fun reply hreply => ?_,
        fun place => ?_⟩
      · rcases List.mem_append.1 hreply with hbefore | hlast
        · exact (e.quiet_of_mem_draft line horderly s hbefore).unseen
        · exact ((endBadly_asksOnly error).of_mem_replies hlast).unseen
      · rcases List.mem_append.1 hreply with hbefore | hlast
        · exact (e.quiet_of_mem_draft line horderly s hbefore).inward
        · exact ((endBadly_asksOnly error).of_mem_replies hlast).inward
      · rw [hfiles]
        exact spared_of_kept (hkept place)

/-- A step that sends nothing outward is over when something is, and it has ended well. -/
theorem over_of_outward (hworld : Total world) {addresses : String → Prop} {α : Type}
    {p : Job α} {f : α → Job ExitCode} {before after : List (Reply machine)}
    {reply : Reply machine} (hp : ∀ reply ∈ p.replies world s, Inward addresses reply.question)
    (hreplies : ((p >>= f).attempt >>= finish).replies world s = before ++ reply :: after)
    (hreply : ¬ Inward addresses reply.question) :
    ∃ a t between, p.run world s = (.ok a, t) ∧ before = p.replies world s ++ between ∧
      ((f a).attempt >>= finish).replies world t = between ++ reply :: after ∧
      ((p >>= f).attempt >>= finish).run world s = ((f a).attempt >>= finish).run world t := by
  cases hrun : p.run world s with
  | mk outcome t =>
      cases outcome with
      | ok a =>
          obtain ⟨hstep, hparts⟩ := Plan.attempt_step_of_ok (f := f) hworld finish hrun
          rw [hparts] at hreplies
          obtain ⟨between, hbefore, hrest⟩ :=
            eq_append_of_not_mem hreplies fun hmem => hreply (hp reply hmem)
          exact ⟨a, t, between, rfl, hbefore, hrest, hstep⟩
      | error error =>
          obtain ⟨-, hparts⟩ := Plan.attempt_step_of_error (f := f) hworld finish hrun
          have hmem : reply ∈ p.replies world s ++ (endBadly error).replies world t :=
            hparts ▸ hreplies ▸ List.mem_append_right _ List.mem_cons_self
          rcases List.mem_append.1 hmem with hfirst | hlast
          · exact absurd (hp reply hfirst) hreply
          · have hnote := (endBadly_asksOnly error).of_mem_replies hlast
            exact absurd hnote.inward hreply

/-- What follows a delivery only tells the text that was delivered. -/
theorem attempt_close_asksOnly (x : Errand.Setting) (text : String) :
    ((e.close x text).attempt >>= finish).AsksOnly (Tells text) := by
  refine (e.close_asksOnly x text).attempt.bind fun result => ?_
  cases result with
  | ok code => trivial
  | error error => exact (endBadly_asksOnly error).mono fun _ => IsNote.tells

/-- Where a message is posted, or something is sent to no service of the run, that is a
message with the report, and the report has been delivered. -/
theorem delivered_of_outward (horderly : Orderly view world)
    (hread : CommandLine.read arguments = .ok line) (he : Errand.of? line = some e)
    {before after : List (Reply machine)} {request : Http.Request}
    {answer : machine.Answer (.exchange request)}
    (hreplies : (program arguments).replies world s =
      before ++ ⟨.exchange request, answer⟩ :: after)
    (houtward : ¬ Service.IsSound (e.Asked line world s) request) :
    ∃ text, Service.Posts request text ∧ (∃ x t, (e.draft line).run world s = (.ok (x, text), t)) ∧
      delivery text e.output ∈ before ∧
      ∀ path, e.output = some path →
        view.files ((program arguments).run world s).2 (aim (view.working s) path) =
          some (.file text.toUTF8) := by
  have houtward : ¬ Inward (e.Asked line world s) (.exchange request) := houtward
  cases hfault : line.fault? with
  | some fault =>
      have hmem : ⟨.exchange request, answer⟩ ∈ (program arguments).replies world s :=
        hreplies ▸ List.mem_append_right _ List.mem_cons_self
      have hnote := (refused_asksOnly hread hfault).of_mem_replies hmem
      exact absurd hnote.inward houtward
  | none =>
      rw [program_eq_attempt hread hfault he] at hreplies ⊢
      obtain ⟨⟨hworking, -⟩, -⟩ := horderly.run_keeps s (e.draft_meets line)
      obtain ⟨⟨x, report⟩, t, between, hdraft, rfl, hrest, hrun⟩ :=
        over_of_outward horderly.total
          (fun reply hreply => (e.quiet_of_mem_draft line horderly s hreply).inward)
          hreplies houtward
      obtain ⟨done, u, later, hdeliver, rfl, hlast, hrun'⟩ :=
        over_of_outward horderly.total
          (fun reply hreply => ((deliver_asksOnly report e.output).of_mem_replies hreply).inward)
          hrest houtward
      have htells := attempt_close_asksOnly (e := e) x report
      have hposts : Service.Posts request report := by
        have hmem : ⟨.exchange request, answer⟩ ∈ Plan.replies world _ u :=
          hlast ▸ List.mem_append_right _ List.mem_cons_self
        exact htells.of_mem_replies hmem
      refine ⟨report, hposts, ⟨x, t, hdraft⟩, ?_, fun path hpath => ?_⟩
      · exact List.mem_append_right _ (List.mem_append_left _ (delivery_mem_of_run hdeliver))
      · rw [hdraft] at hworking
        rw [hrun, hrun', horderly.files_eq u htells (Tells.not_touches report), ← hworking]
        exact files_of_deliver horderly (hpath ▸ hdeliver)

/-- A run for a report that comes into trouble ends with a failure and goes on unseen: it
posts no message, it sends nothing to any address, that of the channel included, unless the
address is one at which a service of the run is asked, and it leaves the files alone, up to
the store of rollups.  And where a run posts a message, or sends something to another address
than those of its services, that is a message with the report of the run, which has been
printed or written to its file before, and stays in that file. -/
theorem unseen_or_delivered (horderly : Orderly view world)
    (hread : CommandLine.read arguments = .ok line) (he : Errand.of? line = some e) (s : σ) :
    (Trouble e line world s →
      ∃ code t, (program arguments).run world s = (.ok code, t) ∧ code ≠ 0 ∧
        (∀ reply ∈ (program arguments).replies world s, Unseen reply.question) ∧
        (∀ url : Http.Url, ¬ url.LeadsTo (e.Asked line world s) →
          ∀ reply ∈ (program arguments).replies world s, SendsNothingTo url reply.question) ∧
        ∀ place, Spared (homeOf (view.surroundings s)) (view.working s) place
          (view.files s place) (view.files t place)) ∧
    (∀ before request answer after,
      (program arguments).replies world s = before ++ ⟨.exchange request, answer⟩ :: after →
      (∃ text, Service.Posts request text) ∨ ¬ request.url.LeadsTo (e.Asked line world s) →
        ∃ text, Service.Posts request text ∧
          (∃ x t, (e.draft line).run world s = (.ok (x, text), t)) ∧
          delivery text e.output ∈ before ∧
          ∀ path, e.output = some path →
            view.files ((program arguments).run world s).2 (aim (view.working s) path) =
              some (.file text.toUTF8)) := by
  refine ⟨fun h => ?_, fun before request answer after hreplies houtward => ?_⟩
  · obtain ⟨code, t, hrun, hcode, hunseen, hinward, hspared⟩ :=
      unseen_of_trouble horderly hread he h
    exact ⟨code, t, hrun, hcode, hunseen,
      fun url hurl reply hreply => (hinward reply hreply).sendsNothingTo hurl, hspared⟩
  · refine delivered_of_outward horderly hread he hreplies fun hsound => ?_
    rcases houtward with ⟨text, hposts⟩ | hurl
    · exact hsound.1 text hposts
    · exact hurl hsound.2

/-! ## Runs on machines in memory -/

/-- Whether a run sees a request of its gathering fail. -/
def meetsFailure (e : Errand) (line : CommandLine) (world : World machine σ) (s : σ) : Bool :=
  match (e.setUp line).run world s with
  | (.ok x, t) => decide (∃ reply ∈ (e.gather x).replies world t, Fails reply)
  | (.error _, _) => false

theorem trouble_of_meetsFailure (h : meetsFailure e line world s = true) :
    Trouble e line world s := by
  unfold meetsFailure at h
  split at h
  · next x t hsetup =>
    obtain ⟨reply, hreply, hfails⟩ := of_decide_eq_true h
    exact .request hsetup hreply hfails
  · simp at h

/-- A machine with a configuration in its working directory, and what its network gives.  It
keeps what is in a store in one file. -/
def machineWith (configuration : String) (network : Http.Request → Except Error Http.Response) :
    Desktop where
  files := ⟨[([], .directory), (["home"], .directory),
    (["home", "config.toml"], .file configuration.toUTF8)]⟩
  working := ["home"]
  stores := []
  layout := fun store => [("db", store.slots.foldl (fun all slot => all ++ slot.2) .empty)]
  environment := [("HOME", "/home"), ("ANTHROPIC_AUTH_TOKEN", "key"), ("LINEAR_API_KEY", "key"),
    ("SLACK_WEBHOOK_URL", "http://api.linear.app/graphql")]
  account := none
  time := ⟨1718366400, 0⟩
  network
  output := ""
  notes := ""

/-- A machine whose tracker is out of order. -/
def strandedMachine : Desktop :=
  machineWith ("[project_management]\nbackend = \"linear\"\n[[projects]]\nid = 1\n" ++
    "title = \"Core\"\nissue_keys = [\"CORE-1\"]\n") fun _ => .ok ⟨503, ""⟩

/-- A machine on which there is nothing to ask for, and whose channel takes messages. -/
def idleMachine : Desktop :=
  machineWith "[project_management]\nbackend = \"linear\"\n" fun _ => .ok ⟨200, "ok"⟩

/-- A digest that is to be written to a file. -/
def strandedOptions (output : String) : DigestOptions :=
  { days := none, detail := .full, noMisc := false, output := some output, publish := true }

def strandedArguments (output : String) : List String :=
  ["summary", "-c", "config.toml", "--publish", "-o", output]

def strandedLine (output : String) : CommandLine :=
  { config := some "config.toml", noStore := false, verbosity := 0
    command := some (.summary (strandedOptions output)) }

/-- A digest without untracked work that is to be printed and published. -/
def idleOptions : DigestOptions :=
  { days := none, detail := .full, noMisc := true, output := none, publish := true }

def idleArguments : List String :=
  ["summary", "-c", "config.toml", "--no-cache", "--no-misc", "--publish"]

def idleLine : CommandLine :=
  { config := some "config.toml", noStore := true, verbosity := 0
    command := some (.summary idleOptions) }

theorem read_strandedArguments :
    CommandLine.read (strandedArguments ".cache") = .ok (strandedLine ".cache") := by
  decide +kernel

theorem read_idleArguments : CommandLine.read idleArguments = .ok idleLine := by
  decide +kernel

theorem trouble_strandedMachine : Trouble (.ofDigest (strandedOptions ".cache"))
    (strandedLine ".cache") Desktop.world strandedMachine :=
  trouble_of_meetsFailure (by decide +kernel)

/-- The text of the message that a question posts. -/
def posted? : Question → Option String
  | .exchange request =>
    match request.body with
    | some (.record [("text", .text text), ("mrkdwn", .bool true)]) => some text
    | _ => none
  | _ => none

theorem posts_of_posted? {q : Question} {text : String} (h : posted? q = some text) :
    ∃ request, q = .exchange request ∧ Service.Posts request text := by
  unfold posted? at h
  split at h
  · next request =>
    split at h
    · next found hbody =>
      obtain rfl := Option.some.inj h
      exact ⟨request, rfl, hbody⟩
    · simp at h
  · simp at h

theorem posted_on_idleMachine :
    ((program idleArguments).replies Desktop.world idleMachine).filterMap (posted? ·.question) =
      ["*Weekly Engineering Summary* (Jun 07 - Jun 14, 2024)"] := by
  decide +kernel

/-- The address of a channel. -/
def hook : Http.Url where
  scheme := "http"
  login := none
  host := "hooks.slack.com"
  port := none
  path := "/services/T/B/X"
  query := none
  fragment := none

/-- Whether the services of a run are those of a team that works with Linear and keeps no
incidents. -/
def asksLinear (e : Errand) (line : CommandLine) (world : World machine σ) (s : σ) : Bool :=
  match ((e.setUp line).run world s).1 with
  | .ok ⟨_, _, ⟨.linear _, _, _, _, none⟩, _⟩ => true
  | _ => false

/-- Such a run asks nothing at a channel. -/
theorem not_leadsTo_hook (h : asksLinear e line world s = true) :
    ¬ hook.LeadsTo (e.Asked line world s) := by
  intro hleads
  obtain ⟨address, found, ⟨x, t, hrun, haddress⟩, hread, hhost⟩ := hleads.exists_host
  have hhosts : address = Service.Linear.address ∨
      address = "http://api.github.com/search/issues" ∨
      address = "http://api.anthropic.com/v1/messages" := by
    unfold asksLinear at h
    rw [hrun] at h
    obtain ⟨config, env, ⟨tracker, github, writer, store, incidents⟩, window⟩ := x
    cases tracker with
    | jira account => simp at h
    | linear account =>
        cases incidents with
        | some account => simp at h
        | none =>
            rcases haddress with hlinear | hgithub | hclaude | ⟨hnone, -⟩
            · exact .inl hlinear
            · exact .inr (.inl hgithub)
            · exact .inr (.inr hclaude)
            · simp at hnone
  have hfound : (Http.Url.read address).toOption.map Http.Url.host = some hook.host := by
    rw [hread, hhost]
    rfl
  rcases hhosts with rfl | rfl | rfl
  · exact absurd hfound (by decide +kernel)
  · exact absurd hfound (by decide +kernel)
  · exact absurd hfound (by decide +kernel)

/-- A tracker out of order is trouble, and a channel elsewhere hears nothing of it.  On a
machine with nothing to ask for, the report is printed and then posted. -/
theorem unseen_or_delivered_in_memory :
    (Trouble (.ofDigest (strandedOptions ".cache")) (strandedLine ".cache") Desktop.world
        strandedMachine ∧
      Http.Url.read "http://hooks.slack.com/services/T/B/X" = .ok hook ∧
      ∃ code t, (program (strandedArguments ".cache")).run Desktop.world strandedMachine =
          (.ok code, t) ∧ code ≠ 0 ∧
        ∀ reply ∈ (program (strandedArguments ".cache")).replies Desktop.world strandedMachine,
          Unseen reply.question ∧ SendsNothingTo hook reply.question) ∧
    ∃ before request answer after,
      (program idleArguments).replies Desktop.world idleMachine =
        before ++ ⟨.exchange request, answer⟩ :: after ∧
      Service.Posts request "*Weekly Engineering Summary* (Jun 07 - Jun 14, 2024)" ∧
      (⟨.print ("*Weekly Engineering Summary* (Jun 07 - Jun 14, 2024)" ++ "\n"), ()⟩ :
        Reply machine) ∈ before := by
  constructor
  · obtain ⟨code, t, hrun, hcode, hunseen, hnothing, -⟩ :=
      (unseen_or_delivered Desktop.orderly read_strandedArguments rfl strandedMachine).1
        trouble_strandedMachine
    have hhook := hnothing hook (not_leadsTo_hook (by decide +kernel))
    exact ⟨trouble_strandedMachine, by decide +kernel, code, t, hrun, hcode,
      fun reply hreply => ⟨hunseen reply hreply, hhook reply hreply⟩⟩
  · obtain ⟨⟨q, answer⟩, hreply, hposted⟩ :=
      List.mem_filterMap.1 (posted_on_idleMachine ▸ List.mem_singleton.2 rfl)
    obtain ⟨request, rfl, hposts⟩ := posts_of_posted? hposted
    obtain ⟨before, after, hreplies⟩ := List.append_of_mem hreply
    obtain ⟨text, htext, -, hdelivered, -⟩ :=
      (unseen_or_delivered Desktop.orderly read_idleArguments rfl idleMachine).2 before request
        answer after hreplies (.inl ⟨_, hposts⟩)
    obtain rfl := Service.Posts.unique htext hposts
    exact ⟨before, request, answer, after, hreplies, hposts, hdelivered⟩

/-- The address to which a question sends something. -/
def address? : Question → Option String
  | .exchange request => some request.url.text
  | _ => none

/-- Holds of directories. -/
def isDirectory : Node → Bool
  | .directory => true
  | .file _ => false

theorem eq_directory {node : Option Node} (h : node.any isDirectory = true) :
    node = some .directory := by
  obtain ⟨found, rfl, hfound⟩ := (Option.any_eq_true _ _).1 h
  cases found with
  | directory => rfl
  | file content => exact absurd hfound Bool.false_ne_true

/-- In trouble, neither the place of the report nor the address of the channel is left alone
if it is one that the run has other uses for: directories for the store are made at the
place, the store itself is kept there, or the tracker is asked at the address. -/
theorem output_not_left_alone :
    (Trouble (.ofDigest (strandedOptions ".cache")) (strandedLine ".cache") Desktop.world
        strandedMachine ∧
      strandedMachine.files.node? (aim strandedMachine.working ".cache") = none ∧
      ((program (strandedArguments ".cache")).run Desktop.world strandedMachine).2.files.node?
        (aim strandedMachine.working ".cache") = some .directory ∧
      strandedMachine.environment.lookup "SLACK_WEBHOOK_URL" =
        some "http://api.linear.app/graphql" ∧
      "http://api.linear.app/graphql" ∈
        ((program (strandedArguments ".cache")).replies Desktop.world strandedMachine).filterMap
          (address? ·.question)) ∧
    Trouble (.ofDigest (strandedOptions ".cache/eng-digest/rollups.sled/db"))
        (strandedLine ".cache/eng-digest/rollups.sled/db") Desktop.world strandedMachine ∧
      strandedMachine.files.node?
        (aim strandedMachine.working ".cache/eng-digest/rollups.sled/db") = none ∧
      ((program (strandedArguments ".cache/eng-digest/rollups.sled/db")).run Desktop.world
        strandedMachine).2.files.node?
          (aim strandedMachine.working ".cache/eng-digest/rollups.sled/db") ≠ none :=
  ⟨⟨trouble_strandedMachine, Option.isNone_iff_eq_none.1 (by decide +kernel),
      eq_directory (by decide +kernel), by decide +kernel, by decide +kernel⟩,
    trouble_of_meetsFailure (by decide +kernel), Option.isNone_iff_eq_none.1 (by decide +kernel),
    fun hnone => absurd (Option.isNone_iff_eq_none.2 hnone) (by decide +kernel)⟩

end TeamDigest.Run
