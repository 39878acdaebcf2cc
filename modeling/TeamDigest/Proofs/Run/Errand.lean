import TeamDigest.Proofs.Run.Quiet
import TeamDigest.Run.Program

/-!
# Errands

A digest and tallies are made in the same way: the run is set up, the report is gathered,
and only then is it brought to its readers.  `Errand` says in what they differ, and
`perform_eq` that the program does nothing else for either of them.

What stands before the delivery is `Errand.draft`, and it goes on unseen (`draft_meets`); it
sends nothing but to the services that the run has been set up with (`quiet_of_mem_draft`).
Once the run is set up, a single request that fails ends it (`gather_heeds`).
-/

namespace TeamDigest.Run

open Host Report

/-- What a call for a report asks for. -/
structure Errand where
  days : Option Nat
  /-- How the gathering is called when it fails. -/
  course : String
  /-- Gathers the text of the report. -/
  task : Config → Environment → Window → Gather.Task String
  output : Option String
  isPublished : Bool

namespace Errand

/-- To make a digest. -/
def ofDigest (options : DigestOptions) : Errand where
  days := options.days
  course := "summary run failed"
  task c env window :=
    (fun digest => digest.markup options.detail) <$>
      (scopeOf c window).digest (briefOf c env options)
  output := options.output
  isPublished := options.publish

/-- To make tallies. -/
def ofTally (options : TallyOptions) : Errand where
  days := options.days
  course := "metrics run failed"
  task c _ window :=
    (fun tallies => Tally.markup (c.summaryName ++ " metrics") window tallies) <$>
      (scopeOf c window).tallies
  output := none
  isPublished := options.publish

/-- The errand of a command line that asks for a report. -/
def of? (line : CommandLine) : Option Errand :=
  match line.command.getD (.summary .usual) with
  | .summary options => some (ofDigest options)
  | .metrics options => some (ofTally options)
  | _ => none

/-- What a report is gathered with. -/
structure Setting where
  config : Config
  env : Environment
  services : Services
  window : Window

variable (e : Errand) (line : CommandLine)

/-- The days that the report covers: those that are asked for, or else the usual ones. -/
def span (c : Config) : Nat := e.days.getD c.timespanDays

/-- Sets up the run. -/
def setUp : Job Setting := do
  let config ← loadConfig line
  let env ← environment
  let services ← openServices config env
  let window ← windowOf (e.span config)
  pure { config, env, services, window }

/-- Gathers the text of the report. -/
def gather (x : Setting) : Job String :=
  x.services.carryOut (e.task x.config x.env x.window)

/-- Makes the report, as far as nobody gets to see it. -/
def draft : Job (Setting × String) := do
  let x ← e.setUp line
  let text ← (e.gather x).during e.course
  pure (x, text)

/-- To gather a report and to put it into words is to gather the words. -/
private theorem during_carryOut_map {α : Type} (services : Services) (task : Gather.Task α)
    (words : α → String) (course : String) :
    (services.carryOut (words <$> task)).during course =
      words <$> (services.carryOut task).during course := by
  rw [Services.carryOut, Plan.serve_map, Plan.during_map]
  rfl

/-- What a report is made by. -/
theorem perform_eq {e : Errand} {line : CommandLine} (he : of? line = some e) :
    perform line = (do
      let (x, text) ← e.draft line
      emit x.config x.env text e.output e.isPublished
      pure 0) := by
  unfold of? at he
  unfold perform
  split at he
  · next options hcommand =>
    obtain rfl := Option.some.inj he
    simp only [hcommand, digest, draft, setUp, span, gather, ofDigest, during_carryOut_map,
      bind_assoc, pure_bind, bind_map_left]
  · next options hcommand =>
    obtain rfl := Option.some.inj he
    simp only [hcommand, tally, draft, setUp, span, gather, ofTally, during_carryOut_map,
      bind_assoc, pure_bind, bind_map_left]
  · simp at he

/-! ## Until the delivery -/

variable {home : String} {addresses : String → Prop} {known : Surroundings}

theorem setUp_meets :
    (e.setUp line).Meets (Knows known) (Quiet (homeOf known) addresses)
      (·.services.IsPlaced (homeOf known)) := by
  refine (Plan.Meets.of_asksOnly (loadConfig_asksOnly line)).bind fun config _ => ?_
  refine (Plan.Meets.of_asksOnly environment_asksOnly).bind fun env _ => ?_
  refine (openServices_meets config env).bind fun services hplaced => ?_
  exact (Plan.Meets.of_asksOnly (windowOf_asksOnly _)).bind fun window _ => hplaced

theorem gather_heeds {x : Setting} (hplaced : x.services.IsPlaced home) :
    (e.gather x).Heeds (Quiet home x.services.IsAddress) Fails :=
  carryOut_heeds hplaced _

theorem draft_meets :
    (e.draft line).Meets (Knows known) (Quiet (homeOf known) fun _ => True) fun _ => True := by
  refine (e.setUp_meets line).bind fun x hplaced => ?_
  have hgather : (e.gather x).AsksOnly (Quiet (homeOf known) fun _ => True) :=
    (e.gather_heeds hplaced).asksOnly.mono fun _ => Quiet.mono fun _ _ => trivial
  exact (Plan.Meets.of_asksOnly (hgather.during e.course)).bind fun _ _ => trivial

variable {σ : Type} {view : View σ} {world : World machine σ}

/-- The addresses at which the services of the run are asked; there are none unless the run
can be set up. -/
def Asked (world : World machine σ) (s : σ) (address : String) : Prop :=
  ∃ x t, (e.setUp line).run world s = (.ok x, t) ∧ x.services.IsAddress address

theorem isPlaced_of_setUp (horderly : Orderly view world) {s t : σ} {x : Setting}
    (hx : (e.setUp line).run world s = (.ok x, t)) :
    x.services.IsPlaced (homeOf (view.surroundings s)) := by
  have hmeets : (e.setUp line).Meets (Knows (view.surroundings s))
      (Quiet (homeOf (view.surroundings s)) fun _ => False) _ := e.setUp_meets line
  exact (horderly.run_keeps s hmeets).2.2 x (by rw [hx])

theorem quiet_of_mem_draft (horderly : Orderly view world) (s : σ) {reply : Reply machine}
    (hreply : reply ∈ (e.draft line).replies world s) :
    Quiet (homeOf (view.surroundings s)) (e.Asked line world s) reply.question := by
  obtain ⟨-, hsetup, -⟩ := horderly.run_keeps s (e.setUp_meets line)
  rw [draft, Plan.replies_bind] at hreply
  rcases List.mem_append.1 hreply with hreply | hreply
  · exact hsetup reply hreply
  · cases hrun : (e.setUp line).run world s with
    | mk outcome t =>
        rw [hrun] at hreply
        cases outcome with
        | error error => simp at hreply
        | ok x =>
            have hplaced := e.isPlaced_of_setUp line horderly hrun
            have hgather := (e.gather_heeds hplaced).asksOnly.during e.course
            have hrest : ((e.gather x).during e.course >>= fun text => pure (x, text)).AsksOnly
                (Quiet (homeOf (view.surroundings s)) x.services.IsAddress) :=
              hgather.bind fun _ => trivial
            exact (hrest.of_mem_replies hreply).mono fun address haddress =>
              ⟨x, t, hrun, haddress⟩

end Errand

end TeamDigest.Run
