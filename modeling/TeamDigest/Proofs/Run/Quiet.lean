import TeamDigest.Proofs.Host.Changes
import TeamDigest.Proofs.Service.Requests
import TeamDigest.Run.Report

/-!
# What goes on unseen

Before a report is brought to its readers, a run asks quiet questions only: it prints
nothing, posts no message, writes no file, and sends nothing but to the addresses of its
services; of all that stands in the file system it uses the store of rollups alone
(`Quiet`).  That store lies under the home directory, so on which questions a run is quiet
depends on what the machine tells of its user; `openServices_meets` carries this along, and
the services that are opened keep the place of their store in mind (`Services.IsPlaced`).

From then on a single request that fails ends the gathering, however deep it lies in the
calls of the services (`carryOut_heeds`).
-/

namespace TeamDigest.Run

open Host

/-- The home directory, as far as there is one: the environment names it, or else the user's
account does. -/
def homeOf (known : Surroundings) : String :=
  (((known.environment "HOME").filter (!·.isEmpty)).or
    (known.account.filter (!·.isEmpty))).getD ""

/-- The directory under a home directory in which the store is kept. -/
def storeUnder (home : String) : String := [".cache", "eng-digest"].foldl Path.child home

/-- The directory of the store itself. -/
def archiveUnder (home : String) : String := Path.child (storeUnder home) "rollups.sled"

/-- The questions that nobody gets to see the effect of: nothing is printed, no message is
posted, requests go to the given addresses, and the store of rollups is all that is changed
of the file system. -/
def Quiet (home : String) (addresses : String → Prop) : Question → Prop
  | .print _ => False
  | .exchange request => Service.IsSound addresses request
  | .write _ _ => False
  | .makeDirectory path => path = storeUnder home
  | .openStore path | .store path _ => path = archiveUnder home
  | _ => True

/-- Whether a request fails: no response comes back, or one that is no success. -/
def failed : Reply machine → Bool
  | ⟨.exchange _, .ok response⟩ => !Http.isSuccess response.status
  | ⟨.exchange _, .error _⟩ => true
  | _ => false

/-- The request fails. -/
def Fails (reply : Reply machine) : Prop := failed reply = true
  deriving Decidable

variable {α : Type} {home : String} {addresses : String → Prop} {known : Surroundings}

theorem Quiet.mono {more : String → Prop} (hmore : ∀ address, addresses address → more address)
    {q : Question} (h : Quiet home addresses q) : Quiet home more q := by
  cases q with
  | exchange request => exact ⟨h.1, h.2.mono hmore⟩
  | _ => exact h

/-! ## Setting up -/

theorem homePath_asksOnly (names : List String) :
    (homePath names).AsksOnly (Quiet home addresses) := by
  have hhome : home?.AsksOnly (Quiet home addresses) := by
    unfold home?
    refine Plan.AsksOnly.bind ⟨trivial, fun _ => trivial⟩ fun value => ?_
    split
    · trivial
    · exact Plan.AsksOnly.bind ⟨trivial, fun _ => trivial⟩ fun _ => trivial
  unfold homePath
  refine hhome.bind fun found => ?_
  split
  · trivial
  · trivial

theorem settled_asksOnly {asks : Question → Prop} (error : FileFault → Error)
    (result : Except FileFault α) : (Job.settled error result).AsksOnly asks := by
  cases result with
  | ok a => trivial
  | error fault => trivial

theorem readConfig_asksOnly (path : String) :
    (readConfig path).AsksOnly (Quiet home addresses) := by
  have hread : (readText path).AsksOnly (Quiet home addresses) :=
    Plan.AsksOnly.bind ⟨trivial, fun _ => trivial⟩ fun bytes =>
      (settled_asksOnly _ bytes).bind fun _ => .ofOption _ _
  unfold readConfig
  refine Plan.AsksOnly.bind ⟨trivial, fun _ => trivial⟩ fun isPresent => ?_
  split
  · exact hread.bind fun text => .ofExcept _
  · trivial

theorem loadConfig_asksOnly (line : CommandLine) :
    (loadConfig line).AsksOnly (Quiet home addresses) := by
  have hpath : (configPath line).AsksOnly (Quiet home addresses) := by
    unfold configPath
    split
    · trivial
    · exact homePath_asksOnly _
  exact hpath.bind fun path => ((readConfig_asksOnly path).during _).bind fun c => trivial

theorem environment_asksOnly : Run.environment.AsksOnly (Quiet home addresses) := by
  refine Plan.AsksOnly.bind (Plan.AsksOnly.all fun job hjob => ?_) fun values => trivial
  obtain ⟨name, -, rfl⟩ := List.mem_map.1 hjob
  exact ⟨trivial, fun _ => trivial⟩

theorem windowOf_asksOnly (days : Nat) : (windowOf days).AsksOnly (Quiet home addresses) :=
  Plan.AsksOnly.bind ⟨trivial, fun _ => trivial⟩ fun _ => .ofOption _ _

theorem home?_meets :
    home?.Meets (Knows known) (Quiet (homeOf known) addresses)
      fun found => ∀ home, found = some home → homeOf known = home := by
  unfold home?
  refine ⟨trivial, fun value hvalue => ?_⟩
  obtain rfl : value = known.environment "HOME" := hvalue
  dsimp only [Plan.bind]
  cases hnamed : (known.environment "HOME").filter (!·.isEmpty) with
  | some home =>
      rintro home ⟨⟩
      rw [homeOf, hnamed]
      rfl
  | none =>
      refine ⟨trivial, fun account haccount => ?_⟩
      obtain rfl : account = known.account := haccount
      intro home hhome
      rw [homeOf, hnamed, Option.none_or, hhome]
      rfl

theorem storeDirectory_meets :
    storeDirectory.Meets (Knows known) (Quiet (homeOf known) addresses)
      (· = storeUnder (homeOf known)) := by
  refine home?_meets.bind fun found hfound => ?_
  cases found with
  | none => trivial
  | some home => exact hfound home rfl ▸ rfl

/-! ## The store -/

theorem openUnder_meets :
    (Rollup.Archive.openUnder (storeUnder home)).Meets (Knows known) (Quiet home addresses)
      (·.path = archiveUnder home) := by
  have hmake : (Job.makeDirectory (storeUnder home)).AsksOnly (Quiet home addresses) :=
    ⟨rfl, fun _ => trivial⟩
  have hopen : (Job.openStore (archiveUnder home)).AsksOnly (Quiet home addresses) :=
    ⟨rfl, fun _ => trivial⟩
  unfold Rollup.Archive.openUnder
  refine (Plan.Meets.of_asksOnly hmake).bind fun result _ => ?_
  refine (Plan.Meets.of_asksOnly (settled_asksOnly _ result)).bind fun _ _ => ?_
  refine (Plan.Meets.of_asksOnly hopen).bind fun result _ => ?_
  exact (Plan.Meets.of_asksOnly (settled_asksOnly _ result)).bind fun _ _ => rfl

/-- A plan for rollups is carried out by quiet questions, and fails with a request of the
writer. -/
theorem archive_heeds {archive : Rollup.Archive} (harchive : archive.path = archiveUnder home)
    {writer : String → Job String}
    (hwriter : ∀ text, (writer text).Heeds (Quiet home addresses) Fails)
    (plan : Plan Rollup.moves α) :
    (archive.carryOut writer plan).Heeds (Quiet home addresses) Fails := by
  refine Plan.Heeds.serve (fun move => ?_) plan
  cases move with
  | store operation =>
      refine Plan.Heeds.bind ⟨harchive, fun answer => ⟨Bool.false_ne_true.elim, trivial⟩⟩
        fun result => ?_
      cases result with
      | ok answer => trivial
      | error fault => trivial
  | now => exact ⟨trivial, fun answer => ⟨Bool.false_ne_true.elim, trivial⟩⟩
  | write text => exact hwriter text

/-! ## The services -/

/-- The store of the services, if they have one, lies in its usual place. -/
def Services.IsPlaced (services : Services) (home : String) : Prop :=
  ∀ archive lifetime, services.store = some (archive, lifetime) →
    archive.path = archiveUnder home

/-- The addresses at which the services are asked. -/
def Services.IsAddress (services : Services) (address : String) : Prop :=
  services.tracker.IsAddress address ∨ Service.GitHub.IsAddress address ∨
    Service.Claude.IsAddress address ∨
    services.incidents.isSome = true ∧ Service.PagerDuty.IsAddress address

theorem openStore_meets (lifetime : Nat) :
    (openStore lifetime).Meets (Knows known) (Quiet (homeOf known) addresses)
      (·.path = archiveUnder (homeOf known)) := by
  refine storeDirectory_meets.bind fun directory hdirectory => ?_
  subst hdirectory
  refine openUnder_meets.bind fun archive harchive => ?_
  have hcleanup : (archive.tend (Rollup.cleanup lifetime)).Heeds
      (Quiet (homeOf known) addresses) Fails := by
    refine archive_heeds harchive (fun text => ?_) _
    exact trivial
  exact (Plan.Meets.of_asksOnly hcleanup.asksOnly.attempt.map).bind fun _ _ => harchive

theorem openServices_meets (config : Config) (env : Environment) :
    (openServices config env).Meets (Knows known) (Quiet (homeOf known) addresses)
      (·.IsPlaced (homeOf known)) := by
  unfold openServices
  refine (Plan.Meets.of_asksOnly (.ofExcept _)).bind fun token _ => ?_
  refine (Plan.Meets.of_asksOnly (.ofExcept _)).bind fun key _ => ?_
  split
  · refine ((openStore_meets _).during _).bind fun archive harchive => ?_
    rintro archive lifetime ⟨⟩
    exact harchive
  · rintro archive lifetime ⟨⟩

/-- A careful client of services is so as a part of the run. -/
theorem online_heeds {asked : String → Prop} {client : Http.Client α}
    (hclient : Service.Careful asked client)
    (hasked : ∀ address, asked address → addresses address) :
    (Job.online client).Heeds (Quiet home addresses) Fails := by
  replace hclient := hclient.heeds
  unfold Job.online
  induction client with
  | done value => trivial
  | fail error => trivial
  | ask request next ih =>
      refine ⟨⟨hclient.1.1, hclient.1.2.mono hasked⟩, fun answer => ?_⟩
      cases answer with
      | error error => exact ⟨fun _ => ⟨error, rfl⟩, trivial⟩
      | ok response =>
          obtain ⟨hrefused, hnext⟩ := hclient.2 response
          refine ⟨fun hfails => ?_, ih response hnext⟩
          obtain ⟨error, herror⟩ :=
            hrefused (by simpa [Fails, failed, Service.Refuses] using hfails)
          exact ⟨error, by
            change (next response).serve Job.exchange = _
            rw [herror]
            rfl⟩

/-- A question to the services is put by quiet questions, and fails with a request. -/
theorem answer_heeds {services : Services} (hplaced : services.IsPlaced home)
    (q : Gather.Question) : (services.answer q).Heeds (Quiet home services.IsAddress) Fails := by
  have htracker : ∀ address, services.tracker.IsAddress address → services.IsAddress address :=
    fun _ => .inl
  have hgithub : ∀ address, Service.GitHub.IsAddress address → services.IsAddress address :=
    fun _ h => .inr (.inl h)
  have hclaude : ∀ address, Service.Claude.IsAddress address → services.IsAddress address :=
    fun _ h => .inr (.inr (.inl h))
  cases q with
  | issues keys => exact online_heeds (services.tracker.careful_issues keys) htracker
  | children key => exact online_heeds (services.tracker.careful_children key) htracker
  | comments key limit => exact online_heeds (services.tracker.careful_comments key limit) htracker
  | resolved person window =>
      exact online_heeds (services.tracker.careful_resolved person _ _) htracker
  | resolvedCount person window =>
      exact online_heeds (services.tracker.careful_resolvedCount person _ _) htracker
  | mergedBy login orgs window =>
      exact online_heeds (Service.GitHub.careful_mergedBy services.github login orgs _ _) hgithub
  | mentioning text orgs window =>
      exact online_heeds (Service.GitHub.careful_mentioning services.github text orgs _ _) hgithub
  | incidents service window =>
      unfold Services.answer
      dsimp only
      cases hincidents : services.incidents with
      | none => trivial
      | some account =>
          have hpagerDuty : ∀ address, Service.PagerDuty.IsAddress address →
              services.IsAddress address :=
            fun _ h => .inr (.inr (.inr ⟨by rw [hincidents]; rfl, h⟩))
          exact online_heeds (Service.PagerDuty.careful_incidents account service _ _) hpagerDuty
  | rollup text =>
      have hwrite (text : String) : (Job.online (services.writer.rollup text)).Heeds
          (Quiet home services.IsAddress) Fails :=
        online_heeds (Service.careful_claude services.writer text) hclaude
      change (services.rollup text).Heeds _ _
      unfold Services.rollup
      cases hstore : services.store with
      | none => exact hwrite text
      | some store => exact archive_heeds (hplaced _ _ hstore) hwrite _
  | turns tasks => trivial

theorem carryOut_heeds {services : Services} (hplaced : services.IsPlaced home)
    (task : Gather.Task α) :
    (services.carryOut task).Heeds (Quiet home services.IsAddress) Fails :=
  Plan.Heeds.serve (answer_heeds hplaced) task

end TeamDigest.Run
