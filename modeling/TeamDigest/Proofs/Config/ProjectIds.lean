import TeamDigest.Config.Validity
import TeamDigest.Proofs.Gather.Untracked

/-!
# The ids of projects

Untracked work is reported as a project of its own, under an id that is set aside for
it.  Nothing in the making of a digest looks out for another project with that id, or
for two projects with one id: it is the configuration that has been checked for both,
long before the run.

## Strategy

The check goes through the projects once, with the ids of those that came before.  What
it finds nothing wrong with is told by an induction on the projects, for any ids before
(`idFault?_eq_none_iff`); the other checks are conditions on single values.  A digest
holds the projects of its brief in some order, and the project of untracked work behind
them, if at all (`projects_of_ends_digest`).  So its ids are those of the configuration,
and perhaps the one that no project there has.
-/

namespace TeamDigest.Config

open Team

/-! ## Valid configurations -/

/-- What the check of a configuration asks for. -/
structure IsValid (c : Config) : Prop where
  timespan : 0 < c.timespanDays
  lifetime : 0 < c.storeLifetime
  address : ∀ baseUrl email token, c.tracker = .jira baseUrl email token →
    "http://".toList <+: baseUrl.toList ∨ "https://".toList <+: baseUrl.toList
  distinct : (c.projects.map Project.id).Nodup
  unreserved : ∀ p ∈ c.projects, p.id ≠ 999999
  named : ∀ u ∈ c.users, ¬ Text.AllBlank u.name.toList

variable {c : Config}

theorem numberFault?_eq_none_iff :
    c.numberFault? = none ↔ 0 < c.timespanDays ∧ 0 < c.storeLifetime := by
  unfold numberFault?
  split
  · next hzero => simp [hzero]
  · next htimespan =>
      split
      · next hzero => simp [hzero]
      · next hlifetime => simp only [true_iff]; omega

theorem isWebAddress_iff {address : String} : isWebAddress address = true ↔
    "http://".toList <+: address.toList ∨ "https://".toList <+: address.toList := by
  rw [isWebAddress, Bool.or_eq_true, List.isPrefixOf_iff_prefix, List.isPrefixOf_iff_prefix,
    or_comm]

theorem trackerFault?_eq_none_iff : c.trackerFault? = none ↔
    ∀ baseUrl email token, c.tracker = .jira baseUrl email token →
      "http://".toList <+: baseUrl.toList ∨ "https://".toList <+: baseUrl.toList := by
  unfold trackerFault?
  cases c.tracker with
  | linear token => simp
  | jira baseUrl email token =>
      have hfault : (if isWebAddress baseUrl then none else some ConfigFault.trackerUrl) = none ↔
          isWebAddress baseUrl = true := by simp
      rw [hfault, isWebAddress_iff]
      constructor
      · rintro haddress _ _ _ ⟨⟩
        exact haddress
      · intro h
        exact h baseUrl email token rfl

/-- Nothing is wrong with the ids of some projects if they are distinct from each other, from
those before and from the one that is set aside. -/
theorem idFault?_eq_none_iff {earlier : List Int} {projects : List Project} :
    idFault? earlier projects = none ↔
      (projects.map Project.id).Nodup ∧ (∀ p ∈ projects, p.id ≠ 999999) ∧
        ∀ p ∈ projects, p.id ∉ earlier := by
  induction projects generalizing earlier with
  | nil => simp [idFault?]
  | cons p projects ih =>
      rw [idFault?]
      split
      · next hreserved => simp [show p.id = 999999 from hreserved]
      · next hreserved =>
          split
          · next hearlier => simp [hearlier]
          · next hearlier =>
              rw [ih]
              constructor
              · rintro ⟨hdistinct, hunreserved, hfresh⟩
                have hp : p.id ∉ projects.map Project.id := by
                  intro hp
                  obtain ⟨q, hq, hid⟩ := List.mem_map.1 hp
                  exact hfresh q hq (hid ▸ List.mem_cons_self)
                exact ⟨List.nodup_cons.2 ⟨hp, hdistinct⟩,
                  List.forall_mem_cons.2 ⟨hreserved, hunreserved⟩,
                  List.forall_mem_cons.2
                    ⟨hearlier, fun q hq h => hfresh q hq (List.mem_cons_of_mem _ h)⟩⟩
              · rintro ⟨hdistinct, hunreserved, hfresh⟩
                obtain ⟨hp, hdistinct⟩ := List.nodup_cons.1 hdistinct
                refine ⟨hdistinct, (List.forall_mem_cons.1 hunreserved).2, fun q hq h => ?_⟩
                rcases List.mem_cons.1 h with hid | h
                · exact hp (hid ▸ List.mem_map_of_mem hq)
                · exact hfresh q (List.mem_cons_of_mem _ hq) h

theorem nameFault?_eq_none_iff {users : List User} :
    nameFault? users = none ↔ ∀ u ∈ users, ¬ Text.AllBlank u.name.toList := by
  simp only [nameFault?, Option.map_eq_none_iff, List.find?_eq_none, Text.isBlankText,
    List.all_eq_true, Text.AllBlank]

theorem validate_eq_ok_iff_fault : c.validate = .ok () ↔ c.fault? = none := by
  unfold validate
  cases c.fault? with
  | none => simp
  | some fault => simp

theorem validate_eq_ok_iff : c.validate = .ok () ↔ c.IsValid := by
  rw [validate_eq_ok_iff_fault, fault?, Option.or_eq_none_iff, Option.or_eq_none_iff,
    Option.or_eq_none_iff, numberFault?_eq_none_iff, trackerFault?_eq_none_iff,
    idFault?_eq_none_iff, nameFault?_eq_none_iff]
  constructor
  · rintro ⟨⟨htimespan, hlifetime⟩, haddress, ⟨hdistinct, hunreserved, -⟩, hnamed⟩
    exact ⟨htimespan, hlifetime, haddress, hdistinct, hunreserved, hnamed⟩
  · intro h
    exact ⟨⟨h.timespan, h.lifetime⟩, h.address, ⟨h.distinct, h.unreserved, by simp⟩, h.named⟩

end TeamDigest.Config

namespace TeamDigest.Gather

open Work Team Report

variable {scope : Scope} {brief : Brief} {account : List (Reply sources)}

/-! ## The projects of a digest -/

/-- A digest holds the projects of its brief, and behind them that of untracked work, if
there is to be one. -/
theorem projects_of_ends_digest {digest : Digest}
    (hends : (scope.digest brief).Ends account digest) :
    ∃ named misc, digest.projects = named ++ misc ∧
      (named.map ProjectReport.project).Perm brief.projects ∧
      misc.map (·.project.id) = if brief.includeMisc then [999999] else [] := by
  rw [digest_eq] at hends
  obtain ⟨findings, earlier, _, rfl, htasks, hends⟩ := Plan.ends_bind_iff.1 hends
  obtain ⟨misc, later, _, rfl, hlater, hends⟩ := Plan.ends_bind_iff.1 hends
  obtain ⟨incidents, last, _, rfl, -, hends⟩ := Plan.ends_bind_iff.1 hends
  obtain ⟨rfl, rfl⟩ := Plan.ends_done_iff.1 hends
  refine ⟨_, misc, rfl, projects_of_ends htasks, ?_⟩
  cases hmisc : brief.includeMisc with
  | false =>
      rw [hmisc] at hlater
      obtain ⟨-, rfl⟩ := Plan.ends_done_iff.1 hlater
      rfl
  | true =>
      rw [hmisc] at hlater
      obtain ⟨report, hreport, rfl⟩ := Plan.ends_map_iff.1 hlater
      rw [List.map_singleton, project_of_ends hreport]
      rfl

/-- What occurs in none but the last part of a list, which has one element at most, has
nothing behind it. -/
theorem eq_nil_of_append_eq {α : Type} {xs ys before after : List α} {x : α}
    (h : xs ++ ys = before ++ x :: after) (hx : x ∉ xs) (hys : ys.length ≤ 1) : after = [] := by
  rcases List.append_eq_append_iff.1 h with ⟨middle, rfl, rfl⟩ | ⟨middle, rfl, hafter⟩
  · rw [List.length_append, List.length_cons] at hys
    exact List.eq_nil_of_length_eq_zero (by omega)
  · cases middle with
    | nil =>
        obtain rfl : x :: after = ys := hafter
        exact List.eq_nil_of_length_eq_zero (by simpa using hys)
    | cons y middle =>
        obtain ⟨rfl, -⟩ := List.cons.inj hafter
        simp at hx

end TeamDigest.Gather

namespace TeamDigest.Config

open Team Gather Report

/-- A configuration is accepted exactly if its numbers are positive, the address of an
issue tracker that has one is one of the web, everybody has a name that shows, and the
projects have distinct ids, none of them the one that is set aside.  No digest of these
projects shows an id twice then.  There is one report for each project, and the id set
aside is that of the last report if untracked work is included, and of none otherwise. -/
theorem ids_of_validated (c : Config) :
    (c.validate = .ok () ↔ c.IsValid) ∧
    (c.validate = .ok () → ∀ (σ : Type) (world : World sources σ) (s t : σ) (scope : Scope)
      (brief : Brief) (digest : Digest), brief.projects = c.projects →
      (scope.digest brief).run world s = (.ok digest, t) →
      (digest.projects.map (·.project.id)).Nodup ∧
      (∃ named misc, digest.projects = named ++ misc ∧
        (named.map ProjectReport.project).Perm c.projects ∧
        misc.map (·.project.id) = if brief.includeMisc then [999999] else []) ∧
      (999999 ∈ digest.projects.map (·.project.id) ↔ brief.includeMisc = true) ∧
      ∀ before report after, digest.projects = before ++ report :: after →
        report.project.id = 999999 → after = []) := by
  refine ⟨validate_eq_ok_iff, fun hvalid σ world s t scope brief digest hprojects hrun => ?_⟩
  have hc := validate_eq_ok_iff.1 hvalid
  obtain ⟨named, misc, hdigest, hperm, hmisc⟩ := projects_of_ends_digest (Plan.ends_of_run hrun)
  rw [hprojects] at hperm
  have hids : (named.map (·.project.id)).Nodup := by
    have hpermIds := hperm.map Project.id
    rw [List.map_map] at hpermIds
    exact hpermIds.nodup_iff.2 hc.distinct
  have hunreserved : ∀ report ∈ named, report.project.id ≠ 999999 := fun report hreport =>
    hc.unreserved _ (hperm.mem_iff.1 (List.mem_map_of_mem hreport))
  have hnone : 999999 ∉ named.map (·.project.id) := by
    intro h
    obtain ⟨report, hreport, hid⟩ := List.mem_map.1 h
    exact hunreserved report hreport hid
  have hlength : misc.length ≤ 1 := by
    rw [← List.length_map (·.project.id), hmisc]
    split
    · exact Nat.le_refl 1
    · exact Nat.zero_le 1
  refine ⟨?_, ⟨named, misc, hdigest, hperm, hmisc⟩, ?_, fun before report after hsplit hid => ?_⟩
  · rw [hdigest, List.map_append, hmisc]
    cases brief.includeMisc with
    | false => simpa using hids
    | true =>
        rw [if_pos rfl, ← List.concat_eq_append]
        exact hids.concat hnone
  · rw [hdigest, List.map_append, hmisc, List.mem_append, or_iff_right hnone]
    cases brief.includeMisc with
    | false => simp
    | true => simp
  · rw [hdigest] at hsplit
    exact eq_nil_of_append_eq hsplit (fun hreport => hunreserved report hreport hid) hlength

/-- A configuration with the project of the overlap is accepted, and the report on its
project stands before that on untracked work. -/
theorem ids_of_overlap :
    { standard with projects := overlapBrief.projects }.validate = .ok () ∧
    ∃ digest asked, (sampleScope.digest overlapBrief).run
        (Plan.recording overlapSnapshot.answer?) [] = (.ok digest, asked) ∧
      digest.projects.map (·.project.id) = [1, 999999] := by
  have hvalid : { standard with projects := overlapBrief.projects }.validate = .ok () := by decide
  obtain ⟨digest, asked, hrun⟩ := run_overlap
  obtain ⟨-, ⟨named, misc, hdigest, hperm, hmisc⟩, -⟩ :=
    (ids_of_validated _).2 hvalid _ _ _ _ _ _ digest rfl hrun
  refine ⟨hvalid, digest, asked, hrun, ?_⟩
  have hnamed : named.map (·.project.id) = [1] := by
    have hids := hperm.map Project.id
    rw [List.map_map] at hids
    exact List.perm_singleton.1 hids
  rw [hdigest, List.map_append, hnamed, hmisc]
  rfl

end TeamDigest.Config
