import TeamDigest.Proofs.Host.Changes

/-!
# Machines that keep a store

A machine keeps the store of a path when an operation that is asked of it there brings what
`Store.perform` says and leaves that store behind, and when neither a look at the clock nor
an exchange over the network has an effect on the store (`Keeps`).  This says nothing of
the files in which the store is laid out, of the times that the clock shows, or of what
comes over the network.

Machines in memory keep their stores (`Desktop.keeps`), whatever their layout, as long as
no directory stands where a file of the store has to go.  They find the store by following
its path anew for every operation, so what has to be shown is that the files of the store
leave the path open.

What the clock shows is told by the replies of a run (`shown`).
-/

namespace TeamDigest.Host

variable {σ : Type}

/-- The machine keeps the store of a path; `holds` tells which store that is in a state. -/
structure Keeps (world : World machine σ) (path : String) (holds : σ → Store → Prop) : Prop where
  operate : ∀ {s store} (operation : Store.Operation), holds s store → ∃ t,
    world (.store path operation) s = (.ok (.ok (store.perform operation).1), t) ∧
      holds t (store.perform operation).2
  now : ∀ {s store}, holds s store → ∃ time t, world .now s = (.ok time, t) ∧ holds t store
  exchange : ∀ {s store} (request : Http.Request), holds s store → ∃ answer t,
    world (.exchange request) s = (.ok answer, t) ∧ holds t store

/-- A client of services has no effect on the store. -/
theorem Keeps.run_online {world : World machine σ} {path : String} {holds : σ → Store → Prop}
    {α : Type} (hkeeps : Keeps world path holds) (client : Http.Client α) {s : σ} {store : Store}
    (hs : holds s store) : holds ((Job.online client).run world s).2 store := by
  induction client generalizing s with
  | done value => exact hs
  | fail error => exact hs
  | ask request next ih =>
      obtain ⟨answer, t, hanswer, ht⟩ := hkeeps.exchange request hs
      cases answer with
      | ok response =>
          have hexchange : (Job.exchange request).run world s = (.ok response, t) :=
            (Plan.run_ask_of_ok hanswer).trans rfl
          change holds ((Job.exchange request >>= fun response => Job.online (next response)).run
            world s).2 store
          rw [Plan.run_bind_of_ok hexchange]
          exact ih response ht
      | error error =>
          have hexchange : (Job.exchange request).run world s = (.error error, t) :=
            (Plan.run_ask_of_ok hanswer).trans rfl
          change holds ((Job.exchange request >>= fun response => Job.online (next response)).run
            world s).2 store
          rw [Plan.run_bind_of_error hexchange]
          exact ht

/-! ## What the clock shows -/

section Clock

variable {α β : Type} {world : World machine σ} {p : Job α} {f : α → Job β} {s t : σ}

/-- The time that a reply brings, if it is one of the clock. -/
def time? : Reply machine → Option Time.Instant
  | ⟨.now, time⟩ => some time
  | _ => none

/-- The times that the clock of the machine shows in the course of a job. -/
def shown (world : World machine σ) (job : Job α) (s : σ) : List Time.Instant :=
  (job.replies world s).filterMap time?

theorem shown_bind_of_ok {a : α} (hrun : p.run world s = (.ok a, t)) :
    shown world (p >>= f) s = shown world p s ++ shown world (f a) t := by
  rw [shown, Plan.replies_bind, hrun, List.filterMap_append, shown, shown]

theorem shown_bind_of_error {error : Error} (hrun : p.run world s = (.error error, t)) :
    shown world (p >>= f) s = shown world p s := by
  rw [shown, Plan.replies_bind, hrun, List.append_nil, shown]

/-- A job that does not ask for the time is not shown any. -/
theorem shown_eq_nil (hp : p.AsksOnly (· ≠ Question.now)) : shown world p s = [] := by
  refine List.filterMap_eq_nil_iff.2 fun reply hreply => ?_
  have hquestion := hp.of_mem_replies hreply
  obtain ⟨q, answer⟩ := reply
  cases q with
  | now => exact absurd rfl hquestion
  | _ => rfl

theorem shown_online (client : Http.Client α) : shown world (Job.online client) s = [] := by
  have hexchange (request : Http.Request) :
      (Job.exchange request).AsksOnly (· ≠ Question.now) := by
    refine ⟨nofun, fun answer => ?_⟩
    cases answer with
    | ok response => trivial
    | error error => trivial
  exact shown_eq_nil (Plan.AsksOnly.serve hexchange client)

end Clock

/-! ## Machines in memory -/

namespace FileTree

variable {t : FileTree} {working place : Place} {path : String}

theorem place_put_file {other : Place} {content : ByteArray}
    (hother : t.node? other ≠ some .directory) (h : t.place working path = .ok place) :
    (t.put other (.file content)).place working path = .ok place := by
  unfold FileTree.place at h ⊢
  split at h
  · simp at h
  · next hpath =>
      rw [if_neg hpath]
      exact follow_put_file hother h

theorem node?_put_file_ne {other : Place} {content : ByteArray} {place : Place}
    (h : t.node? place ≠ some .directory) :
    (t.put other (.file content)).node? place ≠ some .directory := by
  rw [node?_put]
  split
  · simp
  · exact h

/-- Files that go where no directory stands leave a path open, and no directory comes to
stand anywhere. -/
theorem foldl_put_files {directory : Place} {files : List (String × ByteArray)}
    (hfree : ∀ file ∈ files, t.node? (directory ++ [file.1]) ≠ some .directory)
    (hplace : t.place working path = .ok place) :
    let u := files.foldl (fun t (name, content) => t.put (directory ++ [name]) (.file content)) t
    u.place working path = .ok place ∧
      ∀ other, t.node? other ≠ some .directory → u.node? other ≠ some .directory := by
  induction files generalizing t with
  | nil => exact ⟨hplace, fun _ hother => hother⟩
  | cons file files ih =>
      obtain ⟨hfile, hfiles⟩ := List.forall_mem_cons.1 hfree
      obtain ⟨hopen, hnone⟩ := ih (fun other hother => node?_put_file_ne (hfiles other hother))
        (place_put_file hfile hplace)
      exact ⟨hopen, fun other hother => hnone other (node?_put_file_ne hother)⟩

end FileTree

namespace Desktop

/-- The path leads to a store, and no directory stands where a file of it may have to go. -/
def Holds (path : String) (d : Desktop) (store : Store) : Prop :=
  ∃ place, d.files.place d.working path = .ok place ∧ d.stores.lookup place = some store ∧
    ∀ content, ∀ file ∈ d.layout content, d.files.node? (place ++ [file.1]) ≠ some .directory

theorem holds_keep {d : Desktop} {path : String} {place : Place} (store : Store)
    (hplace : d.files.place d.working path = .ok place)
    (hfree : ∀ content, ∀ file ∈ d.layout content,
      d.files.node? (place ++ [file.1]) ≠ some .directory) :
    Holds path (d.keep place store) store := by
  obtain ⟨hopen, hnone⟩ := FileTree.foldl_put_files (hfree store) hplace
  exact ⟨place, hopen, by simp [keep], fun content file hfile =>
    hnone _ (hfree content file hfile)⟩

/-- A store that has been opened is held, with what stood in it before. -/
theorem holds_of_openStore {d t : Desktop} {path : String} (h : d.openStore path = (.ok (), t))
    (hfree : ∀ files, d.files.makeDirectoryIn d.working path "blobs" = .ok files →
      ∀ content, ∀ file ∈ d.layout content,
        files.node? (aim d.working path ++ [file.1]) ≠ some .directory) :
    Holds path t ((d.stores.lookup (aim d.working path)).getD ∅) := by
  unfold Desktop.openStore at h
  cases hmake : d.files.makeDirectoryIn d.working path "blobs" with
  | error fault => simp [hmake] at h
  | ok files =>
      cases hplace : files.place d.working path with
      | error fault => simp [hmake, hplace] at h
      | ok place =>
          obtain rfl := FileTree.place_eq_aim hplace
          simp only [hmake, hplace, Prod.mk.injEq, true_and] at h
          rw [← h]
          exact holds_keep (d := { d with files }) _ hplace (hfree files hmake)

/-- Machines in memory keep their stores. -/
theorem keeps (path : String) : Keeps world path (Holds path) where
  operate := by
    intro d store operation ⟨place, hplace, hstore, hfree⟩
    have hoperate : d.operate path operation = (.ok (store.perform operation).1,
        d.keep place (store.perform operation).2) := by
      simp [Desktop.operate, hplace, hstore]
    exact ⟨_, congrArg (fun found => (Except.ok found.1, found.2)) hoperate,
      holds_keep _ hplace hfree⟩
  now := fun {d _} hd => ⟨d.time, d, rfl, hd⟩
  exchange := fun {d _} request hd => ⟨d.network request, d, rfl, hd⟩

end Desktop

end TeamDigest.Host
