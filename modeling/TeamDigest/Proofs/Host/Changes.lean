import TeamDigest.Host.Desktop
import TeamDigest.Proofs.Plan.Transcript

/-!
# What changes on a machine

A path has a place that its names alone lead to (`aim`), and names on the way to it
(`way`).  Writing to a file changes a tree at that place only (`write_eq_put`), and
making a directory adds directories along the way where there was nothing (`pave_adds`).

`Orderly` asks no more of a machine than that: it answers every question, keeps its
surroundings, and its files change by those two operations and within these bounds, or
else inside the directory of a store.  How a store is laid out there is left open, and so
is what comes over the network and what the clock shows, from question to question.
Machines in memory are orderly, whatever their layout (`Desktop.orderly`).  On an orderly
machine a job touches no more places than the questions do that it may put
(`Orderly.run_keeps`).
-/

namespace TeamDigest.Host

/-! ## Places by name -/

/-- The place to which steps lead by their names alone. -/
def walk (from_ : Place) : List String → Place
  | [] => from_
  | step :: rest =>
    if Path.isIdle step then walk from_ rest
    else if step == ".." then walk from_.dropLast rest
    else walk (from_ ++ [step]) rest

/-- The places into which steps go down, one after the other. -/
def descents (from_ : Place) : List String → List Place
  | [] => []
  | step :: rest =>
    if Path.isIdle step then descents from_ rest
    else if step == ".." then descents from_.dropLast rest
    else (from_ ++ [step]) :: descents (from_ ++ [step]) rest

/-- The place of a path. -/
def aim (working : Place) (path : String) : Place :=
  walk (FileTree.setOut working path).1 (FileTree.setOut working path).2

/-- The places on the way of a path, its own included. -/
def way (working : Place) (path : String) : List Place :=
  descents (FileTree.setOut working path).1 (FileTree.setOut working path).2

theorem walk_append_singleton (from_ : Place) (steps : List String) {name : String}
    (hidle : Path.isIdle name = false) (hup : (name == "..") = false) :
    walk from_ (steps ++ [name]) = walk from_ steps ++ [name] := by
  fun_induction walk from_ steps with
  | case1 from_ => simp [walk, hidle, hup]
  | case2 from_ step rest hstep ih => simp [walk, hstep, ih]
  | case3 from_ step rest hstep hparent ih => simp [walk, hstep, hparent, ih]
  | case4 from_ step rest hstep hparent ih => simp [walk, hstep, hparent, ih]

theorem descents_append (from_ : Place) (steps more : List String) :
    descents from_ (steps ++ more) = descents from_ steps ++ descents (walk from_ steps) more := by
  fun_induction walk from_ steps with
  | case1 from_ => rfl
  | case2 from_ step rest hidle ih => simp [descents, hidle, ih]
  | case3 from_ step rest hidle hup ih => simp [descents, hidle, hup, ih]
  | case4 from_ step rest hidle hup ih => simp [descents, hidle, hup, ih]

/-- One step leads into a directory of its name, if anywhere. -/
theorem prefix_of_mem_descents_singleton {from_ place : Place} {name : String}
    (h : place ∈ descents from_ [name]) : from_ <+: place := by
  unfold descents at h
  split at h
  · simp [descents] at h
  · split at h
    · simp [descents] at h
    · obtain rfl : place = from_ ++ [name] := by simpa [descents] using h
      exact List.prefix_append _ _

namespace FileTree

variable {t u : FileTree} {working place : Place} {path : String} {content : ByteArray}

/-- Steps that a tree lets pass lead where their names say. -/
theorem follow_eq_walk {from_ : Place} {steps : List String}
    (h : t.follow from_ steps = .ok place) : place = walk from_ steps := by
  fun_induction follow t from_ steps with
  | case1 from_ => exact (Except.ok.inj h).symm
  | case2 => simp at h
  | case3 => simp at h
  | case4 from_ step rest _ hidle ih => simp [walk, hidle, ih h]
  | case5 from_ step rest _ hidle hup ih => simp [walk, hidle, hup, ih h]
  | case6 from_ step rest _ hidle hup _ ih => simp [walk, hidle, hup, ih h]
  | case7 => simp at h

/-- Steps that do not end with nothing keep their end when nothing is cut off. -/
private theorem trimmed_eq {steps : List String} (h : steps.getLast? ≠ some "") :
    (steps.reverse.dropWhile (· == "")).reverse = steps := by
  cases hreverse : steps.reverse with
  | nil => simpa using hreverse.symm
  | cons last rest =>
      have hlast : (last == "") = false := by
        rw [List.getLast?_eq_head?_reverse, hreverse] at h
        simpa using h
      rw [List.dropWhile_cons, hlast, if_neg Bool.false_ne_true, ← hreverse, List.reverse_reverse]

/-- A new file gets a name of its own in a directory that is there. -/
theorem newPlace_spec (h : t.newPlace working path = .ok place) :
    ∃ steps name directory, path.isEmpty = false ∧
      (setOut working path).2 = steps ++ [name] ∧ Path.isIdle name = false ∧
      (name == "..") = false ∧ t.follow (setOut working path).1 steps = .ok directory ∧
      t.node? directory = some .directory ∧ place = directory ++ [name] := by
  unfold newPlace at h
  generalize setOut working path = setting at h ⊢
  obtain ⟨start, all⟩ := setting
  split at h
  · simp at h
  · next hempty =>
      dsimp only at h ⊢
      cases hfollow : t.follow start (all.reverse.dropWhile (· == "")).reverse.dropLast with
      | error fault => simp only [hfollow, bind, Except.bind, reduceCtorEq] at h
      | ok directory =>
          simp only [hfollow, bind, Except.bind] at h
          split at h
          · simp at h
          · simp at h
          · next hdirectory =>
              split at h
              · simp at h
              · next hname =>
                  obtain ⟨⟨hslash, hidle⟩, hup⟩ :
                      (all.getLast? ≠ some "" ∧ Path.isIdle _ = false) ∧ (_ == "..") = false := by
                    simpa only [Bool.or_eq_true, decide_eq_true_eq, not_or, Bool.not_eq_true]
                      using hname
                  rw [trimmed_eq hslash] at h hfollow hidle hup
                  have hall : all = all.dropLast ++ [all.getLast?.getD ""] := by
                    cases hlast : all.getLast? with
                    | none => simp [hlast, Path.isIdle] at hidle
                    | some name => exact (List.dropLast_append_getLast? name hlast).symm
                  exact ⟨_, _, directory, by simpa using hempty, hall, hidle, hup, hfollow,
                    hdirectory, (Except.ok.inj h).symm⟩

/-- A new file stands at the place of its path. -/
theorem newPlace_eq_aim (h : t.newPlace working path = .ok place) :
    place = aim working path := by
  obtain ⟨steps, name, directory, -, hall, hidle, hup, hfollow, -, hplace⟩ := newPlace_spec h
  rw [aim, hall, walk_append_singleton _ _ hidle hup, ← follow_eq_walk hfollow, hplace]

/-- Writing puts the file at the place of its path, and changes nothing else. -/
theorem write_eq_put (h : t.write working path content = .ok u) :
    u = t.put (aim working path) (.file content) := by
  unfold write at h
  cases hplace : t.newPlace working path with
  | error fault => simp [hplace, bind, Except.bind] at h
  | ok place =>
      rw [← newPlace_eq_aim hplace]
      simp only [hplace, bind, Except.bind] at h
      split at h
      · simp at h
      · exact (Except.ok.inj h).symm

/-- Steps that a tree lets pass still lead there when a file is put where no directory
stands. -/
theorem follow_put_file {other : Place} (hother : t.node? other ≠ some .directory)
    {from_ : Place} {steps : List String} (h : t.follow from_ steps = .ok place) :
    (t.put other (.file content)).follow from_ steps = .ok place := by
  have hkept : ∀ at_, t.node? at_ = some .directory →
      (t.put other (.file content)).node? at_ = some .directory := by
    intro at_ hat
    have hne : at_ ≠ other := by
      rintro rfl
      exact hother hat
    rw [node?_put, if_neg hne, hat]
  have hthere : ∀ at_, (t.node? at_).isSome = true →
      ((t.put other (.file content)).node? at_).isSome = true := by
    intro at_ hat
    rw [node?_put]
    split
    · rfl
    · exact hat
  fun_induction follow t from_ steps with
  | case1 from_ => exact h
  | case2 => simp at h
  | case3 => simp at h
  | case4 from_ step rest hnode hidle ih => simp [follow, hkept _ hnode, hidle, ih h]
  | case5 from_ step rest hnode hidle hup ih => simp [follow, hkept _ hnode, hidle, hup, ih h]
  | case6 from_ step rest hnode hidle hup hnext ih =>
      simp [follow, hkept _ hnode, hidle, hup, hthere _ hnext, ih h]
  | case7 => simp at h

theorem follow_append (t : FileTree) (from_ : Place) (steps more : List String) :
    t.follow from_ (steps ++ more) = (t.follow from_ steps).bind fun at_ => t.follow at_ more := by
  fun_induction follow t from_ steps with
  | case1 from_ => rfl
  | case2 from_ step rest hnode => simp [follow, hnode, Except.bind]
  | case3 from_ step rest content hnode => simp [follow, hnode, Except.bind]
  | case4 from_ step rest hnode hidle ih => simp [follow, hnode, hidle, ih]
  | case5 from_ step rest hnode hidle hup ih => simp [follow, hnode, hidle, hup, ih]
  | case6 from_ step rest hnode hidle hup hnext ih => simp [follow, hnode, hidle, hup, hnext, ih]
  | case7 from_ step rest hnode hidle hup hnext =>
      simp [follow, hnode, hidle, hup, hnext, Except.bind]

/-- What has been written is there, and can be read. -/
theorem read_of_write (h : t.write working path content = .ok u) :
    u.present working path = true ∧ u.read working path = .ok content := by
  unfold write at h
  cases hplace : t.newPlace working path with
  | error fault => simp [hplace, bind, Except.bind] at h
  | ok place =>
      obtain ⟨steps, name, directory, hempty, hall, hidle, hup, hfollow, hdirectory, rfl⟩ :=
        newPlace_spec hplace
      simp only [hplace, bind, Except.bind] at h
      split at h
      · simp at h
      · next hfree =>
          obtain rfl := Except.ok.inj h
          have hnode : (t.put (directory ++ [name]) (.file content)).node? (directory ++ [name]) =
              some (.file content) := by
            rw [node?_put, if_pos rfl]
          have habove : (t.put (directory ++ [name]) (.file content)).node? directory =
              some .directory := by
            rw [node?_put, if_neg (by simp), hdirectory]
          have hplaced : (t.put (directory ++ [name]) (.file content)).place working path =
              .ok (directory ++ [name]) := by
            rw [place, if_neg (by simp [hempty])]
            dsimp only
            rw [hall, follow_append, follow_put_file hfree hfollow]
            simp [Except.bind, follow, habove, hidle, hup, hnode]
          constructor
          · rw [present, hplaced]
          · simp only [read, hplaced, bind, Except.bind, hnode]

/-- Paving adds directories on the way, where there was nothing. -/
theorem pave_adds {from_ : Place} {steps : List String} (h : t.pave from_ steps = .ok u)
    (place : Place) :
    u.node? place = t.node? place ∨
      t.node? place = none ∧ u.node? place = some .directory ∧ place ∈ descents from_ steps := by
  fun_induction pave t from_ steps with
  | case1 t from_ => exact .inl (by rw [Except.ok.inj h])
  | case2 t from_ step rest hidle ih =>
      simpa only [descents, hidle, if_true] using ih h
  | case3 t from_ step rest hidle hup ih =>
      simpa only [descents, hidle, hup, if_true, Bool.false_eq_true, if_false] using ih h
  | case4 t from_ step rest hidle hup hnode ih =>
      simp only [descents, hidle, hup, Bool.false_eq_true, if_false, List.mem_cons]
      rcases ih h with hsame | ⟨hnone, hmade, hway⟩
      · exact .inl hsame
      · exact .inr ⟨hnone, hmade, .inr hway⟩
  | case5 => simp at h
  | case6 t from_ step rest hidle hup hnode ih =>
      simp only [descents, hidle, hup, Bool.false_eq_true, if_false, List.mem_cons]
      have hput := t.node?_put (from_ ++ [step]) place .directory
      by_cases hplace : place = from_ ++ [step]
      · rw [if_pos hplace] at hput
        rcases ih h with hsame | ⟨hnone, -, -⟩
        · exact .inr ⟨hplace ▸ hnode, hsame.trans hput, .inl hplace⟩
        · simp [hput] at hnone
      · rw [if_neg hplace] at hput
        rcases ih h with hsame | ⟨hnone, hmade, hway⟩
        · exact .inl (hsame.trans hput)
        · exact .inr ⟨hput ▸ hnone, hmade, .inr hway⟩

/-- A path leads to its place. -/
theorem place_eq_aim (h : t.place working path = .ok place) : place = aim working path := by
  unfold FileTree.place at h
  split at h
  · simp at h
  · exact follow_eq_walk h

/-- A directory in a directory is made on the way there, or inside. -/
theorem makeDirectoryIn_adds {name : String} (h : t.makeDirectoryIn working path name = .ok u)
    (place : Place) :
    u.node? place = t.node? place ∨ aim working path <+: place ∨
      t.node? place = none ∧ u.node? place = some .directory ∧ place ∈ way working path := by
  rcases pave_adds h place with hsame | ⟨hnone, hmade, hway⟩
  · exact .inl hsame
  · rw [descents_append, List.mem_append] at hway
    rcases hway with hway | hinside
    · exact .inr (.inr ⟨hnone, hmade, hway⟩)
    · exact .inr (.inl (prefix_of_mem_descents_singleton hinside))

/-- Files that are put into a directory change nothing outside of it. -/
theorem node?_foldl_put (t : FileTree) (files : List (String × ByteArray)) (place other : Place) :
    (files.foldl (fun t (name, content) => t.put (place ++ [name]) (.file content)) t).node? other =
        t.node? other ∨ place <+: other := by
  induction files generalizing t with
  | nil => exact .inl rfl
  | cons file files ih =>
      rcases ih (t.put (place ++ [file.1]) (.file file.2)) with hsame | hinside
      · rw [node?_put] at hsame
        split at hsame
        · next hother => exact .inr (hother ▸ List.prefix_append _ _)
        · exact .inl hsame
      · exact .inr hinside

end FileTree

/-! ## Machines -/

/-- What a machine tells of its user. -/
structure Surroundings where
  environment : String → Option String
  /-- The home directory, by the user's account. -/
  account : Option String

/-- What the states of a machine show. -/
structure View (σ : Type) where
  /-- What stands at a place. -/
  files : σ → Place → Option Node
  /-- The directory from which paths start. -/
  working : σ → Place
  surroundings : σ → Surroundings

/-- A directory is made where there was nothing, on the way of a path. -/
def IsMade (working : Place) (path : String) (place : Place) (before after : Option Node) : Prop :=
  before = none ∧ after = some .directory ∧ place ∈ way working path

/-- What a question may make of what stands at a place: a file is written at the place of
its path, directories are made on the way of theirs, and a store changes what stands in its
directory. -/
def Touches (working : Place) (place : Place) (before after : Option Node) : Question → Prop
  | .write path _ => place = aim working path
  | .makeDirectory path => IsMade working path place before after
  | .openStore path => aim working path <+: place ∨ IsMade working path place before after
  | .store path _ => aim working path <+: place
  | _ => False

/-- The machine answers every question, keeps its surroundings and its working directory,
its files change by operations on them and on stores only, and what has been written is
there. -/
structure Orderly {σ : Type} (view : View σ) (world : World machine σ) : Prop where
  total : Total world
  working : ∀ {q s answer t}, world q s = (.ok answer, t) → view.working t = view.working s
  surroundings : ∀ {q s answer t}, world q s = (.ok answer, t) →
    view.surroundings t = view.surroundings s
  env : ∀ {name s value t}, world (.env name) s = (.ok value, t) →
    value = (view.surroundings s).environment name
  account : ∀ {s value t}, world .account s = (.ok value, t) →
    value = (view.surroundings s).account
  files : ∀ {q s answer t}, world q s = (.ok answer, t) → ∀ place,
    view.files t place = view.files s place ∨
      Touches (view.working s) place (view.files s place) (view.files t place) q
  written : ∀ {path content s t}, world (.write path content) s = (.ok (.ok ()), t) →
    view.files t (aim (view.working s) path) = some (.file content)

/-- The answer tells what the surroundings are. -/
def Knows (surroundings : Surroundings) : Reply machine → Prop
  | ⟨.env name, value⟩ => value = surroundings.environment name
  | ⟨.account, value⟩ => value = surroundings.account
  | _ => True

/-- What stands at a place is as before, or a question of the kind `asks` has touched it. -/
def Kept (asks : Question → Prop) (working : Place) (place : Place)
    (before after : Option Node) : Prop :=
  after = before ∨ ∃ q, asks q ∧ Touches working place before after q

/-- A question may make anything of what stands at a place, or else a directory where there
was nothing. -/
theorem Touches.anything_or_made {working place : Place} {before after : Option Node}
    {q : Question} (h : Touches working place before after q) :
    (∀ first last, Touches working place first last q) ∨
      before = none ∧ after = some .directory := by
  cases q with
  | write path content => exact .inl fun _ _ => h
  | makeDirectory path => exact .inr ⟨h.1, h.2.1⟩
  | openStore path =>
      rcases h with hinside | hmade
      · exact .inl fun _ _ => .inl hinside
      · exact .inr ⟨hmade.1, hmade.2.1⟩
  | store path operation => exact .inl fun _ _ => h
  | _ => exact h.elim

/-- A directory is made only where there was nothing, so a place is not touched twice in
different ways unless anything may be made of it. -/
theorem Kept.trans {asks : Question → Prop} {working place : Place}
    {first second third : Option Node} (h₁ : Kept asks working place first second)
    (h₂ : Kept asks working place second third) : Kept asks working place first third := by
  rcases h₁ with rfl | ⟨q, hq, htouches⟩
  · exact h₂
  · rcases htouches.anything_or_made with hanything | ⟨rfl, rfl⟩
    · exact .inr ⟨q, hq, hanything _ _⟩
    · rcases h₂ with rfl | ⟨q', hq', htouches'⟩
      · exact .inr ⟨q, hq, htouches⟩
      · rcases htouches'.anything_or_made with hanything | ⟨hnone, -⟩
        · exact .inr ⟨q', hq', hanything _ _⟩
        · simp at hnone

namespace Orderly

variable {σ α : Type} {view : View σ} {world : World machine σ} {p : Job α}
  {asks : Question → Prop} {ends : α → Prop}

/-- A job on an orderly machine touches no more than its questions do. -/
theorem run_keeps (horderly : Orderly view world) (s : σ)
    (hp : p.Meets (Knows (view.surroundings s)) asks ends) :
    (view.working (p.run world s).2 = view.working s ∧
      view.surroundings (p.run world s).2 = view.surroundings s ∧
      ∀ place, Kept asks (view.working s) place (view.files s place)
        (view.files (p.run world s).2 place)) ∧
    (∀ reply ∈ p.replies world s, asks reply.question) ∧
      ∀ a, (p.run world s).1 = .ok a → ends a := by
  refine Plan.Meets.of_invariant (fun t => view.working t = view.working s ∧
    view.surroundings t = view.surroundings s ∧
      ∀ place, Kept asks (view.working s) place (view.files s place) (view.files t place))
    horderly.total ?_ hp ⟨rfl, rfl, fun _ => .inl rfl⟩
  rintro q t answer u ⟨hworking, hsurroundings, hfiles⟩ hasks hanswer
  refine ⟨?_, (horderly.working hanswer).trans hworking,
    (horderly.surroundings hanswer).trans hsurroundings, fun place => ?_⟩
  · cases q with
    | env name =>
        exact (horderly.env hanswer).trans
          (congrArg (fun known : Surroundings => known.environment name) hsurroundings)
    | account =>
        exact (horderly.account hanswer).trans (congrArg Surroundings.account hsurroundings)
    | _ => trivial
  · refine (hfiles place).trans ?_
    rcases horderly.files hanswer place with hsame | htouches
    · exact .inl hsame
    · exact .inr ⟨q, hasks, hworking ▸ htouches⟩

/-- Questions that touch no place leave all files as they are. -/
theorem files_eq (horderly : Orderly view world) (s : σ) (hp : p.AsksOnly asks)
    (hasks : ∀ q, asks q → ∀ working place before after, ¬ Touches working place before after q) :
    view.files (p.run world s).2 = view.files s := by
  funext place
  have hkept := (horderly.run_keeps s (Plan.Meets.of_asksOnly hp)).1.2.2 place
  rcases hkept with hsame | ⟨q, hq, htouches⟩
  · exact hsame
  · exact absurd htouches (hasks q hq _ _ _ _)

end Orderly

namespace Desktop

/-- What machines in memory show. -/
def view : View Desktop where
  files d := d.files.node?
  working d := d.working
  surroundings d := ⟨fun name => d.environment.lookup name, d.account⟩

@[simp] theorem change_ok (d : Desktop) (files : FileTree) :
    (d.change (.ok files)).2 = { d with files } := rfl

@[simp] theorem change_error (d : Desktop) (fault : FileFault) :
    (d.change (.error fault)).2 = d := rfl

/-- What a machine in memory has written is there. -/
theorem written_of_ok {d : Desktop} {path : String} {content : ByteArray}
    (h : (d.change (d.files.write d.working path content)).1 = .ok ()) :
    (d.change (d.files.write d.working path content)).2.files.node? (aim d.working path) =
      some (.file content) := by
  cases hwrite : d.files.write d.working path content with
  | error fault => simp [hwrite, change] at h
  | ok t =>
      rw [change_ok, FileTree.write_eq_put hwrite, FileTree.node?_put, if_pos rfl]

/-- What stands at a place of a machine after a question, as far as the question goes. -/
def Settles (q : Question) (before after : Desktop) : Prop :=
  after.working = before.working ∧ view.surroundings after = view.surroundings before ∧
    ∀ place, after.files.node? place = before.files.node? place ∨
      Touches before.working place (before.files.node? place) (after.files.node? place) q

theorem settles_openStore (d : Desktop) (path : String) :
    Settles (.openStore path) d (d.openStore path).2 := by
  unfold Desktop.openStore
  cases hmake : d.files.makeDirectoryIn d.working path "blobs" with
  | error fault => exact ⟨rfl, rfl, fun _ => .inl rfl⟩
  | ok files =>
      have hadds := FileTree.makeDirectoryIn_adds hmake
      cases hplace : files.place d.working path with
      | error fault => simpa [hplace] using ⟨rfl, rfl, hadds⟩
      | ok place =>
          simp only [hplace]
          refine ⟨rfl, rfl, fun other => ?_⟩
          rcases FileTree.node?_foldl_put files
              (d.layout ((d.stores.lookup place).getD ∅)) place other with hsame | hinside
          · exact (hadds other).imp hsame.trans fun hmade => by rwa [Touches, IsMade, keep, hsame]
          · exact .inr (.inl (FileTree.place_eq_aim hplace ▸ hinside))

theorem settles_operate (d : Desktop) (path : String) (operation : Store.Operation) :
    Settles (.store path operation) d (d.operate path operation).2 := by
  unfold Desktop.operate
  cases hplace : d.files.place d.working path with
  | error fault => exact ⟨rfl, rfl, fun _ => .inl rfl⟩
  | ok place =>
      cases hstore : d.stores.lookup place with
      | none => simpa [hstore] using ⟨rfl, rfl, fun _ => .inl rfl⟩
      | some store =>
          simp only [hstore]
          refine ⟨rfl, rfl, fun other => ?_⟩
          rcases FileTree.node?_foldl_put d.files (d.layout (store.perform operation).2) place other
            with hsame | hinside
          · exact .inl hsame
          · exact .inr (FileTree.place_eq_aim hplace ▸ hinside)

/-- A machine in memory changes no more than its files, and these within the bounds. -/
theorem settles_answer (d : Desktop) (q : Question) : Settles q d (d.answer q).2 := by
  cases q with
  | write path content =>
      change Settles _ d (d.change _).2
      cases hwrite : d.files.write d.working path content with
      | error fault => exact ⟨rfl, rfl, fun _ => .inl rfl⟩
      | ok t =>
          rw [change_ok, FileTree.write_eq_put hwrite]
          refine ⟨rfl, rfl, fun place => ?_⟩
          by_cases hplace : place = aim d.working path
          · exact .inr hplace
          · exact .inl ((d.files.node?_put _ _ _).trans (if_neg hplace))
  | makeDirectory path =>
      change Settles _ d (d.change _).2
      cases hmake : d.files.makeDirectory d.working path with
      | error fault => exact ⟨rfl, rfl, fun _ => .inl rfl⟩
      | ok t => exact ⟨rfl, rfl, FileTree.pave_adds hmake⟩
  | openStore path => exact settles_openStore d path
  | store path operation => exact settles_operate d path operation
  | _ => exact ⟨rfl, rfl, fun _ => .inl rfl⟩

theorem orderly : Orderly view world where
  total q d := ⟨(d.answer q).1, (d.answer q).2, rfl⟩
  working := by
    intro q d answer t h
    obtain ⟨-, rfl⟩ := Prod.mk.inj h
    exact (d.settles_answer q).1
  surroundings := by
    intro q d answer t h
    obtain ⟨-, rfl⟩ := Prod.mk.inj h
    exact (d.settles_answer q).2.1
  env := by
    intro name d value t h
    exact (Except.ok.inj (Prod.mk.inj h).1).symm
  account := by
    intro d value t h
    exact (Except.ok.inj (Prod.mk.inj h).1).symm
  files := by
    intro q d answer t h
    obtain ⟨-, rfl⟩ := Prod.mk.inj h
    exact (d.settles_answer q).2.2
  written := by
    intro path content d t h
    obtain ⟨hanswer, rfl⟩ := Prod.mk.inj h
    exact written_of_ok (Except.ok.inj hanswer)

end Desktop

end TeamDigest.Host
