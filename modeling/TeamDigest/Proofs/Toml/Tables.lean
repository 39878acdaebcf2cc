import TeamDigest.Toml.Table

/-!
# Changes to tables

What a document does to its tables, seen from the table at the end of a path: changes there
follow one another (`descend_bind`), and a change further down is a change of a table on the
way (`descend_append`).  All that a written document does is to put entries under new keys
(`Table.grow`), and each of its lines does a part of that.

## Strategy

The induction is on the path, as in `Table.descend`.  A change that keeps the origin of its
table finds below a key just what an earlier one has put there, so two changes at the end of
a path are one.
-/

namespace TeamDigest.Toml

namespace Table

variable {missing : Origin} {change next : Table → Option Table} {t u : Table} {key : String}
  {node : Node}

/-! ## Putting nodes -/

private theorem lookup_append_singleton {entries : List (String × Node)}
    (h : entries.lookup key = none) : (entries ++ [(key, node)]).lookup key = some node := by
  induction entries with
  | nil => simp
  | cons e entries ih =>
      obtain ⟨other, n⟩ := e
      rw [List.lookup_cons] at h
      split at h
      · simp at h
      · next hne =>
        rw [List.cons_append, List.lookup_cons, hne]
        exact ih h

/-- Where a key is missing, nothing is replaced. -/
private theorem replace_of_lookup {entries : List (String × Node)}
    (h : entries.lookup key = none) :
    (entries.map fun e => if e.1 = key then (key, node) else e) = entries := by
  induction entries with
  | nil => rfl
  | cons e entries ih =>
      obtain ⟨other, n⟩ := e
      rw [List.lookup_cons] at h
      split at h
      · simp at h
      · next hne =>
        have hother : other ≠ key := fun heq => by simp [heq] at hne
        rw [List.map_cons, if_neg hother, ih h]

private theorem lookup_replace {entries : List (String × Node)}
    (h : (entries.lookup key).isSome = true) :
    (entries.map fun e => if e.1 = key then (key, node) else e).lookup key = some node := by
  induction entries with
  | nil => simp at h
  | cons e entries ih =>
      obtain ⟨other, n⟩ := e
      by_cases hother : other = key
      · simp [hother]
      · have hne : (key == other) = false := by simpa using Ne.symm hother
        rw [List.lookup_cons, hne] at h
        rw [List.map_cons, if_neg hother, List.lookup_cons, hne]
        exact ih h

theorem put_of_lookup (h : t.entries.lookup key = none) :
    t.put key node = ⟨t.origin, t.entries ++ [(key, node)]⟩ := by
  simp [put, h]

@[simp] theorem put_origin : (t.put key node).origin = t.origin := by
  unfold put
  split <;> rfl

@[simp] theorem lookup_put : (t.put key node).entries.lookup key = some node := by
  unfold put
  split
  · next h => exact lookup_replace h
  · next h => exact lookup_append_singleton (Option.not_isSome_iff_eq_none.mp h)

@[simp] theorem put_put (other : Node) : (t.put key node).put key other = t.put key other := by
  have hsome : ((t.put key node).entries.lookup key).isSome = true := by simp
  rw [put, if_pos hsome]
  unfold put
  split
  · next h =>
    simp only [List.map_map, mk.injEq, true_and]
    refine List.map_congr_left fun e _ => ?_
    by_cases he : e.1 = key <;> simp [he]
  · next h =>
    have hnone : t.entries.lookup key = none := Option.not_isSome_iff_eq_none.mp h
    simp [replace_of_lookup hnone]

/-! ## Changes at the end of a path -/

/-- The table under a key, and the node that it becomes when it is put back. -/
def under? (missing : Origin) (key : String) (t : Table) : Option (Table × (Table → Node)) :=
  match t.entries.lookup key with
  | none => some (⟨missing, []⟩, fun below => .table below.origin below.entries)
  | some (.value _) => none
  | some (.table origin entries) =>
    if missing = .dotted ∧ origin = .header then none
    else some (⟨origin, entries⟩, fun below => .table below.origin below.entries)
  | some (.tables []) => none
  | some (.tables (last :: earlier)) =>
    some (⟨.header, last⟩, fun below => .tables (below.entries :: earlier))

theorem descend_cons (path : List String) :
    descend missing change (key :: path) t =
      (under? missing key t).bind fun p =>
        (descend missing change path p.1).bind fun below => some (t.put key (p.2 below)) := by
  unfold under?
  rw [descend]
  cases hlookup : t.entries.lookup key with
  | none => rfl
  | some node =>
      cases node with
      | value => rfl
      | table origin entries =>
          dsimp only
          split <;> rfl
      | tables reversed => cases reversed <;> rfl

/-- What has been put back under a key is found there. -/
theorem under?_put {p : Table × (Table → Node)} (h : under? .passage key t = some p) {below : Table}
    (hbelow : below.origin = p.1.origin) :
    under? .passage key (t.put key (p.2 below)) = some (below, p.2) := by
  have hlookup : ∀ node, (t.put key node).entries.lookup key = some node := fun _ => lookup_put
  unfold under? at h
  unfold under?
  rw [hlookup]
  split at h
  · obtain rfl := Option.some.inj h
    simp
  · simp at h
  · simp only [reduceCtorEq, false_and, if_false, Option.some.injEq] at h
    obtain rfl := h
    simp
  · simp at h
  · obtain rfl := Option.some.inj h
    obtain ⟨origin, entries⟩ := below
    obtain rfl : origin = .header := hbelow
    rfl

/-- The change keeps the origin of the table. -/
def KeepsOrigin (change : Table → Option Table) : Prop :=
  ∀ ⦃t u⦄, change t = some u → u.origin = t.origin

theorem KeepsOrigin.descend (h : KeepsOrigin change) (path : List String) :
    KeepsOrigin (Table.descend missing change path) := by
  cases path with
  | nil => exact h
  | cons key path =>
      intro t u hu
      rw [descend_cons] at hu
      obtain ⟨p, -, hp⟩ := Option.bind_eq_some_iff.mp hu
      obtain ⟨below, -, hbelow⟩ := Option.bind_eq_some_iff.mp hp
      obtain rfl := Option.some.inj hbelow
      exact put_origin

/-- A change further down is a change of a table on the way. -/
theorem descend_append (path more : List String) (t : Table) :
    descend missing change (path ++ more) t =
      descend missing (descend missing change more) path t := by
  induction path generalizing t with
  | nil => rfl
  | cons key path ih => simp only [List.cons_append, descend_cons, ih]

/-- Changes at the end of a path follow one another. -/
theorem descend_bind (h : KeepsOrigin change) (path : List String) (t : Table) :
    (descend .passage change path t).bind (descend .passage next path) =
      descend .passage (fun t => (change t).bind next) path t := by
  induction path generalizing t with
  | nil => rfl
  | cons key path ih =>
      rw [descend_cons, descend_cons]
      cases hunder : under? .passage key t with
      | none => rfl
      | some p =>
          simp only [Option.bind_some, ← ih]
          -- The second change finds under the key just what the first has put back.
          cases hbelow : descend .passage change path p.1 with
          | none => rfl
          | some below =>
              have horigin : below.origin = p.1.origin := h.descend path hbelow
              simp [descend_cons, under?_put hunder horigin]

/-- What does more does at least as much at the end of a path. -/
theorem descend_mono (h : ∀ t u, change t = some u → next t = some u) {path : List String}
    (hdescend : descend missing change path t = some u) :
    descend missing next path t = some u := by
  induction path generalizing t u with
  | nil => exact h t u hdescend
  | cons key path ih =>
      rw [descend_cons] at hdescend ⊢
      obtain ⟨p, hunder, hp⟩ := Option.bind_eq_some_iff.mp hdescend
      obtain ⟨below, hbelow, hu⟩ := Option.bind_eq_some_iff.mp hp
      simp [hunder, ih hbelow, hu]

/-- A change at the end of a path may be done in two steps. -/
theorem descend_split {first second : Table → Option Table} (hfirst : KeepsOrigin first)
    (h : ∀ t u, change t = some u → (first t).bind second = some u) {path : List String}
    (hdescend : descend .passage change path t = some u) :
    ∃ v, descend .passage first path t = some v ∧ descend .passage second path v = some u := by
  have hboth : descend .passage (fun t => (first t).bind second) path t = some u :=
    descend_mono h hdescend
  rw [← descend_bind hfirst] at hboth
  exact Option.bind_eq_some_iff.mp hboth

/-! ## Entries under new keys -/

/-- Puts entries under keys that are missing so far. -/
def grow (es : List (String × Node)) (t : Table) : Option Table :=
  if t.origin = .dotted ∨ es.any (fun e => (t.entries.lookup e.1).isSome) = true then none
  else some ⟨t.origin, t.entries ++ es⟩

variable {es : List (String × Node)}

theorem grow_eq_some_iff : grow es t = some u ↔
    t.origin ≠ .dotted ∧ (∀ e ∈ es, t.entries.lookup e.1 = none) ∧
      u = ⟨t.origin, t.entries ++ es⟩ := by
  have hfresh : es.any (fun e => (t.entries.lookup e.1).isSome) = true ↔
      ¬ ∀ e ∈ es, t.entries.lookup e.1 = none := by
    simp only [List.any_eq_true, Option.isSome_iff_ne_none, Classical.not_forall, exists_prop]
  unfold grow
  split
  · next h =>
    refine ⟨nofun, fun ⟨horigin, hnone, _⟩ => ?_⟩
    exact absurd hnone (hfresh.mp (h.resolve_left horigin))
  · next h =>
    obtain ⟨horigin, hany⟩ := not_or.mp h
    have hnone : ∀ e ∈ es, t.entries.lookup e.1 = none :=
      Classical.not_not.mp fun hnot => hany (hfresh.mpr hnot)
    exact ⟨fun hu => ⟨horigin, hnone, (Option.some.inj hu).symm⟩, fun ⟨_, _, hu⟩ => by rw [hu]⟩

theorem keepsOrigin_grow : KeepsOrigin (grow es) := by
  intro t u h
  obtain ⟨-, -, rfl⟩ := grow_eq_some_iff.mp h
  rfl

/-- Entries may be put one after the other. -/
theorem grow_append {more : List (String × Node)} (hnames : ∀ e ∈ es, ∀ f ∈ more, e.1 ≠ f.1)
    (h : grow (es ++ more) t = some u) : (grow es t).bind (grow more) = some u := by
  obtain ⟨horigin, hfresh, rfl⟩ := grow_eq_some_iff.mp h
  have hfirst : grow es t = some ⟨t.origin, t.entries ++ es⟩ :=
    grow_eq_some_iff.mpr ⟨horigin, fun e he => hfresh e (List.mem_append_left more he), rfl⟩
  rw [hfirst]
  refine grow_eq_some_iff.mpr ⟨horigin, fun f hf => ?_, by simp⟩
  have hbefore := hfresh f (List.mem_append_right es hf)
  simp only [List.lookup_eq_none_iff, List.mem_append] at hbefore ⊢
  rintro e (he | he)
  · exact hbefore e he
  · simpa using Ne.symm (hnames e he f hf)

/-- A value under a new key is one more entry. -/
theorem add_of_grow {value : Data} (h : grow [(key, .value value)] t = some u) :
    add [] key value t = some u := by
  obtain ⟨horigin, hfresh, rfl⟩ := grow_eq_some_iff.mp h
  have hnone : t.entries.lookup key = none := hfresh _ List.mem_cons_self
  simp [add, descend, horigin, hnone, put_of_lookup hnone]

/-- A table under a new key is opened and filled. -/
theorem openTable_of_grow (h : grow [(key, .table .header es)] t = some u) :
    (openTable [] key t).bind (descend .passage (grow es) [key]) = some u := by
  obtain ⟨horigin, hfresh, rfl⟩ := grow_eq_some_iff.mp h
  have hnone : t.entries.lookup key = none := hfresh _ List.mem_cons_self
  have hopen : openTable [] key t = some (t.put key (.table .header [])) := by
    simp [openTable, descend, hnone]
  have hfill : grow es ⟨.header, []⟩ = some ⟨.header, es⟩ :=
    grow_eq_some_iff.mpr ⟨by simp, by simp, rfl⟩
  rw [hopen, ← put_of_lookup hnone]
  simp [descend, hfill]

theorem keepsOrigin_openTable : KeepsOrigin (openTable [] key) := by
  intro t u h
  simp only [openTable, descend] at h
  split at h
  · obtain rfl := Option.some.inj h
    exact put_origin
  · obtain rfl := Option.some.inj h
    exact put_origin
  · simp at h

/-- Opens one table after the other in a list, and fills each. -/
def fillItems (key : String) : List (List (String × Node)) → Table → Option Table
  | [], t => some t
  | es :: items, t =>
    ((openItem [] key t).bind (descend .passage (grow es) [key])).bind (fillItems key items)

/-- A table that has been opened in a list is filled. -/
private theorem fill_openItem {done : List (List (String × Node))}
    (h : openItem [] key t = some (t.put key (.tables ([] :: done)))) :
    (openItem [] key t).bind (descend .passage (grow es) [key]) =
      some (t.put key (.tables (es :: done))) := by
  have hfill : grow es ⟨.header, []⟩ = some ⟨.header, es⟩ :=
    grow_eq_some_iff.mpr ⟨by simp, by simp, rfl⟩
  rw [h]
  simp [descend, hfill]

/-- To a list of tables under a key, more tables are added. -/
private theorem fillItems_put (items : List (List (String × Node))) :
    ∀ done, fillItems key items (t.put key (.tables done)) =
      some (t.put key (.tables (items.reverse ++ done))) := by
  induction items with
  | nil => exact fun _ => rfl
  | cons es items ih =>
      intro done
      have hopen : openItem [] key (t.put key (.tables done)) =
          some ((t.put key (.tables done)).put key (.tables ([] :: done))) := by
        simp [openItem, descend]
      rw [fillItems, fill_openItem hopen, Option.bind_some, put_put, ih]
      simp

/-- A list of tables under a new key is filled table by table. -/
theorem fillItems_of_grow {items : List (List (String × Node))} (hne : items ≠ [])
    (h : grow [(key, .tables items.reverse)] t = some u) : fillItems key items t = some u := by
  obtain ⟨es, items, rfl⟩ := List.exists_cons_of_ne_nil hne
  obtain ⟨-, hfresh, rfl⟩ := grow_eq_some_iff.mp h
  have hnone : t.entries.lookup key = none := hfresh _ List.mem_cons_self
  have hopen : openItem [] key t = some (t.put key (.tables ([] :: []))) := by
    simp [openItem, descend, hnone]
  rw [fillItems, fill_openItem hopen, Option.bind_some, fillItems_put, ← put_of_lookup hnone]
  simp

theorem keepsOrigin_openItem : KeepsOrigin (openItem [] key) := by
  intro t u h
  simp only [openItem, descend] at h
  split at h
  · obtain rfl := Option.some.inj h
    exact put_origin
  · obtain rfl := Option.some.inj h
    exact put_origin
  · simp at h

end Table

end TeamDigest.Toml
