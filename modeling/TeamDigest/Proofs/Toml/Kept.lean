import TeamDigest.Proofs.Data.Order
import TeamDigest.Proofs.Toml.Lines

/-!
# Trees that TOML keeps

What is written of a record is read again as that record, up to the order of its fields
(`Toml.kept_of_tabular`).  The record has to be one that can stand in a document: its names are
bare keys, none stands twice, and each table holds a line of its own.

## Strategy

The induction is on the layers of the tree (`Layered`).  For each section there is a node such
that the lines of the section put just this node under the key of the section
(`ReadsSection`), and for each table there are entries that its lines put into the table that
is open (`ReadsTable`).  All of it is said with `Table.grow`, so what one part of a document
does is the first step of what the document does.

A table that is open may have entries already.  The sections of a table are therefore read
after the entries `done` that stand before them.
-/

namespace TeamDigest.Toml

open Text Table

/-! ## Trees in layers -/

/-- The fields may stand in a table: each has a key of its own, and some are lines. -/
structure Tidy (fs : List (String × Data)) : Prop where
  keys : ∀ f ∈ fs, isBareKey f.1 = true
  names : (fs.map Prod.fst).Nodup
  plain : ∃ f ∈ fs, isSection f.2 = false

/-- The tree consists of lines, of tables, and of lists of tables, which are nested at most
`depth` deep. -/
inductive Layered : Nat → Data → Prop
  | line {depth : Nat} {d : Data} (h : Line d) : Layered depth d
  | table {depth : Nat} {fs : List (String × Data)} (htidy : Tidy fs)
      (h : ∀ f ∈ fs, Layered depth f.2) : Layered (depth + 1) (.record fs)
  | tables {depth : Nat} {rows : List (List (String × Data))} (hne : rows ≠ [])
      (htidy : ∀ fs ∈ rows, Tidy fs) (h : ∀ fs ∈ rows, ∀ f ∈ fs, Layered depth f.2) :
      Layered (depth + 1) (.list (rows.map .record))

theorem isSection_of_line {d : Data} (h : Line d) : isSection d = false := by
  cases h with
  | scalar h => cases h <;> rfl
  | @list ds h =>
      cases ds with
      | nil => rfl
      | cons d ds =>
          have hd : isRecord d = false := by
            cases h d List.mem_cons_self <;> rfl
          simp [isSection, hd]

theorem isSection_tables {rows : List (List (String × Data))} (hne : rows ≠ []) :
    isSection (.list (rows.map .record)) = true := by
  obtain ⟨fs, rows, rfl⟩ := List.exists_cons_of_ne_nil hne
  simp [isSection, isRecord]

/-- What gets no header is a line. -/
theorem Layered.line_of_plain {depth : Nat} {d : Data} (h : Layered depth d)
    (hplain : isSection d = false) : Line d := by
  cases h with
  | line h => exact h
  | table => simp [isSection] at hplain
  | tables hne => simp [isSection_tables hne] at hplain

/-! ## Entries and fields -/

theorem entriesData_eq_map (es : List (String × Node)) :
    entriesData es = es.map fun e => (e.1, e.2.data) := by
  induction es with
  | nil => rfl
  | cons e es ih => rw [entriesData, ih, List.map_cons]

theorem tablesData_eq_map (items : List (List (String × Node))) :
    tablesData items = items.map fun es => .record (entriesData es) := by
  induction items with
  | nil => rfl
  | cons es items ih => rw [tablesData, ih, List.map_cons]

/-- The entry holds the field. -/
def Holds (f : String × Data) (e : String × Node) : Prop := f.1 = e.1 ∧ f.2.Alike e.2.data

variable {depth : Nat} {fs gs : List (String × Data)} {es : List (String × Node)}

theorem keys_of_holds (h : List.Forall₂ Holds fs es) : es.map Prod.fst = fs.map Prod.fst := by
  induction h with
  | nil => rfl
  | cons he _ ih => rw [List.map_cons, List.map_cons, ih, he.1]

/-- Under each name the entries hold what the fields hold. -/
private theorem named_of_holds (h : List.Forall₂ Holds fs es) (name : String) :
    List.Forall₂ Data.Alike (Data.named name fs) (Data.named name (entriesData es)) := by
  rw [entriesData_eq_map]
  induction h with
  | nil => exact .nil
  | @cons f e fs es he _ ih =>
      obtain ⟨hname, halike⟩ := he
      by_cases hf : f.1 = name
      · have hcons := List.Forall₂.cons halike ih
        simpa [Data.named, ← hname, hf] using hcons
      · simpa [Data.named, ← hname, hf] using ih

/-- No more than one field has a name. -/
private theorem length_named_le (hnames : (fs.map Prod.fst).Nodup) (name : String) :
    (Data.named name fs).length ≤ 1 := by
  induction fs with
  | nil => simp [Data.named]
  | cons f fs ih =>
      obtain ⟨hfresh, hnames⟩ := List.nodup_cons.mp hnames
      by_cases hf : f.1 = name
      · have hnone : Data.named name fs = [] := by
          simp only [Data.named, List.map_eq_nil_iff, List.filter_eq_nil_iff, beq_iff_eq]
          rintro g hg rfl
          exact hfresh (List.mem_map.mpr ⟨g, hg, hf.symm⟩)
        have hcons : Data.named name (f :: fs) = f.2 :: Data.named name fs := by
          simp [Data.named, hf]
        rw [hcons, hnone]
        exact Nat.le_refl 1
      · have hcons : Data.named name (f :: fs) = Data.named name fs := by
          simp [Data.named, hf]
        rw [hcons]
        exact ih hnames

/-- Entries that hold the fields in any order make up a record that is alike. -/
theorem alike_of_holds (hnames : (fs.map Prod.fst).Nodup) (hperm : fs.Perm gs)
    (h : List.Forall₂ Holds gs es) : (Data.record fs).Alike (.record (entriesData es)) := by
  refine .record fun name => ?_
  -- Where a name has one value at most, it does not matter where the field stands.
  have hsame : Data.named name fs = Data.named name gs := by
    have hmoved : (Data.named name fs).Perm (Data.named name gs) := (hperm.filter _).map _
    have hlength := length_named_le hnames name
    generalize Data.named name fs = ds at hmoved hlength ⊢
    match ds, hlength with
    | [], _ => exact hmoved.nil_eq
    | [d], _ => exact List.singleton_perm.mp hmoved
  rw [hsame]
  exact named_of_holds h name

/-! ## Lines -/

/-- The entry of a line. -/
def lineEntry (f : String × Data) : String × Node := (f.1, .value f.2)

/-- The fields that are lines. -/
def plainFields (fs : List (String × Data)) : List (String × Data) :=
  fs.filter fun f => !isSection f.2

/-- The fields that have headers. -/
def sectionFields (fs : List (String × Data)) : List (String × Data) :=
  fs.filter fun f => isSection f.2

theorem holds_lines (fs : List (String × Data)) :
    List.Forall₂ Holds fs (fs.map lineEntry) := by
  induction fs with
  | nil => exact .nil
  | cons f fs ih => exact .cons ⟨rfl, .refl f.2⟩ ih

/-- Entries of which the keys differ may be put one after the other. -/
theorem grow_append_of_nodup {more : List (String × Node)}
    (hnames : ((es ++ more).map Prod.fst).Nodup) (t u : Table) (h : grow (es ++ more) t = some u) :
    (grow es t).bind (grow more) = some u := by
  rw [List.map_append, List.nodup_append] at hnames
  refine grow_append (fun e he f hf => ?_) h
  exact hnames.2.2 e.1 (List.mem_map_of_mem he) f.1 (List.mem_map_of_mem hf)

/-- Lines put their entries into the open table. -/
theorem reads_lines {path : List String} (hne : fs ≠ []) (hkeys : ∀ f ∈ fs, isBareKey f.1 = true)
    (hlines : ∀ f ∈ fs, Line f.2) (hnames : (fs.map Prod.fst).Nodup) {t u : Table}
    (h : descend .passage (grow (fs.map lineEntry)) path t = some u) :
    Reads (String.join (fs.map fun f => lineText f.1 f.2)).toList ⟨t, path⟩ ⟨u, path⟩ := by
  induction fs generalizing t with
  | nil => exact absurd rfl hne
  | cons f fs ih =>
      obtain ⟨hkey, hkeys⟩ := List.forall_mem_cons.mp hkeys
      obtain ⟨hline, hlines⟩ := List.forall_mem_cons.mp hlines
      have hread {t u : Table} (h : descend .passage (grow [lineEntry f]) path t = some u) :
          Reads (lineText f.1 f.2).toList ⟨t, path⟩ ⟨u, path⟩ :=
        reads_keyValue hkey hline (descend_mono (fun _ _ => add_of_grow) h)
      -- To put no entries is no change only where the table is there, so the last line is the
      -- whole change and not the first step of one.
      cases fs with
      | nil => simpa using hread h
      | cons g fs =>
          have hkeysOf : ([lineEntry f] ++ (g :: fs).map lineEntry).map Prod.fst =
              (f :: g :: fs).map Prod.fst :=
            keys_of_holds (holds_lines (f :: g :: fs))
          have hsplit := grow_append_of_nodup (hkeysOf ▸ hnames)
          obtain ⟨v, hfirst, hrest⟩ := descend_split keepsOrigin_grow hsplit h
          have htext : (String.join ((f :: g :: fs).map fun f => lineText f.1 f.2)).toList =
              (lineText f.1 f.2).toList ++
                (String.join ((g :: fs).map fun f => lineText f.1 f.2)).toList := by
            simp
          rw [htext]
          exact (hread hfirst).trans
            (ih (by simp) hkeys hlines (List.nodup_cons.mp hnames).2 hrest)

/-! ## Sections -/

/-- The section puts the node under its key, in the table at the end of a path. -/
def ReadsSection (depth : Nat) (d : Data) (node : Node) : Prop :=
  ∀ ⦃path : List String⦄ ⦃key : String⦄, (∀ k ∈ path, isBareKey k = true) →
    isBareKey key = true → path.length + depth ≤ depthLimit →
    ∀ ⦃t u : Table⦄ (before : List String),
    descend .passage (grow [(key, node)]) path t = some u →
      ∃ after, Reads (sectionText (pathText path ++ key) d).toList ⟨t, before⟩ ⟨u, after⟩

/-- The lines and sections of a table put the entries into the open table. -/
def ReadsTable (depth : Nat) (fs : List (String × Data)) (es : List (String × Node)) : Prop :=
  ∀ ⦃path : List String⦄, (∀ k ∈ path, isBareKey k = true) → path.length + depth ≤ depthLimit →
    ∀ ⦃t u : Table⦄, descend .passage (grow es) path t = some u →
      ∃ after, Reads (plainLines fs ++ sections (pathText path) fs).toList ⟨t, path⟩ ⟨u, after⟩

theorem sectionText_of_plain {d : Data} (h : isSection d = false) (path : String) :
    sectionText path d = "" := by
  cases d with
  | record => simp [isSection] at h
  | list ds =>
      cases ds with
      | nil => rfl
      | cons d ds =>
          have hall : (d :: ds).all isRecord = false := h
          rw [sectionText, hall]
          rfl
  | _ => rfl

/-- The sections of a table are read one after the other. -/
theorem reads_sections (hkeys : ∀ f ∈ fs, isBareKey f.1 = true)
    (h : ∀ f ∈ fs, isSection f.2 = true →
      ∃ node : Node, f.2.Alike node.data ∧ ReadsSection depth f.2 node) :
    ∃ es, List.Forall₂ Holds (sectionFields fs) es ∧
      ∀ ⦃path : List String⦄, (∀ k ∈ path, isBareKey k = true) →
        path.length + depth ≤ depthLimit → ∀ ⦃done⦄, ((done ++ es).map Prod.fst).Nodup →
        ∀ ⦃t v u : Table⦄ (before : List String), descend .passage (grow done) path t = some v →
          descend .passage (grow (done ++ es)) path t = some u →
          ∃ after, Reads (sections (pathText path) fs).toList ⟨v, before⟩ ⟨u, after⟩ := by
  induction fs with
  | nil =>
      refine ⟨[], .nil, fun path _ _ done _ t v u before hv hu => ⟨before, ?_⟩⟩
      rw [List.append_nil, hv] at hu
      obtain rfl := Option.some.inj hu
      exact .refl _
  | cons f fs ih =>
      obtain ⟨key, d⟩ := f
      obtain ⟨hkey, hkeys⟩ := List.forall_mem_cons.mp hkeys
      obtain ⟨hd, h⟩ := List.forall_mem_cons.mp h
      obtain ⟨es, hholds, hrest⟩ := ih hkeys h
      have hsections (path : List String) : sections (pathText path) ((key, d) :: fs) =
          sectionText (pathText path ++ key) d ++ sections (pathText path) fs := by
        rw [sections, keyText_of_isBareKey hkey]
      cases hsection : isSection d with
      | false =>
          refine ⟨es, by simpa [sectionFields, hsection] using hholds, ?_⟩
          intro path hpath hdepth done hnames t v u before hv hu
          rw [hsections, sectionText_of_plain hsection, String.empty_append]
          exact hrest hpath hdepth hnames before hv hu
      | true =>
          obtain ⟨node, halike, hnode⟩ := hd hsection
          refine ⟨(key, node) :: es, ?_, ?_⟩
          · have hfirst : Holds (key, d) (key, node) := ⟨rfl, halike⟩
            have hcons := List.Forall₂.cons hfirst hholds
            simpa [sectionFields, hsection] using hcons
          · intro path hpath hdepth done hnames t v u before hv hu
            -- This section leads to the table `w` that has `done` and the new entry, and the
            -- sections after it start from there.
            have hassoc : done ++ (key, node) :: es = (done ++ [(key, node)]) ++ es := by simp
            rw [hassoc] at hnames hu
            obtain ⟨w, hw, -⟩ :=
              descend_split keepsOrigin_grow (grow_append_of_nodup hnames) hu
            have hfewer : ((done ++ [(key, node)]).map Prod.fst).Nodup := by
              rw [List.map_append] at hnames
              exact (List.nodup_append.mp hnames).1
            obtain ⟨v', hv', hthis⟩ :=
              descend_split keepsOrigin_grow (grow_append_of_nodup hfewer) hw
            obtain rfl : v' = v := Option.some.inj (hv'.symm.trans hv)
            obtain ⟨middle, hfirst⟩ := hnode hpath hkey hdepth before hthis
            obtain ⟨after, hmore⟩ := hrest hpath hdepth hnames middle hw hu
            refine ⟨after, ?_⟩
            rw [hsections, String.toList_append]
            exact hfirst.trans hmore

/-! ## Tables -/

theorem plainLines_eq (fs : List (String × Data)) :
    plainLines fs = String.join ((plainFields fs).map fun f => lineText f.1 f.2) := rfl

theorem plainFields_ne_nil (h : Tidy fs) : plainFields fs ≠ [] := by
  obtain ⟨f, hf, hplain⟩ := h.plain
  exact List.ne_nil_of_mem (List.mem_filter.mpr ⟨hf, by simp [hplain]⟩)

theorem plainLines_ne_empty (h : Tidy fs) : plainLines fs ≠ "" := by
  obtain ⟨f, rest, hfields⟩ := List.exists_cons_of_ne_nil (plainFields_ne_nil h)
  intro hempty
  have hchars : (plainLines fs).toList = [] := by rw [hempty]; rfl
  rw [plainLines_eq, hfields] at hchars
  simp [lineText] at hchars

/-- A table whose sections are read is read. -/
theorem reads_table (htidy : Tidy fs) (hlines : ∀ f ∈ fs, isSection f.2 = false → Line f.2)
    (h : ∀ f ∈ fs, isSection f.2 = true →
      ∃ node : Node, f.2.Alike node.data ∧ ReadsSection depth f.2 node) :
    ∃ es, (Data.record fs).Alike (.record (entriesData es)) ∧ ReadsTable depth fs es := by
  obtain ⟨es, hholds, hsections⟩ := reads_sections htidy.keys h
  have hboth : List.Forall₂ Holds (plainFields fs ++ sectionFields fs)
      ((plainFields fs).map lineEntry ++ es) := List.rel_append (holds_lines _) hholds
  have hperm : fs.Perm (plainFields fs ++ sectionFields fs) :=
    ((List.filter_append_perm (fun f => isSection f.2) fs).symm).trans List.perm_append_comm
  have hnames : (((plainFields fs).map lineEntry ++ es).map Prod.fst).Nodup := by
    rw [keys_of_holds hboth]
    exact (hperm.map _).nodup_iff.mp htidy.names
  have hmem : ∀ f ∈ plainFields fs, f ∈ fs ∧ isSection f.2 = false := by
    intro f hf
    simpa [plainFields] using hf
  have hplainNames : ((plainFields fs).map Prod.fst).Nodup :=
    (List.filter_sublist.map Prod.fst).nodup htidy.names
  refine ⟨_, alike_of_holds htidy.names hperm hboth, ?_⟩
  intro path hpath hdepth t u hu
  obtain ⟨v, hv, -⟩ := descend_split keepsOrigin_grow (grow_append_of_nodup hnames) hu
  obtain ⟨after, hrest⟩ := hsections hpath hdepth hnames path hv hu
  have hfirst : Reads (plainLines fs).toList ⟨t, path⟩ ⟨v, path⟩ :=
    reads_lines (plainFields_ne_nil htidy) (fun f hf => htidy.keys f (hmem f hf).1)
      (fun f hf => hlines f (hmem f hf).1 (hmem f hf).2) hplainNames hv
  refine ⟨after, ?_⟩
  rw [String.toList_append]
  exact hfirst.trans hrest

/-- Below its header a table is read, as an item of a list or not. -/
private theorem reads_below (h : ReadsTable depth fs es) {path : List String} {key : String}
    (hpath : ∀ k ∈ path, isBareKey k = true) (hkey : isBareKey key = true)
    (hdepth : path.length + (depth + 1) ≤ depthLimit) {header : String} {t v u : Table}
    {before : List String} (hheader : Reads header.toList ⟨t, before⟩ ⟨v, path ++ [key]⟩)
    (hfill : descend .passage (descend .passage (grow es) [key]) path v = some u) :
    ∃ after, Reads ("\n" ++ header ++ plainLines fs ++
      sections (pathText path ++ key ++ ".") fs).toList ⟨t, before⟩ ⟨u, after⟩ := by
  have hbelow : descend .passage (grow es) (path ++ [key]) v = some u := by
    rw [descend_append]
    exact hfill
  have hkeys : ∀ k ∈ path ++ [key], isBareKey k = true := by
    simpa [or_imp, forall_and] using ⟨hpath, hkey⟩
  obtain ⟨after, hread⟩ := h hkeys (by simp; omega) hbelow
  refine ⟨after, ?_⟩
  rw [← pathText_concat, String.append_assoc, String.toList_append, String.toList_append]
  exact ((reads_blank _).trans hheader).trans hread

/-- A header opens the table that follows it. -/
theorem readsSection_table (htidy : Tidy fs) (h : ReadsTable depth fs es) :
    ReadsSection (depth + 1) (.record fs) (.table .header es) := by
  intro path key hpath hkey hdepth t u before hu
  obtain ⟨v, hopen, hfill⟩ :=
    descend_split keepsOrigin_openTable (fun _ _ => openTable_of_grow) hu
  have hheader := reads_header hpath hkey (by omega) hopen before
  have htext : sectionText (pathText path ++ key) (.record fs) =
      "\n" ++ ("[" ++ (pathText path ++ key) ++ "]\n") ++ plainLines fs ++
        sections (pathText path ++ key ++ ".") fs := by
    have hlines : (plainLines fs = "") = False := eq_false (plainLines_ne_empty htidy)
    have hmark : "\n" ++ ("[" ++ (pathText path ++ key) ++ "]\n") =
        "\n[" ++ (pathText path ++ key) ++ "]\n" := by
      rw [← String.append_assoc, ← String.append_assoc]
      rfl
    rw [hmark]
    simp [sectionText, hlines]
  rw [htext]
  exact reads_below h hpath hkey hdepth hheader hfill

/-! ## Lists of tables -/

variable {rows : List (List (String × Data))} {items : List (List (String × Node))}

theorem itemTexts_cons (path : String) (ds : List Data) :
    itemTexts path (.record fs :: ds) =
      "\n" ++ ("[[" ++ path ++ "]]\n") ++ plainLines fs ++ sections (path ++ ".") fs ++
        itemTexts path ds := by
  have hmark : "\n" ++ ("[[" ++ path ++ "]]\n") = "\n[[" ++ path ++ "]]\n" := by
    rw [← String.append_assoc, ← String.append_assoc]
    rfl
  rw [itemTexts, hmark]

/-- The items of a list of tables are read one after the other. -/
theorem reads_items (h : List.Forall₂ (ReadsTable depth) rows items) (hne : rows ≠ [])
    {path : List String} {key : String} (hpath : ∀ k ∈ path, isBareKey k = true)
    (hkey : isBareKey key = true) (hdepth : path.length + (depth + 1) ≤ depthLimit) {t u : Table}
    (before : List String) (hu : descend .passage (fillItems key items) path t = some u) :
    ∃ after, Reads (itemTexts (pathText path ++ key) (rows.map .record)).toList
      ⟨t, before⟩ ⟨u, after⟩ := by
  induction h generalizing t before with
  | nil => exact absurd rfl hne
  | @cons fs es rows items hrow hrest ih =>
      have hfirst : ∀ t u, fillItems key (es :: items) t = some u →
          (openItem [] key t).bind (fun t =>
            (descend .passage (grow es) [key] t).bind (fillItems key items)) = some u := by
        intro t u hu
        rw [fillItems, Option.bind_assoc] at hu
        exact hu
      obtain ⟨v, hopen, hafter⟩ := descend_split keepsOrigin_openItem hfirst hu
      obtain ⟨w, hfill, hmore⟩ :=
        descend_split (keepsOrigin_grow.descend [key]) (fun _ _ => id) hafter
      have hheader := reads_itemHeader hpath hkey (by omega) hopen before
      obtain ⟨middle, hitem⟩ := reads_below hrow hpath hkey hdepth hheader hfill
      rw [List.map_cons, itemTexts_cons, String.toList_append]
      cases hrest with
      | nil =>
          have hwhole : descend .passage (descend .passage (grow es) [key]) path v = some u :=
            descend_mono (fun t u hu => by simpa [fillItems] using hu) hafter
          obtain rfl : w = u := Option.some.inj (hfill.symm.trans hwhole)
          exact ⟨middle, hitem.trans (.refl _)⟩
      | cons hrow hrest =>
          obtain ⟨after, hlater⟩ := ih (by simp) middle hmore
          exact ⟨after, hitem.trans hlater⟩

/-- The headers of a list open its tables. -/
theorem readsSection_tables (hne : rows ≠ []) (h : List.Forall₂ (ReadsTable depth) rows items) :
    ReadsSection (depth + 1) (.list (rows.map .record)) (.tables items.reverse) := by
  intro path key hpath hkey hdepth t u before hu
  have hitems : items ≠ [] := by
    rintro rfl
    exact hne (List.forall₂_nil_right_iff.mp h)
  have hfilled : descend .passage (fillItems key items) path t = some u :=
    descend_mono (fun _ _ => fillItems_of_grow hitems) hu
  have htext : sectionText (pathText path ++ key) (.list (rows.map .record)) =
      itemTexts (pathText path ++ key) (rows.map .record) := by
    have hsection := isSection_tables hne
    obtain ⟨fs, rows, rfl⟩ := List.exists_cons_of_ne_nil hne
    rw [List.map_cons] at hsection ⊢
    rw [sectionText]
    exact if_pos hsection
  rw [htext]
  exact reads_items h hne hpath hkey hdepth before hfilled

/-! ## Documents -/

/-- Each section of a tree is read as a node that holds it. -/
theorem Layered.reads {d : Data} (h : Layered depth d) (hsection : isSection d = true) :
    ∃ node : Node, d.Alike node.data ∧ ReadsSection depth d node := by
  induction h with
  | line h => simp [isSection_of_line h] at hsection
  | table htidy h ih =>
      obtain ⟨es, halike, hreads⟩ := reads_table htidy (fun f hf => (h f hf).line_of_plain) ih
      exact ⟨.table .header es, halike, readsSection_table htidy hreads⟩
  | @tables depth rows hne htidy h ih =>
      have hrows : ∃ items, List.Forall₂ (fun fs es =>
          (Data.record fs).Alike (.record (entriesData es)) ∧ ReadsTable depth fs es)
          rows items := by
        clear hne hsection
        induction rows with
        | nil => exact ⟨[], .nil⟩
        | cons fs rows ihrows =>
            obtain ⟨htidyHere, htidy⟩ := List.forall_mem_cons.mp htidy
            obtain ⟨hhere, h⟩ := List.forall_mem_cons.mp h
            obtain ⟨ihhere, ih⟩ := List.forall_mem_cons.mp ih
            obtain ⟨items, hitems⟩ := ihrows htidy h ih
            obtain ⟨es, hes⟩ :=
              reads_table htidyHere (fun f hf => (hhere f hf).line_of_plain) ihhere
            exact ⟨es :: items, .cons hes hitems⟩
      obtain ⟨items, hitems⟩ := hrows
      refine ⟨.tables items.reverse, ?_, readsSection_tables hne (hitems.imp fun _ _ h => h.2)⟩
      have hdata : (Node.tables items.reverse).data =
          .list (items.map fun es => .record (entriesData es)) := by
        rw [Node.data, tablesData_eq_map, List.map_reverse, List.reverse_reverse]
      rw [hdata]
      refine .list ?_
      rw [List.forall₂_map_left_iff, List.forall₂_map_right_iff]
      exact hitems.imp fun _ _ h => h.1

/-- The tree is a table below which tables are nested at most `depth` deep. -/
def Tabular (depth : Nat) (d : Data) : Prop :=
  ∃ fs, d = .record fs ∧ Tidy fs ∧ ∀ f ∈ fs, Layered depth f.2

theorem Layered.ofTabular {d : Data} (h : Tabular depth d) : Layered (depth + 1) d := by
  obtain ⟨fs, rfl, htidy, hlayered⟩ := h
  exact .table htidy hlayered

/-- A list of tables may be empty; then it stands in a line. -/
theorem Layered.ofItems {ds : List Data} (h : ∀ d ∈ ds, Tabular depth d) :
    Layered (depth + 1) (.list ds) := by
  have hrows : ∃ rows : List (List (String × Data)), ds = rows.map .record ∧
      (∀ fs ∈ rows, Tidy fs) ∧ ∀ fs ∈ rows, ∀ f ∈ fs, Layered depth f.2 := by
    induction ds with
    | nil => exact ⟨[], rfl, nofun, nofun⟩
    | cons d ds ih =>
        obtain ⟨⟨fs, rfl, htidy, hlayered⟩, hrest⟩ := List.forall_mem_cons.mp h
        obtain ⟨rows, rfl, htidies, hlayers⟩ := ih hrest
        exact ⟨fs :: rows, rfl, List.forall_mem_cons.mpr ⟨htidy, htidies⟩,
          List.forall_mem_cons.mpr ⟨hlayered, hlayers⟩⟩
  obtain ⟨rows, rfl, htidies, hlayers⟩ := hrows
  by_cases hne : rows = []
  · subst hne
    exact .line (.list nofun)
  · exact .tables hne htidies hlayers

/-- A document begins with a key, not with a byte order mark. -/
private theorem lines_ne_mark (htidy : Tidy fs) (more : String) (rest : List Char) :
    (plainLines fs ++ more).toList ≠ '\uFEFF' :: rest := by
  obtain ⟨f, lines, hfields⟩ := List.exists_cons_of_ne_nil (plainFields_ne_nil htidy)
  have hf : f ∈ fs := (List.mem_filter.mp (hfields ▸ List.mem_cons_self)).1
  obtain ⟨x, xs, hkey, hx⟩ := exists_cons_of_isBareKey (htidy.keys f hf)
  intro heq
  rw [plainLines_eq, hfields] at heq
  obtain ⟨rfl, -⟩ : x = '\uFEFF' ∧ _ := by
    simpa [lineText, keyText_of_isBareKey (htidy.keys f hf), hkey] using heq
  exact hx (by decide)

/-- What is written of a table is read as that table, up to the order of its fields. -/
theorem kept_of_tabular {d : Data} (h : Tabular depth d) (hdepth : depth ≤ depthLimit) :
    d.Kept write read? := by
  obtain ⟨fs, rfl, htidy, hlayered⟩ := h
  obtain ⟨es, halike, hreads⟩ : ∃ es, (Data.record fs).Alike (.record (entriesData es)) ∧
      ReadsTable depth fs es :=
    reads_table htidy (fun f hf => (hlayered f hf).line_of_plain)
      fun f hf => (hlayered f hf).reads
  have hwrite : write (.record fs) = plainLines fs ++ sections (pathText []) fs := by
    rw [write]
    exact if_neg (plainLines_ne_empty htidy)
  have hgrow : descend .passage (grow es) [] Table.root = some ⟨.header, es⟩ :=
    grow_eq_some_iff.mpr ⟨by simp [Table.root], fun _ _ => rfl, rfl⟩
  obtain ⟨after, hread⟩ := hreads (List.forall_mem_nil _) (by simpa using hdepth) hgrow
  rw [← hwrite] at hread
  obtain ⟨left, -, hdocument⟩ := hread [] (write (.record fs)).toList.length (by simp)
  have hend : document left ⟨⟨.header, es⟩, after⟩ [] = some ⟨.header, es⟩ := by
    cases left <;> rfl
  rw [List.append_nil, hend] at hdocument
  -- Nothing is cut off at the start, for a document does not begin with a byte order mark.
  have hmark : read? (write (.record fs)) =
      (document (write (.record fs)).toList.length ⟨.root, []⟩ (write (.record fs)).toList).bind
        fun t => some t.data := by
    unfold read?
    split
    · next heq => exact absurd (hwrite ▸ heq) (lines_ne_mark htidy _ _)
    · rfl
  refine ⟨.record (entriesData es), ?_, halike⟩
  rw [hmark, hdocument]
  rfl

end TeamDigest.Toml
