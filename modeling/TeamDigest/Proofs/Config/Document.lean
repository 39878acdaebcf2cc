import TeamDigest.Proofs.Config.Written
import TeamDigest.Proofs.Toml.Kept

/-!
# Configurations as documents

Without what is not set, a configuration is a tree that TOML keeps (`Config.kept_toml`): its
own settings are lines, and under them stand the tables of the services that it uses, of its
people and of its projects, and below a project those of its links.

## Strategy

To leave fields out is to pick some of them (`fieldsWithoutNulls_eq`), so the names that remain
are still bare keys of which none stands twice.  What remains of a field is a line, a table or a
list of tables (`Placed`), and a record is put together field by field (`Placed.cons`).
-/

namespace TeamDigest

open Team Toml

/-! ## Records without what is not set -/

/-- Holds of all but null. -/
def Data.isSet : Data → Bool
  | .null => false
  | _ => true

theorem fieldsWithoutNulls_eq (fs : List (String × Data)) :
    Data.fieldsWithoutNulls fs =
      (fs.filter fun f => f.2.isSet).map fun f => (f.1, f.2.withoutNulls) := by
  induction fs with
  | nil => rfl
  | cons f fs ih =>
      obtain ⟨name, d⟩ := f
      cases d <;> simp [Data.fieldsWithoutNulls, Data.isSet, ih]

/-- Unless it is left out, the value stands in a document below which tables are nested at most
`depth` deep. -/
def Placed (depth : Nat) (d : Data) : Prop := d.isSet = true → Layered depth d.withoutNulls

variable {depth : Nat} {fs : List (String × Data)}

/-- A record of such values is a table, if some of them is always a line. -/
theorem tabular_withoutNulls (hkeys : (fs.map Prod.fst).all isBareKey = true)
    (hnames : (fs.map Prod.fst).Nodup)
    (hplain : ∃ f ∈ fs, f.2.isSet = true ∧ isSection f.2.withoutNulls = false)
    (h : ∀ f ∈ fs, Placed depth f.2) : Tabular depth (Data.record fs).withoutNulls := by
  refine ⟨Data.fieldsWithoutNulls fs, rfl, ?_⟩
  rw [fieldsWithoutNulls_eq]
  refine ⟨⟨?_, ?_, ?_⟩, ?_⟩
  · intro g hg
    obtain ⟨f, hf, rfl⟩ := List.mem_map.mp hg
    exact List.all_eq_true.mp hkeys f.1 (List.mem_map_of_mem (List.mem_filter.mp hf).1)
  · rw [List.map_map]
    exact (List.filter_sublist.map Prod.fst).nodup hnames
  · obtain ⟨f, hf, hset, hline⟩ := hplain
    exact ⟨_, List.mem_map_of_mem (List.mem_filter.mpr ⟨hf, hset⟩), hline⟩
  · intro g hg
    obtain ⟨f, hf, rfl⟩ := List.mem_map.mp hg
    obtain ⟨hf, hset⟩ := List.mem_filter.mp hf
    exact h f hf hset

/-- A list of texts is a line. -/
theorem line_ofTexts (xs : List String) : Line (Data.ofTexts xs).withoutNulls := by
  have hsame : (Data.ofTexts xs).withoutNulls = .ofTexts xs := by
    simp [Data.ofTexts, Data.withoutNulls, Data.itemsWithoutNulls_eq_map]
  rw [hsame]
  refine .list fun d hd => ?_
  obtain ⟨s, -, rfl⟩ := List.mem_map.mp hd
  exact .text s

namespace Placed

theorem scalar {d : Data} (h : Scalar d) : Placed depth d := fun _ => by
  have hsame : d.withoutNulls = d := by cases h <;> rfl
  rw [hsame]
  exact .line (.scalar h)

theorem text (s : String) : Placed depth (.text s) := scalar (.text s)

theorem bool (b : Bool) : Placed depth (.bool b) := scalar (.bool b)

theorem integer {i : Int} (h : Number.signedLeast64 ≤ i ∧ i ≤ Number.signedGreatest64) :
    Placed depth (.integer i) := scalar (.integer h)

theorem ofNat {n : Nat} (h : n < Number.wordSize32) : Placed depth (.ofNat n) :=
  integer (signed64_of_nat32 h)

theorem ofOption {α : Type} {encode : α → Data} {o : Option α}
    (h : ∀ a ∈ o, Placed depth (encode a)) : Placed depth (.ofOption encode o) := by
  cases o with
  | none => nofun
  | some a => exact h a rfl

theorem ofText? (o : Option String) : Placed depth (.ofText? o) := by
  cases o with
  | none => nofun
  | some s => exact text s

theorem ofTexts (xs : List String) : Placed depth (.ofTexts xs) :=
  fun _ => .line (line_ofTexts xs)

theorem ofTable {d : Data} (h : Tabular depth d.withoutNulls) : Placed (depth + 1) d :=
  fun _ => .ofTabular h

theorem ofItems {α : Type} {encode : α → Data} {as : List α}
    (h : ∀ a ∈ as, Tabular depth (encode a).withoutNulls) :
    Placed (depth + 1) (.list (as.map encode)) := fun _ => by
  rw [Data.withoutNulls, Data.itemsWithoutNulls_eq_map]
  refine .ofItems fun d hd => ?_
  obtain ⟨e, he, rfl⟩ := List.mem_map.mp hd
  obtain ⟨a, ha, rfl⟩ := List.mem_map.mp he
  exact h a ha

theorem nil : ∀ f ∈ ([] : List (String × Data)), Placed depth f.2 := nofun

theorem cons {name : String} {d : Data} (h : Placed depth d)
    (hrest : ∀ f ∈ fs, Placed depth f.2) : ∀ f ∈ (name, d) :: fs, Placed depth f.2 :=
  List.forall_mem_cons.mpr ⟨h, hrest⟩

end Placed

/-! ## Records of a configuration -/

open Placed

theorem Team.User.tabular (u : User) : Tabular depth u.encode.withoutNulls :=
  tabular_withoutNulls (by simp only [List.map]; decide) (by simp)
    ⟨_, List.mem_cons_self, rfl, rfl⟩ <|
    cons (text _) <| cons (text _) <| cons (text _) <| cons (ofText? _) <|
    cons (ofText? _) <| cons (ofText? _) <| cons (bool _) nil

theorem Team.Link.tabular (l : Link) : Tabular depth l.encode.withoutNulls :=
  tabular_withoutNulls (by simp only [List.map]; decide) (by simp)
    ⟨_, List.mem_cons_self, rfl, rfl⟩ <|
    cons (text _) <| cons (text _) nil

theorem Team.Project.tabular (p : Project) (h : p.InRange) :
    Tabular (depth + 1) p.encode.withoutNulls :=
  tabular_withoutNulls (by simp only [List.map]; decide) (by simp)
    ⟨_, List.mem_cons_self, rfl, rfl⟩ <|
    cons (integer h.id) <| cons (text _) <|
    cons (ofOption fun i hi => integer (h.parentId i hi)) <|
    cons (ofItems fun l _ => l.tabular) <| cons (ofText? _) <| cons (bool _) <|
    cons (ofTexts _) nil

theorem TrackerConfig.tabular (c : TrackerConfig) : Tabular depth c.encode.withoutNulls := by
  cases c with
  | jira baseUrl email token =>
      exact tabular_withoutNulls (by simp only [List.map]; decide) (by simp)
        ⟨_, List.mem_cons_self, rfl, rfl⟩ <|
        cons (text _) <| cons (text _) <| cons (text _) <| cons (ofText? _) nil
  | linear token =>
      exact tabular_withoutNulls (by simp only [List.map]; decide) (by simp)
        ⟨_, List.mem_cons_self, rfl, rfl⟩ <|
        cons (text _) <| cons (ofText? _) nil

theorem IncidentConfig.tabular (c : IncidentConfig) : Tabular depth c.encode.withoutNulls :=
  tabular_withoutNulls (by simp only [List.map]; decide) (by simp)
    ⟨_, List.mem_cons_of_mem _ List.mem_cons_self, rfl, isSection_of_line (line_ofTexts _)⟩ <|
    cons (ofText? _) <| cons (ofTexts _) nil

/-- A configuration is a table of tables. -/
theorem Config.tabular (c : Config) (h : c.InRange) : Tabular 2 c.encode.withoutNulls :=
  tabular_withoutNulls (by simp only [List.map]; decide) (by simp)
    ⟨_, List.mem_cons_self, rfl, rfl⟩ <|
    cons (text _) <| cons (ofNat h.timespanDays) <| cons (bool _) <| cons (ofText? _) <|
    cons (ofText? _) <| cons (ofOption fun n hn => ofNat (h.claudeMaxTokens n hn)) <|
    cons (bool _) <| cons (ofNat h.storeLifetime) <| cons (ofText? _) <| cons (ofTexts _) <|
    cons (ofText? _) <| cons (ofTable c.tracker.tabular) <|
    cons (ofOption fun i _ => ofTable i.tabular) <| cons (ofItems fun u _ => u.tabular) <|
    cons (ofItems fun p hp => p.tabular (h.projects p hp)) nil

/-- A configuration in a file is read as it is written, up to the order of its fields. -/
theorem Config.kept_toml (c : Config) (h : c.InRange) :
    c.encode.withoutNulls.Kept Toml.write Toml.read? :=
  kept_of_tabular (c.tabular h) (by decide)

end TeamDigest
