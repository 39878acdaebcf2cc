import TeamDigest.Config
import TeamDigest.Proofs.Data.Order

/-!
# Configurations that have been written

A configuration is written as a tree with null for every setting that is not set, and in a
file these fields are left out.  Either way it is read again as what it was
(`decode_shown`), as long as its numbers have the sizes of their fields (`Config.InRange`).
The decoder does not see the order of fields (`Blind.config`), so the same holds of a tree
that a notation gives back in another order.

## Strategy

`Data.shown` stands for both forms of a tree, and a record of either form shows a field under
its name exactly if it is not one that is left out (`named_shownFields`).  From there on each
kind of field has one lemma, and each record of a configuration is read field by field.
-/

namespace TeamDigest

open Team Data

/-! ## The order of fields in a configuration -/

namespace Blind

open Likewise

theorem user : Blind User.decode :=
  ofStructure <| (required _ text).next fun _ => (required _ text).next fun _ =>
    (required _ text).next fun _ => (defaulted _ (nullable text) _).next fun _ =>
    (defaulted _ (nullable text) _).next fun _ => (defaulted _ (nullable text) _).next fun _ =>
    (defaulted _ bool _).next fun _ => .pure rfl

theorem link : Blind Link.decode :=
  ofStructure <| (required _ text).next fun _ => (required _ text).next fun _ => .pure rfl

theorem project : Blind Project.decode :=
  ofStructure <| (required _ (integerIn _ _)).next fun _ => (required _ text).next fun _ =>
    (defaulted _ (nullable (integerIn _ _)) _).next fun _ =>
    (defaulted _ (list link) _).next fun _ =>
    (defaulted _ (nullable text) _).next fun _ => (defaulted _ bool _).next fun _ =>
    (defaulted _ (list text) _).next fun _ => .pure rfl

theorem incidents : Blind IncidentConfig.decode :=
  ofStructure <| (defaulted _ (nullable text) _).next fun _ =>
    (defaulted _ (list text) _).next fun _ => .pure rfl

theorem trackerNamed (name : String) : Blind (TrackerConfig.decodeNamed name) := by
  unfold TrackerConfig.decodeNamed
  split
  · exact ofStructure <| (required _ text).next fun _ => (required _ text).next fun _ =>
      (defaulted _ (nullable text) _).next fun _ => .pure rfl
  · exact ofStructure <| (defaulted _ (nullable text) _).next fun _ => .pure rfl
  · exact fun _ _ _ => rfl

/-- Without the fields of one name, two records still show the same. -/
private theorem named_filter (name other : String) (fs : List (String × Data)) :
    named name (fs.filter fun f => f.1 != other) = if name = other then [] else named name fs := by
  simp only [named, List.filter_filter]
  split
  · next h =>
    subst h
    simp
  · next h =>
    congr 1
    refine List.filter_congr fun f _ => ?_
    by_cases hf : f.1 = name <;> simp [hf, h]

theorem tracker : Blind TrackerConfig.decode := by
  intro d e h
  cases h with
  | refl => rfl
  | list h =>
      cases h with
      | nil => rfl
      | @cons a b ds es hd hrest =>
          cases a with
          | text name =>
              cases hd
              exact trackerNamed name (.list hrest)
          | _ => cases hd <;> rfl
  | @record fs gs h =>
      have hbackend := h "backend"
      unfold TrackerConfig.decode
      dsimp only
      generalize named "backend" fs = ds at hbackend ⊢
      generalize named "backend" gs = es at hbackend ⊢
      cases hbackend with
      | nil => rfl
      | @cons a b ds es hd hrest =>
          cases hrest with
          | cons => cases a <;> cases b <;> rfl
          | nil =>
              cases a with
              | text name =>
                  cases hd
                  refine trackerNamed name (.record fun other => ?_)
                  rw [named_filter, named_filter]
                  split
                  · exact .nil
                  · exact h other
              | _ => cases hd <;> rfl

theorem config : Blind Config.decode :=
  ofStructure <| (defaulted _ text _).next fun _ => (defaulted _ nat32 _).next fun _ =>
    (defaulted _ bool _).next fun _ => (defaulted _ (nullable text) _).next fun _ =>
    (defaulted _ (nullable text) _).next fun _ => (defaulted _ (nullable nat32) _).next fun _ =>
    (defaulted _ bool _).next fun _ => (defaulted _ nat32 _).next fun _ =>
    (defaulted _ (nullable text) _).next fun _ => (defaulted _ (list text) _).next fun _ =>
    (defaulted _ (nullable text) _).next fun _ => (required _ tracker).next fun _ =>
    (defaulted _ (nullable incidents) _).next fun _ => (defaulted _ (list user) _).next fun _ =>
    (defaulted _ (list project) _).next fun _ => .pure rfl

end Blind

/-! ## The two forms of a tree -/

namespace Data

/-- The tree as it is written: in full, or without the fields that hold null. -/
def shown (omits : Bool) (d : Data) : Data := if omits then d.withoutNulls else d

/-- The fields of a record that is written. -/
def shownFields (omits : Bool) (fs : List (String × Data)) : List (String × Data) :=
  if omits then fieldsWithoutNulls fs else fs

variable {omits : Bool}

@[simp] theorem shown_text (s : String) : shown omits (.text s) = .text s := by
  cases omits <;> rfl

@[simp] theorem shown_bool (b : Bool) : shown omits (.bool b) = .bool b := by
  cases omits <;> rfl

@[simp] theorem shown_integer (i : Int) : shown omits (.integer i) = .integer i := by
  cases omits <;> rfl

@[simp] theorem shown_record (fs : List (String × Data)) :
    shown omits (.record fs) = .record (shownFields omits fs) := by
  cases omits <;> rfl

theorem itemsWithoutNulls_eq_map (ds : List Data) :
    itemsWithoutNulls ds = ds.map withoutNulls := by
  induction ds with
  | nil => rfl
  | cons d ds ih => exact congrArg (withoutNulls d :: ·) ih

@[simp] theorem shown_list (ds : List Data) :
    shown omits (.list ds) = .list (ds.map (shown omits)) := by
  cases omits with
  | false => exact congrArg Data.list (List.map_id ds).symm
  | true => exact congrArg Data.list (itemsWithoutNulls_eq_map ds)

/-- What is written of the value of a field. -/
def shownField : Bool → Data → List Data
  | true, .null => []
  | omits, d => [shown omits d]

theorem shownField_of_ne_null {d : Data} (h : d ≠ .null) :
    shownField omits d = [shown omits d] := by
  cases omits with
  | false => rfl
  | true =>
      cases d with
      | null => exact absurd rfl h
      | _ => rfl

theorem shown_ne_null {d : Data} (h : d ≠ .null) : d.shown omits ≠ .null := by
  cases d with
  | null => exact absurd rfl h
  | _ => cases omits <;> nofun

/-- A field that is written stands under its name, unless it is left out. -/
theorem named_shownFields (name : String) (fs : List (String × Data)) :
    named name (shownFields omits fs) = (named name fs).flatMap (shownField omits) := by
  cases omits with
  | false => exact (List.flatMap_singleton' _).symm
  | true =>
      change named name (fieldsWithoutNulls fs) = _
      induction fs with
      | nil => rfl
      | cons f fs ih =>
          obtain ⟨other, d⟩ := f
          have hcons : ∀ gs : List (String × Data), ∀ e, named name ((other, e) :: gs) =
              (if other = name then [e] else []) ++ named name gs := by
            intro gs e
            by_cases h : other = name <;> simp [named, h]
          have hfields : fieldsWithoutNulls ((other, d) :: fs) =
              (shownField true d).map (other, ·) ++ fieldsWithoutNulls fs := by
            cases d <;> rfl
          have hshown : named name ((shownField true d).map (other, ·) ++ fieldsWithoutNulls fs) =
              (if other = name then shownField true d else []) ++
                named name (fieldsWithoutNulls fs) := by
            by_cases hd : d = .null
            · subst hd
              simp [shownField]
            · rw [shownField_of_ne_null hd]
              exact hcons _ _
          rw [hfields, hshown, hcons, List.flatMap_append, ih]
          by_cases h : other = name <;> simp [h]

end Data

/-! ## Readers of what is written -/

section Readers

variable {α β : Type} {decode : Decode α} {encode : α → Data} {d : Data} {a : α} {omits : Bool}

/-- The decoder gives `a` for `d` in either of its forms, and `d` is not left out. -/
structure Restores (decode : Decode α) (d : Data) (a : α) : Prop where
  present : d ≠ .null
  decoded (omits : Bool) : decode (d.shown omits) = some a

namespace Restores

theorem text (s : String) : Restores Decode.text (.text s) s :=
  ⟨nofun, fun omits => by rw [shown_text]; rfl⟩

theorem bool (b : Bool) : Restores Decode.bool (.bool b) b :=
  ⟨nofun, fun omits => by rw [shown_bool]; rfl⟩

theorem integerIn {low high i : Int} (h : low ≤ i ∧ i ≤ high) :
    Restores (Decode.integerIn low high) (.integer i) i :=
  ⟨nofun, fun omits => by rw [shown_integer]; exact if_pos h⟩

theorem nat32 {n : Nat} (h : n < Number.wordSize32) : Restores Decode.nat32 (ofNat n) n := by
  have hn : (0 : Int) ≤ n ∧ (n : Int) ≤ Number.wordSize32 - 1 := by omega
  refine ⟨nofun, fun omits => ?_⟩
  unfold Decode.nat32
  rw [ofNat, (integerIn hn).decoded omits]
  rfl

theorem nullable (h : Restores decode d a) : Restores (Decode.nullable decode) d (some a) := by
  refine ⟨h.present, fun omits => ?_⟩
  have hdecoded := h.decoded omits
  have hpresent : d.shown omits ≠ .null := shown_ne_null h.present
  unfold Decode.nullable
  split
  · next hnull => exact absurd hnull hpresent
  · exact congrArg (Option.map some) hdecoded

theorem list {as : List α} (h : ∀ a ∈ as, Restores decode (encode a) a) :
    Restores (Decode.list decode) (.list (as.map encode)) as := by
  refine ⟨nofun, fun omits => ?_⟩
  rw [shown_list]
  unfold Decode.list
  dsimp only
  induction as with
  | nil => rfl
  | cons a as ih =>
      have hhead := (h a List.mem_cons_self).decoded omits
      have htail := ih fun b hb => h b (List.mem_cons_of_mem a hb)
      simp only [List.map_cons, List.mapM_cons, hhead, htail]
      rfl

theorem texts (xs : List String) : Restores (Decode.list Decode.text) (ofTexts xs) xs :=
  list fun s _ => text s

end Restores

/-- From the fields of a record that is written, the reader gives `a`. -/
def Gives (omits : Bool) (fs : List (String × Data)) (reader : Fields α) (a : α) : Prop :=
  reader (.named (shownFields omits fs)) = some (a, .named (shownFields omits fs))

namespace Gives

variable {fs : List (String × Data)} {name : String}

theorem pure : Gives omits fs (Pure.pure a) a := rfl

theorem bind {reader : Fields α} {next : α → Fields β} {b : β} (h : Gives omits fs reader a)
    (hnext : Gives omits fs (next a) b) : Gives omits fs (reader >>= next) b := by
  change (reader (.named (shownFields omits fs))).bind (fun p => next p.1 p.2) = _
  rw [h]
  exact hnext

/-- A field that is not left out is taken. -/
private theorem take_present (hname : named name fs = [d]) (hd : d ≠ .null) :
    Gives omits fs (Fields.take name) (some (d.shown omits)) := by
  have hnamed : named name (shownFields omits fs) = [d.shown omits] := by
    rw [named_shownFields, hname, List.flatMap_singleton, shownField_of_ne_null hd]
  simp only [Gives, Fields.take, hnamed]

theorem required (h : Restores decode d a) (hname : named name fs = [d]) :
    Gives omits fs (Fields.required name decode) a := by
  refine (take_present hname h.present).bind ?_
  simp only [Gives, h.decoded omits]
  rfl

theorem defaulted {otherwise : α} (h : Restores decode d a) (hname : named name fs = [d]) :
    Gives omits fs (Fields.defaulted name decode otherwise) a := by
  refine (take_present hname h.present).bind ?_
  simp only [Gives, h.decoded omits]
  rfl

theorem omittable {o : Option α} (h : ∀ a ∈ o, Restores decode (encode a) a)
    (hname : named name fs = [ofOption encode o]) :
    Gives omits fs (Fields.omittable name decode) o := by
  cases o with
  | some a => exact defaulted (h a rfl).nullable hname
  | none =>
      have hnull : Gives omits fs (Fields.take name) (if omits then none else some .null) := by
        have hnamed : named name (shownFields omits fs) = shownField omits .null := by
          rw [named_shownFields, hname]
          exact List.flatMap_singleton _ _
        unfold Gives Fields.take
        dsimp only
        rw [hnamed]
        cases omits <;> rfl
      refine hnull.bind ?_
      cases omits <;> rfl

theorem omittableText {o : Option String} (hname : named name fs = [ofText? o]) :
    Gives omits fs (Fields.omittable name Decode.text) o := by
  have htext : ofText? o = ofOption .text o := by cases o <;> rfl
  exact omittable (fun s _ => .text s) (htext ▸ hname)

end Gives

/-- A structure is read from a record if its fields are. -/
theorem Restores.ofFields {fields : Fields α} {fs : List (String × Data)}
    (h : ∀ omits, Gives omits fs fields a) :
    Restores (Decode.structure fields) (.record fs) a := by
  refine ⟨nofun, fun omits => ?_⟩
  have hfields : fields (.named (shownFields omits fs)) = _ := h omits
  rw [shown_record]
  unfold Decode.structure
  dsimp only
  rw [hfields]
  rfl

end Readers

/-! ## Records of a configuration -/

namespace Team

/-- The numbers of the project have the size of their fields. -/
structure Project.InRange (p : Project) : Prop where
  id : Number.signedLeast64 ≤ p.id ∧ p.id ≤ Number.signedGreatest64
  parentId : ∀ i ∈ p.parentId, Number.signedLeast64 ≤ i ∧ i ≤ Number.signedGreatest64

theorem User.restores (u : User) : Restores User.decode u.encode u :=
  .ofFields fun _ =>
    (Gives.required (.text _) rfl).bind <| (Gives.required (.text _) rfl).bind <|
    (Gives.required (.text _) rfl).bind <| (Gives.omittableText rfl).bind <|
    (Gives.omittableText rfl).bind <|
    (Gives.omittableText rfl).bind <|
    (Gives.defaulted (.bool _) rfl).bind .pure

theorem Link.restores (l : Link) : Restores Link.decode l.encode l :=
  .ofFields fun _ =>
    (Gives.required (.text _) rfl).bind <| (Gives.required (.text _) rfl).bind .pure

theorem Project.restores (p : Project) (h : p.InRange) : Restores Project.decode p.encode p :=
  .ofFields fun _ =>
    (Gives.required (.integerIn h.id) rfl).bind <| (Gives.required (.text _) rfl).bind <|
    (Gives.omittable (fun i hi => .integerIn (h.parentId i hi)) rfl).bind <|
    (Gives.defaulted (.list fun l _ => l.restores) rfl).bind <|
    (Gives.omittableText rfl).bind <|
    (Gives.defaulted (.bool _) rfl).bind <| (Gives.defaulted (.texts _) rfl).bind .pure

end Team

theorem IncidentConfig.restores (c : IncidentConfig) :
    Restores IncidentConfig.decode c.encode c :=
  .ofFields fun _ =>
    (Gives.omittableText rfl).bind <| (Gives.defaulted (.texts _) rfl).bind .pure

/-- Fields are picked by their names before and after they are written. -/
private theorem filter_shownFields {omits : Bool} (p : String → Bool) (fs : List (String × Data)) :
    (shownFields omits fs).filter (fun f => p f.1) =
      shownFields omits (fs.filter fun f => p f.1) := by
  cases omits with
  | false => rfl
  | true =>
      change (fieldsWithoutNulls fs).filter (fun f => p f.1) = fieldsWithoutNulls _
      induction fs with
      | nil => rfl
      | cons f fs ih =>
          obtain ⟨name, d⟩ := f
          by_cases hp : p name <;> cases d <;> simp [fieldsWithoutNulls, hp, ih]

/-- The settings of a tracker are restored if those besides its name are. -/
private theorem TrackerConfig.restores_named {name : String} {fs : List (String × Data)}
    {c : TrackerConfig} (hfresh : named "backend" fs = [])
    (h : Restores (TrackerConfig.decodeNamed name) (.record fs) c) :
    Restores TrackerConfig.decode (.record (("backend", .text name) :: fs)) c := by
  refine ⟨nofun, fun omits => ?_⟩
  have hname : named "backend" (shownFields omits (("backend", .text name) :: fs)) =
      [.text name] := by
    have hnamed : named "backend" (("backend", .text name) :: fs) =
        .text name :: named "backend" fs := rfl
    rw [named_shownFields, hnamed, hfresh, List.flatMap_singleton]
    cases omits <;> rfl
  have hrest : (("backend", Data.text name) :: fs).filter (fun f => f.1 != "backend") = fs := by
    have hkept : ∀ f ∈ fs, (f.1 != "backend") = true := by
      intro f hf
      have hnone := List.filter_eq_nil_iff.mp (List.map_eq_nil_iff.mp hfresh) f hf
      simpa using hnone
    exact List.filter_eq_self.mpr hkept
  have hdecoded := h.decoded omits
  rw [shown_record] at hdecoded ⊢
  unfold TrackerConfig.decode
  dsimp only
  rw [hname, filter_shownFields (· != "backend"), hrest]
  exact hdecoded

theorem TrackerConfig.restores (c : TrackerConfig) : Restores TrackerConfig.decode c.encode c := by
  cases c with
  | jira baseUrl email token =>
      refine restores_named rfl (.ofFields fun _ => ?_)
      exact (Gives.required (.text _) rfl).bind <| (Gives.required (.text _) rfl).bind <|
        (Gives.omittableText rfl).bind .pure
  | linear token =>
      refine restores_named rfl (.ofFields fun _ => ?_)
      exact (Gives.omittableText rfl).bind .pure

namespace Config

/-- The numbers of the configuration have the size of their fields. -/
structure InRange (c : Config) : Prop where
  timespanDays : c.timespanDays < Number.wordSize32
  claudeMaxTokens : ∀ n ∈ c.claudeMaxTokens, n < Number.wordSize32
  storeLifetime : c.storeLifetime < Number.wordSize32
  projects : ∀ p ∈ c.projects, p.InRange

theorem restores (c : Config) (h : c.InRange) : Restores decode c.encode c :=
  .ofFields fun _ =>
    (Gives.defaulted (.text _) rfl).bind <| (Gives.defaulted (.nat32 h.timespanDays) rfl).bind <|
    (Gives.defaulted (.bool _) rfl).bind <| (Gives.omittableText rfl).bind <|
    (Gives.omittableText rfl).bind <|
    (Gives.omittable (fun n hn => .nat32 (h.claudeMaxTokens n hn)) rfl).bind <|
    (Gives.defaulted (.bool _) rfl).bind <| (Gives.defaulted (.nat32 h.storeLifetime) rfl).bind <|
    (Gives.omittableText rfl).bind <| (Gives.defaulted (.texts _) rfl).bind <|
    (Gives.omittableText rfl).bind <| (Gives.required c.tracker.restores rfl).bind <|
    (Gives.omittable (fun i _ => i.restores) rfl).bind <|
    (Gives.defaulted (.list fun u _ => u.restores) rfl).bind <|
    (Gives.defaulted (.list fun p hp => p.restores (h.projects p hp)) rfl).bind .pure

end Config

/-! ## What is written of a configuration -/

open Data.Whole

theorem Team.User.encode_whole (u : User) : u.encode.Whole :=
  .record <| cons (.text _) <| cons (.text _) <| cons (.text _) <| cons (ofText? _) <|
    cons (ofText? _) <| cons (ofText? _) <| cons (.bool _) nil

theorem Team.Link.encode_whole (l : Link) : l.encode.Whole :=
  .record <| cons (.text _) <| cons (.text _) nil

theorem Team.Project.encode_whole (p : Project) (h : p.InRange) : p.encode.Whole :=
  .record <| cons (.integer h.id) <| cons (.text _) <|
    cons (ofOption fun i hi => .integer (h.parentId i hi)) <|
    cons (ofItems fun l _ => l.encode_whole) <| cons (ofText? _) <| cons (.bool _) <|
    cons (ofTexts _) nil

theorem TrackerConfig.encode_whole (c : TrackerConfig) : c.encode.Whole := by
  cases c with
  | jira baseUrl email token =>
      exact .record <| cons (.text _) <| cons (.text _) <| cons (.text _) <| cons (ofText? _) nil
  | linear token => exact .record <| cons (.text _) <| cons (ofText? _) nil

theorem IncidentConfig.encode_whole (c : IncidentConfig) : c.encode.Whole :=
  .record <| cons (ofText? _) <| cons (ofTexts _) nil

/-- What is written of a configuration holds no numbers but integers of 64 bits. -/
theorem Config.encode_whole (c : Config) (h : c.InRange) : c.encode.Whole :=
  .record <| cons (.text _) <| cons (ofNat h.timespanDays) <| cons (.bool _) <|
    cons (ofText? _) <| cons (ofText? _) <|
    cons (ofOption fun n hn => ofNat (h.claudeMaxTokens n hn)) <| cons (.bool _) <|
    cons (ofNat h.storeLifetime) <| cons (ofText? _) <| cons (ofTexts _) <| cons (ofText? _) <|
    cons c.tracker.encode_whole <| cons (ofOption fun i _ => i.encode_whole) <|
    cons (ofItems fun u _ => u.encode_whole) <|
    cons (ofItems fun p hp => p.encode_whole (h.projects p hp)) nil

end TeamDigest
