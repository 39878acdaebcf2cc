import TeamDigest.Data.Decode
import Mathlib.Data.List.Forall2
import Mathlib.Data.Option.Basic

/-!
# The order of fields

A notation need not keep the fields of a record in their order: what it gives back is alike to
what was written in it (`Data.Alike`).  A decoder goes by the names of fields, so it makes no
difference between the two (`Blind`).

## Strategy

A structure is read with a monad whose state is what is still to be read.  Two such readers
are compared on states that show the same (`SameSource`), and the relation `Likewise`
between them is closed under the steps of the monad (`Likewise.bind`).  Each kind of field is
read likewise as soon as its decoder is blind, and so is every structure that is made of them.
-/

namespace TeamDigest

variable {α β : Type}

/-- The trees are the same up to the order of fields. -/
inductive Data.Alike : Data → Data → Prop
  | refl (d : Data) : Alike d d
  | list {ds es : List Data} (h : List.Forall₂ Alike ds es) : Alike (.list ds) (.list es)
  | record {fs gs : List (String × Data)}
      (h : ∀ name, List.Forall₂ Alike (Data.named name fs) (Data.named name gs)) :
      Alike (.record fs) (.record gs)

open Data (Alike)

/-- The decoder does not see the order of fields. -/
def Blind (decode : Decode α) : Prop := ∀ ⦃d e : Data⦄, d.Alike e → decode d = decode e

/-! ## Readers of fields -/

/-- The sources show the same fields. -/
inductive SameSource : FieldSource → FieldSource → Prop
  | named {fs gs : List (String × Data)}
      (h : ∀ name, List.Forall₂ Alike (Data.named name fs) (Data.named name gs)) :
      SameSource (.named fs) (.named gs)
  | placed {ds es : List Data} (h : List.Forall₂ Alike ds es) :
      SameSource (.placed ds) (.placed es)

/-- On sources that show the same, both readers fail, or both give values that are related
and leave sources that show the same. -/
def Likewise (related : α → β → Prop) (first : Fields α) (second : Fields β) : Prop :=
  ∀ s t, SameSource s t →
    Option.Rel (fun a b => related a.1 b.1 ∧ SameSource a.2 b.2) (first s) (second t)

namespace Likewise

variable {γ δ : Type} {related : α → β → Prop} {further : γ → δ → Prop} {first : Fields α}
  {second : Fields β} {f : α → Fields γ} {g : β → Fields δ}

theorem pure {a : α} {b : β} (h : related a b) : Likewise related (pure a) (pure b) :=
  fun _ _ hst => .some ⟨h, hst⟩

theorem failure : Likewise related (failure : Fields α) (failure : Fields β) :=
  fun _ _ _ => .none

theorem bind (h : Likewise related first second)
    (hnext : ∀ a b, related a b → Likewise further (f a) (g b)) :
    Likewise further (first >>= f) (second >>= g) := by
  intro s t hst
  have hfirst := h s t hst
  change Option.Rel _ ((first s).bind fun p => f p.1 p.2) ((second t).bind fun p => g p.1 p.2)
  generalize first s = x at hfirst ⊢
  generalize second t = y at hfirst ⊢
  cases hfirst with
  | none => exact .none
  | some hab => exact hnext _ _ hab.1 _ _ hab.2

/-- Readers that give the same value go on alike. -/
theorem next {p q : Fields α} {f g : α → Fields γ} (h : Likewise Eq p q)
    (hnext : ∀ a, Likewise Eq (f a) (g a)) : Likewise Eq (p >>= f) (q >>= g) :=
  h.bind fun a _ hab => hab ▸ hnext a

/-- What a blind decoder makes of alike data is the same. -/
theorem decoded {decode : Decode α} (hdecode : Blind decode) {d e : Data} (h : d.Alike e) :
    Likewise Eq (liftM (decode d) : Fields α) (liftM (decode e)) := by
  rw [hdecode h]
  intro s t hst
  cases decode e with
  | none => exact .none
  | some a => exact .some ⟨rfl, hst⟩

theorem take (name : String) :
    Likewise (Option.Rel Alike) (Fields.take name) (Fields.take name) := by
  intro s t hst
  cases hst with
  | @named fs gs h =>
      have hname := h name
      unfold Fields.take
      dsimp only
      generalize Data.named name fs = ds at hname ⊢
      generalize Data.named name gs = es at hname ⊢
      cases hname with
      | nil => exact .some ⟨.none, .named h⟩
      | cons hd hrest =>
          cases hrest with
          | nil => exact .some ⟨.some hd, .named h⟩
          | cons => exact .none
  | placed h =>
      cases h with
      | nil => exact .some ⟨.none, .placed .nil⟩
      | cons hd hrest => exact .some ⟨.some hd, .placed hrest⟩

section Fields

variable {decode : Decode α}

theorem required (name : String) (hdecode : Blind decode) :
    Likewise Eq (Fields.required name decode) (Fields.required name decode) := by
  refine (take name).bind fun d e hde => ?_
  cases hde with
  | none => exact failure
  | some hde => exact decoded hdecode hde

theorem defaulted (name : String) (hdecode : Blind decode) (otherwise : α) :
    Likewise Eq (Fields.defaulted name decode otherwise)
      (Fields.defaulted name decode otherwise) := by
  refine (take name).bind fun d e hde => ?_
  cases hde with
  | none => exact pure rfl
  | some hde => exact decoded hdecode hde

end Fields

end Likewise

/-! ## Decoders -/

namespace Blind

variable {decode : Decode α}

theorem text : Blind Decode.text := by
  intro d e h
  cases h <;> rfl

theorem bool : Blind Decode.bool := by
  intro d e h
  cases h <;> rfl

theorem integerIn (low high : Int) : Blind (Decode.integerIn low high) := by
  intro d e h
  cases h <;> rfl

theorem nat32 : Blind Decode.nat32 := by
  intro d e h
  exact congrArg (Option.map Int.toNat) (integerIn _ _ h)

theorem nullable (hdecode : Blind decode) : Blind (Decode.nullable decode) := by
  intro d e h
  cases h with
  | refl => rfl
  | list h => exact congrArg (Option.map some) (hdecode (.list h))
  | record h => exact congrArg (Option.map some) (hdecode (.record h))

theorem list (hdecode : Blind decode) : Blind (Decode.list decode) := by
  intro d e h
  cases h with
  | refl => rfl
  | record h => rfl
  | list h =>
      unfold Decode.list
      dsimp only
      induction h with
      | nil => rfl
      | cons hd _ ih => simp only [List.mapM_cons, hdecode hd, ih]

/-- A structure is read in the same way, however its fields are ordered. -/
theorem ofStructure {fields : Fields α} (hfields : Likewise Eq fields fields) :
    Blind (Decode.structure fields) := by
  intro d e h
  cases h with
  | refl => rfl
  | @record fs gs h =>
      have hsame := hfields _ _ (.named h)
      unfold Decode.structure
      dsimp only
      generalize fields (.named fs) = x at hsame ⊢
      generalize fields (.named gs) = y at hsame ⊢
      cases hsame with
      | none => rfl
      | some hab => exact congrArg some hab.1
  | @list ds es h =>
      have hsame := hfields _ _ (.placed h)
      unfold Decode.structure
      dsimp only
      generalize fields (.placed ds) = x at hsame ⊢
      generalize fields (.placed es) = y at hsame ⊢
      cases hsame with
      | none => rfl
      | @some a b hab =>
          obtain ⟨a, rest⟩ := a
          obtain ⟨b, rest'⟩ := b
          obtain ⟨rfl, hrest⟩ := hab
          cases hrest with
          | named => rfl
          | placed h =>
              cases h with
              | nil => rfl
              | cons => rfl

end Blind

/-! ## Trees that notations keep -/

/-- The numbers of the tree are integers of 64 bits, and all its scalars denote values. -/
inductive Data.Whole : Data → Prop
  | null : Whole .null
  | bool (b : Bool) : Whole (.bool b)
  | integer {i : Int} (h : Number.signedLeast64 ≤ i ∧ i ≤ Number.signedGreatest64) :
      Whole (.integer i)
  | text (s : String) : Whole (.text s)
  | list {ds : List Data} (h : ∀ d ∈ ds, Whole d) : Whole (.list ds)
  | record {fs : List (String × Data)} (h : ∀ f ∈ fs, Whole f.2) : Whole (.record fs)

/-- A natural number of 32 bits is an integer of 64 bits. -/
theorem signed64_of_nat32 {n : Nat} (h : n < Number.wordSize32) :
    Number.signedLeast64 ≤ (n : Int) ∧ (n : Int) ≤ Number.signedGreatest64 := by
  have hsize : n < 4294967296 := h
  constructor
  · rw [Number.signedLeast64]
    omega
  · rw [Number.signedGreatest64]
    omega

namespace Data.Whole

theorem ofNat {n : Nat} (h : n < Number.wordSize32) : Whole (ofNat n) :=
  .integer (signed64_of_nat32 h)

theorem ofOption {α : Type} {encode : α → Data} {o : Option α} (h : ∀ a ∈ o, Whole (encode a)) :
    Whole (ofOption encode o) := by
  cases o with
  | none => exact .null
  | some a => exact h a rfl

theorem ofText? (o : Option String) : Whole (ofText? o) := by
  cases o with
  | none => exact .null
  | some s => exact .text s

theorem ofItems {α : Type} {encode : α → Data} {as : List α} (h : ∀ a ∈ as, Whole (encode a)) :
    Whole (.list (as.map encode)) :=
  .list fun _ hd => by
    obtain ⟨a, ha, rfl⟩ := List.mem_map.mp hd
    exact h a ha

theorem ofTexts (xs : List String) : Whole (ofTexts xs) := ofItems fun s _ => .text s

theorem nil : ∀ f ∈ ([] : List (String × Data)), Whole f.2 := nofun

theorem cons {name : String} {d : Data} {fs : List (String × Data)} (h : Whole d)
    (hrest : ∀ f ∈ fs, Whole f.2) : ∀ f ∈ (name, d) :: fs, Whole f.2 :=
  List.forall_mem_cons.mpr ⟨h, hrest⟩

end Data.Whole

/-- What is written of the tree is read as that tree, up to the order of fields. -/
def Data.Kept (write : Data → String) (read? : String → Option Data) (d : Data) : Prop :=
  ∃ e, read? (write d) = some e ∧ d.Alike e

end TeamDigest
