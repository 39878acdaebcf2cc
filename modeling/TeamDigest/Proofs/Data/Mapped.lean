import TeamDigest.Data.Decode

/-!
# Decoders that make something of their values

To read a value and to make something of it may be put together to one decoder,
`Decode.mapped`.  Each kind of field goes along with that: to read a field with such a decoder
is to read it with the old one, and to make the same of what is found (`Fields.required_mapped`
and its kin).  So does a whole structure (`Decode.structure_map`).
-/

namespace TeamDigest

variable {α β : Type}

/-- The decoder that makes something of each value. -/
def Decode.mapped (f : α → β) (decode : Decode α) : Decode β := fun d => (decode d).map f

section Mapped

variable (name : String) (f : α → β) (decode : Decode α)

theorem Decode.nullable_mapped :
    Decode.nullable (Decode.mapped f decode) =
      Decode.mapped (Option.map f) (Decode.nullable decode) := by
  funext d
  cases d with
  | null => rfl
  | _ => simp [Decode.nullable, Decode.mapped, Function.comp_def]

theorem Decode.structure_map (fields : Fields α) :
    Decode.structure (f <$> fields) = Decode.mapped f (Decode.structure fields) := by
  have happly : ∀ source, (f <$> fields) source =
      (fields source).map fun found => (f found.1, found.2) := by
    intro source
    change (fields source >>= fun found => some (f found.1, found.2)) = _
    cases fields source with
    | none => rfl
    | some found => rfl
  funext d
  unfold Decode.mapped
  cases d with
  | record entries =>
      simp only [Decode.structure, happly, Option.map_map]
      rfl
  | list items =>
      simp only [Decode.structure, happly]
      rcases fields (.placed items) with _ | ⟨a, _ | ⟨_ | ⟨d, rest⟩⟩⟩
      · rfl
      · rfl
      · rfl
      · rfl
  | _ => rfl

theorem liftM_mapped (d : Data) :
    (liftM (Decode.mapped f decode d) : Fields β) = f <$> (liftM (decode d) : Fields α) := by
  unfold Decode.mapped
  cases decode d with
  | none => rfl
  | some a => rfl

theorem Fields.required_mapped :
    Fields.required name (Decode.mapped f decode) = f <$> Fields.required name decode := by
  unfold Fields.required
  rw [map_bind]
  refine bind_congr fun found => ?_
  cases found with
  | none => rfl
  | some d => exact liftM_mapped f decode d

theorem Fields.optional_mapped :
    Fields.optional name (Decode.mapped f decode) =
      Option.map f <$> Fields.optional name decode := by
  unfold Fields.optional
  simp only [map_bind]
  refine bind_congr fun found => bind_congr fun source => ?_
  cases found with
  | none =>
    cases source with
    | named fields => rfl
    | placed items => rfl
  | some d =>
      rw [Decode.nullable_mapped]
      exact liftM_mapped _ _ d

theorem Fields.omittable_mapped :
    Fields.omittable name (Decode.mapped f decode) =
      Option.map f <$> Fields.omittable name decode := by
  unfold Fields.omittable Fields.defaulted
  rw [map_bind, Decode.nullable_mapped]
  refine bind_congr fun found => ?_
  cases found with
  | none => rfl
  | some d => exact liftM_mapped _ _ d

end Mapped

end TeamDigest
