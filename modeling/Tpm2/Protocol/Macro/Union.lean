import Tpm2.Protocol.Macro.Tpm2bStruct

/-! The codecs of unions whose variant a tag selects. -/

namespace Tpm2

open ByteCodec

/-- A tag as it appears in an error: `u64::from(tag.value())`. -/
def tagValue {E R : Type} {N : Nat} [DecidableEq R] [TpmEnum E R] [TpmIntBytes R N] (tag : E) :
    UInt64 := TpmIntBytes.asU64 (TpmEnum.value tag)

/-- A payload selected by a previously read tag: the check that a value is the variant the tag
selects, and the owned reader. -/
class TpmUnmarshalTagged (U : Type) (Tag : outParam Type) where
  matchesTag : U → Tag → Bool
  unmarshalTagged : Tag → Bytes → TpmResult (U × Bytes)

/-- The borrowed reader of a payload selected by a previously read tag. -/
class TpmTaggedField (U : Type) (Tag : outParam Type) where
  View : Type
  castTaggedPrefixField : Tag → Bytes → TpmResult (View × Bytes)

export TpmUnmarshalTagged (matchesTag unmarshalTagged)
export TpmTaggedField (castTaggedPrefixField)

/-- Under each tag, the traversals of a payload agree on the values that match it. -/
class LawfulTagged (U : Type) (Tag : outParam Type) [TpmSized U] [TpmMarshal U]
    [TpmUnmarshalTagged U Tag] [TpmSpec U] : Prop where
  codec_tagged : ∀ tag, LawfulCodec (marshal : U → _) (unmarshalTagged tag) len Writable
    (fun u => matchesTag u tag ∧ WellFormed u)
  len_tagged_le : ∀ u : U, len u ≤ maxLen U
  maxLen_tagged_le : maxLen U ≤ SIZE U

/-- Under each tag, the borrowed reader of a payload agrees with the owned one. -/
class LawfulTaggedView (U : Type) (Tag : outParam Type) [TpmUnmarshalTagged U Tag]
    [TpmTaggedField U Tag] : Prop where
  sameExtent_tagged : ∀ tag, SameExtent (castTaggedPrefixField (U := U) tag)
    (unmarshalTagged tag : _ → TpmResult (U × Bytes))

export LawfulTagged (codec_tagged len_tagged_le maxLen_tagged_le)
export LawfulTaggedView (sameExtent_tagged)

/-- A union whose variant a tag selects: its traits, which agree. -/
class TpmUnion (U : Type) (Tag : outParam Type) extends TpmSized U, TpmMarshal U, TpmSpec U,
    TpmUnmarshalTagged U Tag where
  lawful : LawfulTagged U Tag

/-- A union with a borrowed reader, which agrees with the owned one. -/
class TpmUnionView (U : Type) (Tag : outParam Type) [TpmUnmarshalTagged U Tag] extends
    TpmTaggedField U Tag where
  lawful : LawfulTaggedView U Tag

instance (priority := 1100) {U Tag : Type} [h : TpmUnion U Tag] : TpmSized U := h.toTpmSized
instance (priority := 1100) {U Tag : Type} [h : TpmUnion U Tag] : TpmMarshal U := h.toTpmMarshal
instance (priority := 1100) {U Tag : Type} [h : TpmUnion U Tag] : TpmSpec U := h.toTpmSpec
instance (priority := 1100) {U Tag : Type} [h : TpmUnion U Tag] : TpmUnmarshalTagged U Tag :=
  h.toTpmUnmarshalTagged
instance (priority := 1100) {U Tag : Type} [h : TpmUnion U Tag] : LawfulTagged U Tag := h.lawful

instance (priority := 1100) {U Tag : Type} [TpmUnmarshalTagged U Tag] [h : TpmUnionView U Tag] :
    TpmTaggedField U Tag := h.toTpmTaggedField
instance (priority := 1100) {U Tag : Type} [TpmUnmarshalTagged U Tag] [h : TpmUnionView U Tag] :
    LawfulTaggedView U Tag := h.lawful

abbrev TpmUnion.infer {U Tag : Type} [TpmSized U] [TpmMarshal U] [TpmSpec U]
    [TpmUnmarshalTagged U Tag] [h : LawfulTagged U Tag] : TpmUnion U Tag := { lawful := h }

abbrev TpmUnionView.infer {U Tag : Type} [TpmUnmarshalTagged U Tag] [TpmTaggedField U Tag]
    [h : LawfulTaggedView U Tag] : TpmUnionView U Tag := { lawful := h }

/-! The arms of a union are a nested sum that ends in `Empty`, with the tags of each arm in a list
beside it. A null arm carries `Unit`. -/

section
variable {α A : Type}

instance : TpmSized Empty := ⟨0, nofun⟩
instance : TpmMarshal Empty := ⟨nofun⟩
instance : TpmSpec Empty := ⟨nofun, nofun, 0⟩

instance [TpmSized α] [TpmSized A] : TpmSized (α ⊕ A) :=
  ⟨max (SIZE α) (SIZE A), Sum.elim len len⟩

instance [TpmMarshal α] [TpmMarshal A] : TpmMarshal (α ⊕ A) := ⟨Sum.elim marshal marshal⟩

instance [TpmSpec α] [TpmSpec A] : TpmSpec (α ⊕ A) where
  Writable := Sum.elim Writable Writable
  WellFormed := Sum.elim WellFormed WellFormed
  maxLen := max (maxLen α) (maxLen A)

end

/-- The arms of a union, tried in order. -/
class TpmArms (A : Type) (Tag : Type) where
  matchesArm : List (List Tag) → A → Tag → Bool
  unmarshalArms : List (List Tag) → Tag → Bytes → TpmResult (A × Bytes)

class TpmArmViews (A : Type) (Tag : Type) where
  View : Type
  castArms : List (List Tag) → Tag → Bytes → TpmResult (View × Bytes)

section
variable {α A Tag R : Type} {N : Nat} [DecidableEq R] [TpmEnum Tag R] [TpmIntBytes R N]

instance : TpmArms Empty Tag where
  matchesArm _ := nofun
  unmarshalArms _ tag _ := .error (.variantNotAvailable 0 (tagValue tag))

instance : TpmArmViews Empty Tag where
  View := Empty
  castArms _ tag _ := .error (.variantNotAvailable 0 (tagValue tag))

end

section
variable {α A Tag : Type} [DecidableEq Tag]

instance [TpmUnmarshal α] [TpmArms A Tag] : TpmArms (α ⊕ A) Tag where
  matchesArm tags arm tag := match arm with
    | .inl _ => decide (tag ∈ tags.headD [])
    | .inr rest => TpmArms.matchesArm tags.tail rest tag
  unmarshalArms tags tag buffer :=
    if tag ∈ tags.headD [] then do
      let (value, buffer) ← unmarshal buffer
      return (.inl value, buffer)
    else do
      let (rest, buffer) ← TpmArms.unmarshalArms tags.tail tag buffer
      return (.inr rest, buffer)

instance [TpmField α] [TpmArmViews A Tag] : TpmArmViews (α ⊕ A) Tag where
  View := TpmField.View α ⊕ TpmArmViews.View A Tag
  castArms tags tag buf :=
    if tag ∈ tags.headD [] then do
      let (value, buf) ← castPrefixField (α := α) buf
      return (.inl value, buf)
    else do
      let (rest, buf) ← TpmArmViews.castArms (A := A) tags.tail tag buf
      return (.inr rest, buf)

end

/-- The traversals of the arms agree when no two arms share a tag. -/
class LawfulArms (A : Type) (Tag : Type) [TpmSized A] [TpmMarshal A] [TpmArms A Tag] [TpmSpec A] :
    Prop where
  codec_arms : ∀ tags : List (List Tag), tags.flatten.Nodup → ∀ tag,
    LawfulCodec (marshal : A → _) (TpmArms.unmarshalArms tags tag) len Writable
      (fun a => TpmArms.matchesArm tags a tag ∧ WellFormed a)
  mem_of_matches : ∀ (tags : List (List Tag)) (a : A) tag,
    TpmArms.matchesArm tags a tag → tag ∈ tags.flatten
  len_arms_le : ∀ a : A, len a ≤ maxLen A

class LawfulArmViews (A : Type) (Tag : Type) [TpmArms A Tag] [TpmArmViews A Tag] : Prop where
  sameExtent_arms : ∀ (tags : List (List Tag)) tag,
    SameExtent (TpmArmViews.castArms (A := A) tags tag) (TpmArms.unmarshalArms (A := A) tags tag)

section
variable {Tag R : Type} {N : Nat} [DecidableEq R] [TpmEnum Tag R] [TpmIntBytes R N]

instance : LawfulArms Empty Tag where
  codec_arms _ _ _ := ⟨nofun, nofun, nofun, nofun, nofun⟩
  mem_of_matches _ := nofun
  len_arms_le := nofun

instance : LawfulArmViews Empty Tag where
  sameExtent_arms _ _ _ _ := ⟨nofun, nofun⟩

end

section
variable {Tag : Type}

theorem nodup_tail {tags : List (List Tag)} (nodup : tags.flatten.Nodup) :
    tags.tail.flatten.Nodup := by
  cases tags with
  | nil => exact nodup
  | cons first rest => exact (List.nodup_append.mp nodup).2.1

theorem not_mem_tail {tags : List (List Tag)} (nodup : tags.flatten.Nodup) {tag : Tag}
    (first : tag ∈ tags.headD []) : tag ∉ tags.tail.flatten := by
  cases tags with
  | nil => cases first
  | cons head rest => exact fun later => (List.nodup_append.mp nodup).2.2 _ first _ later rfl

end

section
variable {α A Tag : Type} [DecidableEq Tag]

theorem unmarshalArms_first [TpmUnmarshal α] [TpmArms A Tag] {tags : List (List Tag)} {tag : Tag}
    (first : tag ∈ tags.headD []) {b r : Bytes} {v : α ⊕ A} :
    TpmArms.unmarshalArms tags tag b = .ok (v, r) ↔
      ∃ a, v = .inl a ∧ unmarshal b = .ok (a, r) := by
  simp only [TpmArms.unmarshalArms, first, if_true, bind_eq_ok, Prod.exists, pure, Except.pure,
    Except.ok.injEq, Prod.mk.injEq]
  constructor
  · rintro ⟨a, r, read, rfl, rfl⟩
    exact ⟨a, rfl, read⟩
  · rintro ⟨a, rfl, read⟩
    exact ⟨a, r, read, rfl, rfl⟩

theorem unmarshalArms_later [TpmUnmarshal α] [TpmArms A Tag] {tags : List (List Tag)} {tag : Tag}
    (later : tag ∉ tags.headD []) {b r : Bytes} {v : α ⊕ A} :
    TpmArms.unmarshalArms tags tag b = .ok (v, r) ↔
      ∃ a, v = .inr a ∧ TpmArms.unmarshalArms tags.tail tag b = .ok (a, r) := by
  simp only [TpmArms.unmarshalArms, later, if_false, bind_eq_ok, Prod.exists, pure, Except.pure,
    Except.ok.injEq, Prod.mk.injEq]
  constructor
  · rintro ⟨a, r, read, rfl, rfl⟩
    exact ⟨a, rfl, read⟩
  · rintro ⟨a, rfl, read⟩
    exact ⟨a, r, read, rfl, rfl⟩

instance [TpmSized α] [TpmMarshal α] [TpmUnmarshal α] [TpmSpec α] [LawfulWire α] [TpmSized A]
    [TpmMarshal A] [TpmArms A Tag] [TpmSpec A] [LawfulArms A Tag] : LawfulArms (α ⊕ A) Tag where
  codec_arms tags nodup tag := by
    have rest := LawfulArms.codec_arms (A := A) tags.tail (nodup_tail nodup) tag
    by_cases first : tag ∈ tags.headD []
    · refine ((codec (α := α)).sum_left rest (unmarshalArms_first first)).congr_prop
        (fun _ => Iff.rfl) fun v => ?_
      cases v with
      | inl v => exact and_iff_right (decide_eq_true first)
      | inr v =>
          -- the tag belongs to the first arm, so no later arm has it
          exact ⟨fun m => not_mem_tail nodup first (LawfulArms.mem_of_matches _ _ _ m.1),
            False.elim⟩
    · refine ((codec (α := α)).sum_right rest (unmarshalArms_later first)).congr_prop
        (fun _ => Iff.rfl) fun v => ?_
      cases v with
      | inl v => exact ⟨fun m => first (of_decide_eq_true m.1), False.elim⟩
      | inr v => exact Iff.rfl
  mem_of_matches tags v tag matched := by
    cases tags with
    | nil => cases v with
      | inl v => exact of_decide_eq_true matched
      | inr v => exact LawfulArms.mem_of_matches [] v tag matched
    | cons head tail =>
        refine List.mem_append.mpr ?_
        cases v with
        | inl v => exact .inl (of_decide_eq_true matched)
        | inr v => exact .inr (LawfulArms.mem_of_matches tail v tag matched)
  len_arms_le v := by
    cases v with
    | inl v => exact Nat.le_trans (len_le v) (Nat.le_max_left ..)
    | inr v => exact Nat.le_trans (LawfulArms.len_arms_le Tag v) (Nat.le_max_right ..)

instance [TpmUnmarshal α] [TpmField α] [LawfulView α] [TpmArms A Tag] [TpmArmViews A Tag]
    [LawfulArmViews A Tag] : LawfulArmViews (α ⊕ A) Tag where
  sameExtent_arms tags tag b r := by
    by_cases first : tag ∈ tags.headD []
    · simp only [unmarshalArms_first first, TpmArmViews.castArms, first, if_true, bind_eq_ok,
        Prod.exists, pure, Except.pure, Except.ok.injEq, Prod.mk.injEq]
      constructor
      · rintro ⟨_, view, r, cast, -, rfl⟩
        obtain ⟨a, read⟩ := (sameExtent b r).mp ⟨view, cast⟩
        exact ⟨_, a, rfl, read⟩
      · rintro ⟨_, a, -, read⟩
        obtain ⟨view, cast⟩ := (sameExtent b r).mpr ⟨a, read⟩
        exact ⟨_, view, r, cast, rfl, rfl⟩
    · simp only [unmarshalArms_later first, TpmArmViews.castArms, first, if_false, bind_eq_ok,
        Prod.exists, pure, Except.pure, Except.ok.injEq, Prod.mk.injEq]
      constructor
      · rintro ⟨_, view, r, cast, -, rfl⟩
        obtain ⟨a, read⟩ := (LawfulArmViews.sameExtent_arms tags.tail tag b r).mp ⟨view, cast⟩
        exact ⟨_, a, rfl, read⟩
      · rintro ⟨_, a, -, read⟩
        obtain ⟨view, cast⟩ := (LawfulArmViews.sameExtent_arms tags.tail tag b r).mpr ⟨a, read⟩
        exact ⟨_, view, r, cast, rfl, rfl⟩

end

/-- `tpmu_view!`: a union is one of its arms, each with the tags that select it. -/
class TpmuView (U : Type) (Tag A : outParam Type) where
  tags : List (List Tag)
  toArms : U → A
  ofArms : A → U
  ofArms_toArms : ∀ u, ofArms (toArms u) = u
  toArms_ofArms : ∀ a, toArms (ofArms a) = a
  nodup : tags.flatten.Nodup

namespace TpmuView

instance {U Tag A : Type} [TpmuView U Tag A] [TpmSpec A] : TpmSpec U where
  Writable u := Writable (toArms u)
  WellFormed u := WellFormed (toArms u)
  maxLen := maxLen A

instance {U Tag A : Type} [TpmuView U Tag A] [TpmArms A Tag] : TpmUnmarshalTagged U Tag where
  matchesTag u tag := TpmArms.matchesArm (tags U) (toArms u) tag
  unmarshalTagged tag buffer := do
    let (arm, buffer) ← TpmArms.unmarshalArms (A := A) (tags U) tag buffer
    return (ofArms arm, buffer)

instance {U Tag A : Type} [TpmuView U Tag A] [TpmArmViews A Tag] : TpmTaggedField U Tag where
  View := TpmArmViews.View A Tag
  castTaggedPrefixField tag buf := TpmArmViews.castArms (A := A) (tags U) tag buf

/-- What `len` and `marshal` of a union have to do: delegate to the payload. -/
class LawfulUnion (U : Type) {Tag A : outParam Type} [TpmuView U Tag A] [TpmSized A] [TpmMarshal A]
    [TpmSpec A] [TpmSized U] [TpmMarshal U] : Prop where
  len_eq : ∀ u : U, len u = len (toArms u)
  marshal_eq : ∀ u : U, marshal u = marshal (toArms u)
  maxLen_le : maxLen A ≤ SIZE U

section
variable {U Tag A : Type} [TpmuView U Tag A]

theorem unmarshalTagged_eq_ok [TpmArms A Tag] {tag : Tag} {b r : Bytes} {u : U} :
    unmarshalTagged tag b = .ok (u, r) ↔
      TpmArms.unmarshalArms (tags U) tag b = .ok (toArms u, r) := by
  simp only [unmarshalTagged, bind_eq_ok, Prod.exists, pure, Except.pure, Except.ok.injEq,
    Prod.mk.injEq]
  constructor
  · rintro ⟨arm, r, read, rfl, rfl⟩
    rwa [toArms_ofArms]
  · intro read
    exact ⟨_, r, read, ofArms_toArms u, rfl⟩

instance [TpmSized A] [TpmMarshal A] [TpmArms A Tag] [TpmSpec A] [LawfulArms A Tag] [TpmSized U]
    [TpmMarshal U] [LawfulUnion U] : LawfulTagged U Tag where
  codec_tagged tag :=
    ((LawfulArms.codec_arms (tags U) nodup tag).iso (f := toArms) fun _ _ _ =>
      unmarshalTagged_eq_ok).congr_write LawfulUnion.marshal_eq LawfulUnion.len_eq
  len_tagged_le u := by
    rw [LawfulUnion.len_eq]
    exact LawfulArms.len_arms_le Tag (toArms u)
  maxLen_tagged_le := (LawfulUnion.maxLen_le : maxLen A ≤ SIZE U)

instance [TpmArms A Tag] [TpmArmViews A Tag] [LawfulArmViews A Tag] : LawfulTaggedView U Tag where
  sameExtent_tagged tag b r := by
    refine (LawfulArmViews.sameExtent_arms (tags U) tag b r).trans ?_
    simp only [unmarshalTagged_eq_ok]
    exact ⟨fun ⟨a, read⟩ => ⟨ofArms a, by rwa [toArms_ofArms]⟩, fun ⟨u, read⟩ => ⟨_, read⟩⟩

end
end TpmuView
end Tpm2
