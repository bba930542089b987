import TypeBounds.Proofs.Failure
import TypeBounds.Proofs.Meeting
import TypeBounds.Proofs.PartialOrder

/-! # Operands between their meet and their join

A join that fails nowhere is above both its operands, and a meet that fails nowhere is
below them, whatever the operands are made of. With `dynamic` around the order is not
transitive, so neither follows from other laws: joins and meets are taken apart
together, because the parameters of callables change sides, and at every part the
comparison is made anew.
-/

namespace TypeBounds

theorem Ty.lesser_isSubtype (s t : Ty) :
    (Ty.lesser s t).isSubtype s ∧ (Ty.lesser s t).isSubtype t := by
  unfold Ty.lesser
  split
  · rename_i below
    exact ⟨s.isSubtype_refl, below⟩
  · split
    · rename_i above
      exact ⟨above, t.isSubtype_refl⟩
    · exact ⟨Ty.bottom_isSubtype s, Ty.bottom_isSubtype t⟩

theorem Ty.of_similar {items items' : List Ty} {fallback fallback' : Instance}
    (similar : Ty.similar items items' fallback fallback') :
    items.length = items'.length ∧ fallback.isSubtype fallback' := by
  simp only [Ty.similar, Bool.and_eq_true, beq_iff_eq] at similar
  exact ⟨similar.1, (Instance.subtypes_of_same similar.2).1⟩

theorem Ty.isSubtype_of_nominal {a b j : Ty} {s t : Instance} (ofA : a.nominal? = some s)
    (ofB : b.nominal? = some t) (above : ∃ i, j = .inst i ∧ s.isSubtype i ∧ t.isSubtype i) :
    a.isSubtype j ∧ b.isSubtype j := by
  obtain ⟨i, rfl, left, right⟩ := above
  rw [Ty.isSubtype_inst ofA, Ty.isSubtype_inst ofB]
  exact ⟨left, right⟩

mutual
theorem Ty.isSubtype_join {a b : Ty} (sound : (a.join b).hasError = false) :
    a.isSubtype (a.join b) ∧ b.isSubtype (a.join b) := by
  match a, b with
  | .callable params result fallback, .callable params' result' fallback' =>
      rw [Ty.join] at sound ⊢
      split at sound
      · rename_i similar
        obtain ⟨lengths, fallbacks⟩ := Ty.of_similar similar
        simp only [Ty.hasError, Bool.or_eq_false_iff] at sound
        obtain ⟨⟨ofParams, ofResult⟩, -⟩ := sound
        obtain ⟨left, right⟩ := Ty.meetAll_allSubtypes lengths ofParams
        obtain ⟨left', right'⟩ := Ty.isSubtype_join ofResult
        simp only [if_pos similar, Ty.isSubtype, left, right, left', right', fallbacks,
          Instance.isSubtype_refl, Bool.and_self, and_self]
      · rename_i other
        rw [if_neg other]
        exact Ty.isSubtype_of_nominal rfl rfl (Instance.isSubtype_join sound)
  | .tuple items fallback, .tuple items' fallback' =>
      rw [Ty.join] at sound ⊢
      split at sound
      · rename_i similar
        obtain ⟨lengths, fallbacks⟩ := Ty.of_similar similar
        simp only [Ty.hasError, Bool.or_eq_false_iff] at sound
        obtain ⟨left, right⟩ := Ty.allSubtypes_joinAll lengths sound.1
        simp only [if_pos similar, Ty.isSubtype, left, right, fallbacks,
          Instance.isSubtype_refl, Bool.and_self, and_self]
      · rename_i other
        rw [if_neg other]
        exact Ty.isSubtype_of_nominal rfl rfl (Instance.isSubtype_join sound)
  | .inst s, .inst t | .callable _ _ s, .inst t | .tuple _ s, .inst t
  | .callable _ _ s, .tuple _ t | .tuple _ s, .callable _ _ t =>
      rw [Ty.join] at sound ⊢
      exact Ty.isSubtype_of_nominal rfl rfl (Instance.isSubtype_join sound)
  | .inst s, .callable _ _ t | .inst s, .tuple _ t =>
      rw [Ty.join] at sound ⊢
      exact (Ty.isSubtype_of_nominal rfl rfl (Instance.isSubtype_join sound)).symm
  | .dynamic, b => cases b <;> simp [Ty.join, Ty.isSubtype]
  | a, .dynamic => cases a <;> simp [Ty.join, Ty.isSubtype]
  | .void, b => cases b <;> simp_all [Ty.join, Ty.hasError, Ty.isSubtype]
  | a, .void => cases a <;> simp_all [Ty.join, Ty.hasError, Ty.isSubtype]
  | .error, b => cases b <;> simp_all [Ty.join, Ty.hasError, Ty.isSubtype]
  | a, .error => cases a <;> simp_all [Ty.join, Ty.hasError, Ty.isSubtype]
  | .bottom, b => cases b <;> simp_all [Ty.join, Ty.hasError, Ty.isSubtype, Ty.isSubtype_refl]
  | a, .bottom => cases a <;> simp_all [Ty.join, Ty.hasError, Ty.isSubtype, Ty.isSubtype_refl]
termination_by sizeOf a + sizeOf b

theorem Instance.isSubtype_join {s t : Instance} (sound : (s.join t).hasError = false) :
    ∃ j, s.join t = .inst j ∧ s.isSubtype j ∧ t.isSubtype j := by
  cases found : s.commonBase? t with
  | none =>
      rw [Instance.join_eq_error (Instance.commonBase?_eq_none found)] at sound
      cases sound
  | some pair =>
      obtain ⟨a, view⟩ := pair
      by_cases lengths : a.args.length = view.args.length
      · rw [Instance.join_eq_joined found lengths] at sound ⊢
        have seen : s.view? a.name = some a := Instance.view?_commonBase_left found
        have seen' : t.view? a.name = some view := Instance.view?_commonBase_right found
        have smaller := Instance.sizeOf_args_lt_of_commonBase? found
        obtain ⟨left, right⟩ := Ty.allSubtypes_joinAll lengths sound
        exact ⟨_, rfl, Instance.isSubtype_iff.mpr ⟨a, seen, left⟩,
          Instance.isSubtype_iff.mpr ⟨view, seen', right⟩⟩
      · rw [Instance.join] at sound
        split at sound <;> simp_all [Ty.hasError]
termination_by sizeOf s + sizeOf t

theorem Ty.allSubtypes_joinAll {as bs : List Ty} (lengths : as.length = bs.length)
    (sound : Ty.anyError (Ty.joinAll as bs) = false) :
    Ty.allSubtypes as (Ty.joinAll as bs) ∧ Ty.allSubtypes bs (Ty.joinAll as bs) := by
  match as, bs with
  | [], [] => simp [Ty.joinAll, Ty.allSubtypes]
  | [], _ :: _ | _ :: _, [] => simp at lengths
  | a :: as, b :: bs =>
      simp only [Ty.joinAll, Ty.anyError, Bool.or_eq_false_iff] at sound
      obtain ⟨left, right⟩ := Ty.isSubtype_join sound.1
      obtain ⟨left', right'⟩ := Ty.allSubtypes_joinAll (Nat.succ.inj lengths) sound.2
      simp only [Ty.joinAll, Ty.allSubtypes, left, right, left', right', Bool.and_self, and_self]
termination_by sizeOf as + sizeOf bs

theorem Ty.meet_isSubtype {a b : Ty} (sound : (a.meet b).hasError = false) :
    (a.meet b).isSubtype a ∧ (a.meet b).isSubtype b := by
  match a, b with
  | .inst s, .inst t =>
      rw [Ty.meet] at sound ⊢
      split at sound
      · rename_i alike
        obtain ⟨names, lengths⟩ : s.name = t.name ∧ s.args.length = t.args.length := by
          simpa using alike
        have smaller := s.sizeOf_args_lt
        have smaller' := t.sizeOf_args_lt
        obtain ⟨left, right⟩ := Ty.meetAll_allSubtypes lengths sound
        simp only [if_pos alike, Ty.isSubtype]
        exact ⟨Instance.isSubtype_of_name_eq rfl left, Instance.isSubtype_of_name_eq names right⟩
      · rename_i other
        rw [if_neg other]
        exact Ty.lesser_isSubtype _ _
  | .callable params result fallback, .callable params' result' fallback' =>
      rw [Ty.meet] at sound ⊢
      split at sound
      · rename_i similar
        obtain ⟨lengths, fallbacks⟩ := Ty.of_similar similar
        simp only [Ty.hasError, Bool.or_eq_false_iff] at sound
        obtain ⟨⟨ofParams, ofResult⟩, -⟩ := sound
        obtain ⟨left, right⟩ := Ty.allSubtypes_joinAll lengths ofParams
        obtain ⟨left', right'⟩ := Ty.meet_isSubtype ofResult
        simp only [if_pos similar, Ty.isSubtype, left, right, left', right', fallbacks,
          Instance.isSubtype_refl, Bool.and_self, and_self]
      · rename_i other
        rw [if_neg other]
        exact Ty.lesser_isSubtype _ _
  | .tuple items fallback, .tuple items' fallback' =>
      rw [Ty.meet] at sound ⊢
      split at sound
      · rename_i similar
        obtain ⟨lengths, fallbacks⟩ := Ty.of_similar similar
        simp only [Ty.hasError, Bool.or_eq_false_iff] at sound
        obtain ⟨left, right⟩ := Ty.meetAll_allSubtypes lengths sound.1
        simp only [if_pos similar, Ty.isSubtype, left, right, fallbacks,
          Instance.isSubtype_refl, Bool.and_self, and_self]
      · rename_i other
        rw [if_neg other]
        exact Ty.lesser_isSubtype _ _
  | .inst _, .callable .. | .inst _, .tuple .. | .callable .., .inst _ | .callable .., .tuple ..
  | .tuple .., .inst _ | .tuple .., .callable .. =>
      rw [Ty.meet] <;> simp [Ty.lesser_isSubtype]
  | .dynamic, b => cases b <;> simp [Ty.meet, Ty.isSubtype]
  | a, .dynamic => cases a <;> simp [Ty.meet, Ty.isSubtype]
  | .void, b => cases b <;> simp_all [Ty.meet, Ty.hasError, Ty.isSubtype]
  | a, .void => cases a <;> simp_all [Ty.meet, Ty.hasError, Ty.isSubtype]
  | .error, b => cases b <;> simp_all [Ty.meet, Ty.hasError, Ty.isSubtype]
  | a, .error => cases a <;> simp_all [Ty.meet, Ty.hasError, Ty.isSubtype]
  | .bottom, b => cases b <;> simp_all [Ty.meet, Ty.hasError, Ty.isSubtype]
  | a, .bottom => cases a <;> simp_all [Ty.meet, Ty.hasError, Ty.isSubtype]
termination_by sizeOf a + sizeOf b

theorem Ty.meetAll_allSubtypes {as bs : List Ty} (lengths : as.length = bs.length)
    (sound : Ty.anyError (Ty.meetAll as bs) = false) :
    Ty.allSubtypes (Ty.meetAll as bs) as ∧ Ty.allSubtypes (Ty.meetAll as bs) bs := by
  match as, bs with
  | [], [] => simp [Ty.meetAll, Ty.allSubtypes]
  | [], _ :: _ | _ :: _, [] => simp at lengths
  | a :: as, b :: bs =>
      simp only [Ty.meetAll, Ty.anyError, Bool.or_eq_false_iff] at sound
      obtain ⟨left, right⟩ := Ty.meet_isSubtype sound.1
      obtain ⟨left', right'⟩ := Ty.meetAll_allSubtypes (Nat.succ.inj lengths) sound.2
      simp only [Ty.meetAll, Ty.allSubtypes, left, right, left', right', Bool.and_self, and_self]
termination_by sizeOf as + sizeOf bs
end

/-- Whatever two types are made of, both are below their join if it fails nowhere, and above
    their meet if that fails nowhere. -/
theorem Ty.between_meet_and_join (a b : Ty) :
    ((a.join b).hasError = false → a.isSubtype (a.join b) ∧ b.isSubtype (a.join b)) ∧
      ((a.meet b).hasError = false → (a.meet b).isSubtype a ∧ (a.meet b).isSubtype b) :=
  ⟨Ty.isSubtype_join, Ty.meet_isSubtype⟩

open Sample in
/-- Tuples over a second root, with `void` and with `dynamic` inside of their items. -/
theorem between_meet_and_join_rock :
    let a : Ty := .tuple [.void, listOf .dynamic, one intList] ⟨rock, []⟩
    let b : Ty := .tuple [.void, one intList, listOf .dynamic] ⟨rock, []⟩
    (a.fits rockyWorld .any ∧ b.fits rockyWorld .any) ∧
      ((a.join b).hasError = false ∧ (a.meet b).hasError = false) ∧
      (a.isSubtype (a.join b) ∧ b.isSubtype (a.join b)) ∧
      (a.meet b).isSubtype a ∧ (a.meet b).isSubtype b := by
  intro a b
  have fit : a.fits rockyWorld .any ∧ b.fits rockyWorld .any := by decide +kernel
  have joined : (a.join b).hasError = false := by cbv
  have met : (a.meet b).hasError = false := by cbv
  have between := Ty.between_meet_and_join a b
  exact ⟨fit, ⟨joined, met⟩, between.1 joined, between.2 met⟩

end TypeBounds
