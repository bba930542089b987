import TypeBounds.Proofs.Ancestry

/-! # What joins and meets are made of

Joins and meets of well-formed types are well-formed in the same dialect, if it has a
place for the `error` of two classes without a common base, or if there are no such
classes because `object` is above them all.
-/

namespace TypeBounds

/-- How joins and meets treat the special types, whatever the other operand is. -/
structure Ty.Absorbing (op : Ty → Ty → Ty) : Prop where
  dynamic_left : ∀ t, op .dynamic t = .dynamic
  dynamic_right : ∀ t, op t .dynamic = .dynamic
  error_left : ∀ t, t ≠ .dynamic → op .error t = .error
  error_right : ∀ t, t ≠ .dynamic → op t .error = .error
  void : op .void .void = .void
  void_left : ∀ t, t ≠ .dynamic → t ≠ .void → op .void t = .error
  void_right : ∀ t, t ≠ .dynamic → t ≠ .void → op t .void = .error
  live : ∀ s t, s ≠ .dynamic → t ≠ .dynamic → op s t ≠ .dynamic
  solid : ∀ s t, s ≠ .void → op s t ≠ .void

/-- Not decided by its mere presence. -/
def Ty.Ordinary (t : Ty) : Prop := t ≠ .void ∧ t ≠ .dynamic ∧ t ≠ .error

theorem Instance.join_eq (s t : Instance) : (∃ i, s.join t = .inst i) ∨ s.join t = .error := by
  rw [Instance.join]
  split
  · exact .inr rfl
  · split
    · exact .inl ⟨_, rfl⟩
    · exact .inr rfl

theorem Ty.lesser_eq (s t : Ty) : Ty.lesser s t = s ∨ Ty.lesser s t = t ∨ Ty.lesser s t = .bottom := by
  unfold Ty.lesser
  split
  · exact .inl rfl
  · split
    · exact .inr (.inl rfl)
    · exact .inr (.inr rfl)

theorem Ty.absorbing_join : Ty.Absorbing Ty.join where
  dynamic_left t := by rw [Ty.join]
  dynamic_right t := by cases t <;> simp [Ty.join]
  error_left t live := by cases t <;> simp_all [Ty.join]
  error_right t live := by cases t <;> simp_all [Ty.join]
  void := by rw [Ty.join]
  void_left t live other := by cases t <;> simp_all [Ty.join]
  void_right t live other := by cases t <;> simp_all [Ty.join]
  live s t left right := by
    cases s <;> cases t <;> simp_all only [Ty.join, ne_eq] <;> grind [Instance.join_eq]
  solid s t left := by
    cases s <;> cases t <;> simp_all only [Ty.join, ne_eq] <;> grind [Instance.join_eq]

theorem Ty.absorbing_meet : Ty.Absorbing Ty.meet where
  dynamic_left t := by rw [Ty.meet]
  dynamic_right t := by cases t <;> simp [Ty.meet]
  error_left t live := by cases t <;> simp_all [Ty.meet]
  error_right t live := by cases t <;> simp_all [Ty.meet]
  void := by rw [Ty.meet]
  void_left t live other := by cases t <;> simp_all [Ty.meet]
  void_right t live other := by cases t <;> simp_all [Ty.meet]
  live s t left right := by
    cases s <;> cases t <;> simp_all only [Ty.meet, ne_eq] <;> grind [Ty.lesser_eq]
  solid s t left := by
    cases s <;> cases t <;> simp_all only [Ty.meet, ne_eq] <;> grind [Ty.lesser_eq]

theorem Ty.bottom_join {t : Ty} (other : t ≠ .void) : Ty.bottom.join t = t := by
  cases t <;> simp_all [Ty.join]

theorem Ty.join_bottom {t : Ty} (other : t ≠ .void) : t.join .bottom = t := by
  cases t <;> simp_all [Ty.join]

theorem Ty.bottom_meet {t : Ty} (noVoid : t ≠ .void) (live : t ≠ .dynamic) (sound : t ≠ .error) :
    Ty.bottom.meet t = .bottom := by
  cases t <;> simp_all [Ty.meet]

theorem Ty.meet_bottom {t : Ty} (noVoid : t ≠ .void) (live : t ≠ .dynamic) (sound : t ≠ .error) :
    t.meet .bottom = .bottom := by
  cases t <;> simp_all [Ty.meet]

theorem Ty.length_joinAll (as bs : List Ty) :
    (Ty.joinAll as bs).length = min as.length bs.length := by
  induction as generalizing bs with
  | nil => simp [Ty.joinAll]
  | cons a as ih => cases bs <;> simp [Ty.joinAll, ih]

theorem Ty.length_meetAll (as bs : List Ty) :
    (Ty.meetAll as bs).length = min as.length bs.length := by
  induction as generalizing bs with
  | nil => simp [Ty.meetAll]
  | cons a as ih => cases bs <;> simp [Ty.meetAll, ih]

theorem Ty.lesser_fits {u : Universe} {d : Dialect} {a b : Ty} (aFit : a.fits u d)
    (bFit : b.fits u d) : (Ty.lesser a b).fits u d := by
  unfold Ty.lesser
  split
  · exact aFit
  · split
    · exact bFit
    · rfl

/-- A dialect that joins stay in. Meets stay in the opposite one. -/
structure Dialect.Joinable (u : Universe) (d : Dialect) : Prop where
  lawful : u.Lawful d
  noVoid : d.void = false
  error : d.errorWith ∨ u.Rooted

theorem Instance.commonBase?_isSome_of_rooted {u : Universe} (rooted : u.Rooted) {s t : Instance}
    (sHeld : u.holds s.cls) (tHeld : u.holds t.cls) : s.commonBase? t ≠ none := by
  have seen : ∀ i : Instance, u.holds i.cls → ∃ view, i.view? "object" = some view := by
    intro i held
    have above := rooted i.cls held
    obtain ⟨view, member, names⟩ := hasBase_iff.mp above
    exact Option.isSome_iff_exists.mp (List.find?_isSome.mpr ⟨view, member, by simp [names]⟩)
  intro absent
  obtain ⟨v, left⟩ := seen s sHeld
  obtain ⟨w, right⟩ := seen t tHeld
  exact commonBase?_eq_none absent left right

mutual
/-- Joins stay in a joinable dialect. -/
theorem Ty.join_fits {u : Universe} {d : Dialect} (closed : d.Joinable u) {a b : Ty}
    (aFit : a.fits u d) (bFit : b.fits u d) : (a.join b).fits u d := by
  match a, b with
  | .inst s, .inst t =>
      rw [Ty.join]
      exact Instance.join_fits closed aFit bFit
  | .inst s, .callable _ _ fallback =>
      rw [Ty.join]
      exact Instance.join_fits closed (Ty.fits_callable_iff.mp bFit).2.2.1 aFit
  | .inst s, .tuple _ fallback =>
      rw [Ty.join]
      exact Instance.join_fits closed (Ty.fits_tuple_iff.mp bFit).2.1 aFit
  | .callable _ _ fallback, .inst t =>
      rw [Ty.join]
      exact Instance.join_fits closed (Ty.fits_callable_iff.mp aFit).2.2.1 bFit
  | .tuple _ fallback, .inst t =>
      rw [Ty.join]
      exact Instance.join_fits closed (Ty.fits_tuple_iff.mp aFit).2.1 bFit
  | .callable _ _ fallback, .tuple _ fallback' =>
      rw [Ty.join]
      exact Instance.join_fits closed (Ty.fits_callable_iff.mp aFit).2.2.1
        (Ty.fits_tuple_iff.mp bFit).2.1
  | .tuple _ fallback, .callable _ _ fallback' =>
      rw [Ty.join]
      exact Instance.join_fits closed (Ty.fits_tuple_iff.mp aFit).2.1
        (Ty.fits_callable_iff.mp bFit).2.2.1
  | .callable params result fallback, .callable params' result' fallback' =>
      obtain ⟨aParams, aResult, aFallback, -⟩ := Ty.fits_callable_iff.mp aFit
      obtain ⟨bParams, bResult, bFallback, anchor⟩ := Ty.fits_callable_iff.mp bFit
      rw [Ty.join]
      split
      · exact Ty.fits_callable_iff.mpr ⟨Ty.meetAll_fits closed aParams bParams,
          Ty.join_fits closed aResult bResult, bFallback, anchor⟩
      · exact Instance.join_fits closed aFallback bFallback
  | .tuple items fallback, .tuple items' fallback' =>
      obtain ⟨aItems, aFallback, -⟩ := Ty.fits_tuple_iff.mp aFit
      obtain ⟨bItems, bFallback, anchor⟩ := Ty.fits_tuple_iff.mp bFit
      rw [Ty.join]
      split
      · exact Ty.fits_tuple_iff.mpr ⟨Ty.joinAll_fits closed aItems bItems, bFallback, anchor⟩
      · exact Instance.join_fits closed aFallback bFallback
  | .void, _ => simp [Ty.fits, closed.noVoid] at aFit
  | _, .void => simp [Ty.fits, closed.noVoid] at bFit
  | .bottom, b =>
      cases b with
      | void => simp [Ty.fits, closed.noVoid] at bFit
      | _ => rwa [Ty.bottom_join (by simp)]
  | a, .bottom =>
      cases a with
      | void => simp [Ty.fits, closed.noVoid] at aFit
      | _ => rwa [Ty.join_bottom (by simp)]
  | .dynamic, _ => rwa [Ty.absorbing_join.dynamic_left]
  | _, .dynamic => rwa [Ty.absorbing_join.dynamic_right]
  | .error, b =>
      cases b with
      | dynamic => rwa [Ty.absorbing_join.dynamic_right]
      | _ => rwa [Ty.absorbing_join.error_left _ (by simp)]
  | a, .error =>
      cases a with
      | dynamic => rwa [Ty.absorbing_join.dynamic_left]
      | _ => rwa [Ty.absorbing_join.error_right _ (by simp)]
termination_by sizeOf a + sizeOf b

theorem Instance.join_fits {u : Universe} {d : Dialect} (closed : d.Joinable u) {s t : Instance}
    (sFit : s.fits u d) (tFit : t.fits u d) : (s.join t).fits u d := by
  obtain ⟨sHeld, -, -⟩ := Instance.fits_iff.mp sFit
  obtain ⟨tHeld, -, -⟩ := Instance.fits_iff.mp tFit
  rw [Instance.join]
  split
  · rename_i absent
    rcases closed.error with allowed | rooted
    · exact allowed
    · exact absurd absent (Instance.commonBase?_isSome_of_rooted rooted sHeld tHeld)
  · rename_i a view found
    have argsLt := Instance.sizeOf_args_lt_of_commonBase? found
    have baseFit := Instance.fits_of_mem_ancestry closed.lawful sFit
      (Instance.commonBase?_eq_some found).1
    have viewFit := Instance.fits_of_view? closed.lawful tFit
      (Instance.view?_commonBase_right found)
    obtain ⟨baseHeld, baseCount, baseArgs⟩ := Instance.fits_iff.mp baseFit
    obtain ⟨-, viewCount, viewArgs⟩ := Instance.fits_iff.mp viewFit
    rw [Instance.cls_eq_of_commonBase? closed.lawful.linked sHeld tHeld found] at viewCount
    have lengths : a.args.length = view.args.length := by omega
    rw [if_pos lengths]
    refine Instance.fits_iff.mpr ⟨baseHeld, ?_, Ty.joinAll_fits closed baseArgs viewArgs⟩
    simpa [Ty.length_joinAll, ← lengths] using baseCount
termination_by sizeOf s + sizeOf t

theorem Ty.joinAll_fits {u : Universe} {d : Dialect} (closed : d.Joinable u) {as bs : List Ty}
    (aFit : Ty.allFit u d as) (bFit : Ty.allFit u d bs) : Ty.allFit u d (Ty.joinAll as bs) := by
  match as, bs with
  | [], _ | _ :: _, [] => simp [Ty.joinAll, Ty.allFit]
  | a :: as, b :: bs =>
      obtain ⟨aHead, aTail⟩ := Ty.allFit_cons_iff.mp aFit
      obtain ⟨bHead, bTail⟩ := Ty.allFit_cons_iff.mp bFit
      rw [Ty.joinAll]
      exact Ty.allFit_cons_iff.mpr
        ⟨Ty.join_fits closed aHead bHead, Ty.joinAll_fits closed aTail bTail⟩
termination_by sizeOf as + sizeOf bs

theorem Ty.meet_fits {u : Universe} {d : Dialect} (closed : d.Joinable u) {a b : Ty}
    (aFit : a.fits u d.opposite) (bFit : b.fits u d.opposite) :
    (a.meet b).fits u d.opposite := by
  match a, b with
  | .inst s, .inst t =>
      obtain ⟨sHeld, sCount, sArgs⟩ := Instance.fits_iff.mp aFit
      obtain ⟨-, -, tArgs⟩ := Instance.fits_iff.mp bFit
      rw [Ty.meet]
      split
      · rename_i alike
        have lengths : s.args.length = t.args.length := by simp_all
        have argsLt := s.sizeOf_args_lt
        have argsLt' := t.sizeOf_args_lt
        refine Instance.fits_iff.mpr ⟨sHeld, ?_, Ty.meetAll_fits closed sArgs tArgs⟩
        simpa [Ty.length_meetAll, ← lengths] using sCount
      · exact Ty.lesser_fits aFit bFit
  | .callable params result fallback, .callable params' result' fallback' =>
      obtain ⟨aParams, aResult, aFallback, anchor⟩ := Ty.fits_callable_iff.mp aFit
      obtain ⟨bParams, bResult, bFallback, -⟩ := Ty.fits_callable_iff.mp bFit
      rw [Ty.meet]
      split
      · exact Ty.fits_callable_iff.mpr ⟨Ty.joinAll_fits closed aParams bParams,
          Ty.meet_fits closed aResult bResult, aFallback, anchor⟩
      · exact Ty.lesser_fits aFit bFit
  | .tuple items fallback, .tuple items' fallback' =>
      obtain ⟨aItems, aFallback, anchor⟩ := Ty.fits_tuple_iff.mp aFit
      obtain ⟨bItems, -, -⟩ := Ty.fits_tuple_iff.mp bFit
      rw [Ty.meet]
      split
      · exact Ty.fits_tuple_iff.mpr ⟨Ty.meetAll_fits closed aItems bItems, aFallback, anchor⟩
      · exact Ty.lesser_fits aFit bFit
  | .inst _, .callable .. | .inst _, .tuple .. | .callable .., .inst _ | .callable .., .tuple ..
  | .tuple .., .inst _ | .tuple .., .callable .. =>
      rw [Ty.meet] <;> simp [Ty.lesser_fits aFit bFit]
  | .void, _ => simp [Ty.fits, Dialect.opposite, closed.noVoid] at aFit
  | _, .void => simp [Ty.fits, Dialect.opposite, closed.noVoid] at bFit
  | .dynamic, _ => rwa [Ty.absorbing_meet.dynamic_left]
  | _, .dynamic => rwa [Ty.absorbing_meet.dynamic_right]
  | .error, b =>
      cases b with
      | dynamic => rwa [Ty.absorbing_meet.dynamic_right]
      | _ => rwa [Ty.absorbing_meet.error_left _ (by simp)]
  | a, .error =>
      cases a with
      | dynamic => rwa [Ty.absorbing_meet.dynamic_left]
      | _ => rwa [Ty.absorbing_meet.error_right _ (by simp)]
  | .bottom, .inst _ | .bottom, .callable .. | .bottom, .tuple .. | .bottom, .bottom
  | .inst _, .bottom | .callable .., .bottom | .tuple .., .bottom => simp [Ty.meet, Ty.fits]
termination_by sizeOf a + sizeOf b

theorem Ty.meetAll_fits {u : Universe} {d : Dialect} (closed : d.Joinable u) {as bs : List Ty}
    (aFit : Ty.allFit u d.opposite as) (bFit : Ty.allFit u d.opposite bs) :
    Ty.allFit u d.opposite (Ty.meetAll as bs) := by
  match as, bs with
  | [], _ | _ :: _, [] => simp [Ty.meetAll, Ty.allFit]
  | a :: as, b :: bs =>
      obtain ⟨aHead, aTail⟩ := Ty.allFit_cons_iff.mp aFit
      obtain ⟨bHead, bTail⟩ := Ty.allFit_cons_iff.mp bFit
      rw [Ty.meetAll]
      exact Ty.allFit_cons_iff.mpr
        ⟨Ty.meet_fits closed aHead bHead, Ty.meetAll_fits closed aTail bTail⟩
termination_by sizeOf as + sizeOf bs
end

end TypeBounds
