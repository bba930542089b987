import TypeBounds.Proofs.Order

/-! # A partial order on types without `dynamic`

Types of the same shape are below each other, whatever they are made of. Where
`dynamic` occurs neither in types nor in base arguments, the subtype test is a
partial order: it is transitive, and types that are below each other are the same.
-/

namespace TypeBounds

mutual
/-- Both directions at once, because the parameters of callables change sides. -/
theorem Ty.subtypes_of_same {a b : Ty} (same : a.same b) : a.isSubtype b ∧ b.isSubtype a := by
  cases a with
  | inst i =>
      cases b with
      | inst j =>
          simp only [Ty.isSubtype]
          exact Instance.subtypes_of_same same
      | callable | tuple | void | dynamic | bottom | error => simp [Ty.same] at same
  | callable params result fallback =>
      cases b with
      | callable params' result' fallback' =>
          simp only [Ty.same, Bool.and_eq_true] at same
          obtain ⟨⟨ofParams, ofResult⟩, ofFallback⟩ := same
          obtain ⟨paramsUp, paramsDown⟩ := Ty.allSubtypes_of_sameAll ofParams
          obtain ⟨resultUp, resultDown⟩ := Ty.subtypes_of_same ofResult
          obtain ⟨fallbackUp, fallbackDown⟩ := Instance.subtypes_of_same ofFallback
          simp only [Ty.isSubtype, Bool.and_eq_true]
          exact ⟨⟨⟨paramsDown, resultUp⟩, fallbackUp⟩, ⟨paramsUp, resultDown⟩, fallbackDown⟩
      | inst | tuple | void | dynamic | bottom | error => simp [Ty.same] at same
  | tuple items fallback =>
      cases b with
      | tuple items' fallback' =>
          simp only [Ty.same, Bool.and_eq_true] at same
          obtain ⟨ofItems, ofFallback⟩ := same
          obtain ⟨itemsUp, itemsDown⟩ := Ty.allSubtypes_of_sameAll ofItems
          obtain ⟨fallbackUp, fallbackDown⟩ := Instance.subtypes_of_same ofFallback
          simp only [Ty.isSubtype, Bool.and_eq_true]
          exact ⟨⟨itemsUp, fallbackUp⟩, itemsDown, fallbackDown⟩
      | inst | callable | void | dynamic | bottom | error => simp [Ty.same] at same
  | void | dynamic | bottom | error => cases b <;> simp_all [Ty.same, Ty.isSubtype]
termination_by sizeOf a

theorem Instance.subtypes_of_same {i j : Instance} (same : i.same j) :
    i.isSubtype j ∧ j.isSubtype i := by
  cases i with
  | mk c args =>
      cases j with
      | mk c' args' =>
          simp only [Instance.same, Bool.and_eq_true, beq_iff_eq] at same
          obtain ⟨names, ofArgs⟩ := same
          obtain ⟨up, down⟩ := Ty.allSubtypes_of_sameAll ofArgs
          exact ⟨Instance.isSubtype_of_name_eq names up,
            Instance.isSubtype_of_name_eq names.symm down⟩
termination_by sizeOf i

theorem Ty.allSubtypes_of_sameAll {as bs : List Ty} (same : Ty.sameAll as bs) :
    Ty.allSubtypes as bs ∧ Ty.allSubtypes bs as := by
  cases as with
  | nil => cases bs <;> simp_all [Ty.sameAll, Ty.allSubtypes]
  | cons a as =>
      cases bs with
      | nil => simp [Ty.sameAll] at same
      | cons b bs =>
          simp only [Ty.sameAll, Bool.and_eq_true] at same
          obtain ⟨headUp, headDown⟩ := Ty.subtypes_of_same same.1
          obtain ⟨tailUp, tailDown⟩ := Ty.allSubtypes_of_sameAll same.2
          simp [Ty.allSubtypes, headUp, headDown, tailUp, tailDown]
termination_by sizeOf as
end

theorem Ty.isSubtype_refl (t : Ty) : t.isSubtype t := (Ty.subtypes_of_same t.same_refl).1

theorem Instance.isSubtype_refl (i : Instance) : i.isSubtype i :=
  (Instance.subtypes_of_same i.same_refl).1

theorem Ty.bottom_isSubtype (t : Ty) : Ty.bottom.isSubtype t := by
  cases t <;> simp [Ty.isSubtype]

theorem Ty.isEquivalent_refl (t : Ty) : t.isEquivalent t := by
  simp [Ty.isEquivalent, Ty.isSubtype_refl]

/-- Everything but `dynamic`. -/
def Dialect.static : Dialect := { any with dynamic := false }

theorem Dialect.comparable_static {u : Universe} (lawful : u.Lawful .static) :
    Dialect.Comparable u false .static .static where
  left := lawful
  right := lawful
  leftFree := rfl
  rightFree := rfl
  uncapped := by simp

section Static

variable {u : Universe} (lawful : u.Lawful .static) {a b c : Ty} (aFit : a.fits u .static)
  (bFit : b.fits u .static) (cFit : c.fits u .static)

include lawful aFit bFit

theorem Ty.isSubtype_iff_of_static : a.isSubtype b ↔ Ty.Below false a b :=
  Ty.isSubtype_iff_below (Dialect.comparable_static lawful) aFit bFit

include cFit in
theorem Ty.isSubtype_trans_of_static (first : a.isSubtype b) (second : b.isSubtype c) :
    a.isSubtype c := by
  rw [Ty.isSubtype_iff_of_static lawful aFit bFit] at first
  rw [Ty.isSubtype_iff_of_static lawful bFit cFit] at second
  rw [Ty.isSubtype_iff_of_static lawful aFit cFit]
  have wide := Dialect.within_any .static
  exact first.trans (lawful.widen wide) (Ty.fits_widen wide aFit) (Ty.fits_widen wide bFit)
    (Ty.fits_widen wide cFit) second

theorem Ty.isEquivalent_iff_same_of_static : a.isEquivalent b ↔ a.same b := by
  rw [Ty.isEquivalent, Bool.and_eq_true]
  constructor
  · rintro ⟨up, down⟩
    rw [Ty.isSubtype_iff_of_static lawful aFit bFit] at up
    rw [Ty.isSubtype_iff_of_static lawful bFit aFit] at down
    have wide := Dialect.within_any .static
    rw [up.antisymm (lawful.widen wide) (Ty.fits_widen wide aFit) (Ty.fits_widen wide bFit) down]
    exact b.same_refl
  · exact Ty.subtypes_of_same

end Static

/-- Over a universe with any number of roots, the subtype test is a partial order on types
    without `dynamic`: it is reflexive and transitive, and equivalent types are the same. -/
theorem Universe.Built.isSubtype_partial_order {u : Universe} (built : u.Built .static true)
    {a b c : Ty} (aFit : a.fits u .static) (bFit : b.fits u .static) (cFit : c.fits u .static) :
    a.isSubtype a ∧ (a.isSubtype b → b.isSubtype c → a.isSubtype c) ∧
      (a.isEquivalent b ↔ a.same b) :=
  ⟨a.isSubtype_refl, Ty.isSubtype_trans_of_static built.lawful aFit bFit cFit,
    Ty.isEquivalent_iff_same_of_static built.lawful aFit bFit⟩

open Sample in
/-- Tuples over fallbacks of their own, with `void` and `error` inside, and a generic class. -/
theorem isSubtype_partial_order_rockyWorld :
    let a : Ty := .tuple [.void, function .error (one rock)] ⟨intList, []⟩
    let b : Ty := .tuple [.void, function .bottom (one rock)] ⟨Builtin.list, [one Builtin.object]⟩
    let c : Ty := listOf (one Builtin.object)
    (rockyWorld.Built .static true ∧ a.fits rockyWorld .static ∧ b.fits rockyWorld .static ∧
        c.fits rockyWorld .static) ∧
      a.isSubtype a ∧ (a.isSubtype b → b.isSubtype c → a.isSubtype c) ∧
        (a.isEquivalent b ↔ a.same b) := by
  intro a b c
  have built := built_rockyWorld.widen (Dialect.plain_within .static)
  have fit : ∀ t ∈ [a, b, c], t.fits rockyWorld .static := by decide +kernel
  have aFit : a.fits rockyWorld .static := fit a (by simp)
  have bFit : b.fits rockyWorld .static := fit b (by simp)
  have cFit : c.fits rockyWorld .static := fit c (by simp)
  exact ⟨⟨built, aFit, bFit, cFit⟩, built.isSubtype_partial_order aFit bFit cFit⟩

end TypeBounds
