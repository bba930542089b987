import TypeBounds.Order.Extrema
import TypeBounds.Proofs.Growth
import Mathlib.Data.List.Infix

/-! # Ancestries in a lawful universe

The ancestry of an instance is a chain. In a lawful universe its names are
distinct, because a class above another one is smaller than it; so an instance has
one view under each name in its ancestry, and a view of a view is a view. The
nearest common base of two instances is below all their other common bases.
-/

namespace TypeBounds

theorem Class.suffix_of_mem_bases {c : Class} {i : Instance} (member : i ∈ c.bases) :
    i.ancestry <:+ c.bases := by
  fun_induction bases c with
  | case1 => simp at member
  | case2 serial name arity c args ih =>
      rcases List.mem_cons.mp member with rfl | above
      · exact List.suffix_rfl
      · exact (ih above).trans (List.suffix_cons _ _)

namespace Instance

theorem mem_ancestry_self (s : Instance) : s ∈ s.ancestry := List.mem_cons_self

theorem suffix_of_mem_ancestry {s v : Instance} (member : v ∈ s.ancestry) :
    v.ancestry <:+ s.ancestry := by
  rcases List.mem_cons.mp member with rfl | above
  · exact List.suffix_rfl
  · exact (Class.suffix_of_mem_bases above).trans (List.suffix_cons _ _)

theorem mem_ancestry_trans {s v w : Instance} (first : v ∈ s.ancestry) (second : w ∈ v.ancestry) :
    w ∈ s.ancestry :=
  (suffix_of_mem_ancestry first).mem second

theorem mem_ancestry_total {s v w : Instance} (left : v ∈ s.ancestry) (right : w ∈ s.ancestry) :
    w ∈ v.ancestry ∨ v ∈ w.ancestry := by
  have chain := List.suffix_or_suffix_of_suffix (suffix_of_mem_ancestry left)
    (suffix_of_mem_ancestry right)
  exact chain.symm.imp (·.mem w.mem_ancestry_self) (·.mem v.mem_ancestry_self)

theorem sizeOf_cls_lt {i : Instance} {c : Class} (above : i ∈ c.bases) :
    sizeOf i.cls < sizeOf c := by
  have smaller := Class.sizeOf_lt_of_mem_bases above
  cases i
  simp only [Instance.mk.sizeOf_spec] at smaller ⊢
  omega

theorem name_eq_of_view? {s v : Instance} {n : String} (seen : s.view? n = some v) :
    v.name = n := by
  simpa using List.find?_some seen

theorem view?_self (s : Instance) : s.view? s.name = some s := by
  simp [view?, ancestry]

theorem view?_congr {s t : Instance} {n : String} (classes : s.cls = t.cls) (other : s.name ≠ n) :
    s.view? n = t.view? n := by
  have other' : t.name ≠ n := by rwa [name, ← classes]
  simp [view?, ancestry, other, other', classes]

theorem mem_bases_of_view? {s v : Instance} {n : String} (seen : s.view? n = some v)
    (other : s.name ≠ n) : v ∈ s.cls.bases := by
  rcases List.mem_cons.mp (mem_ancestry_of_view? seen) with rfl | above
  · exact absurd (name_eq_of_view? seen) other
  · exact above

section Lawful

variable {u : Universe} {d : Dialect} (lawful : u.Lawful d)

include lawful

theorem fits_of_mem_bases {c : Class} {i : Instance} (held : u.holds c) (above : i ∈ c.bases) :
    i.fits u d := by
  fun_induction Class.bases c with
  | case1 => simp at above
  | case2 serial name arity c args ih =>
      have base : Instance.fits u d ⟨c, args⟩ := lawful.base held rfl
      rcases List.mem_cons.mp above with rfl | further
      · exact base
      · exact ih (fits_iff.mp base).1 further

theorem fits_of_mem_ancestry {s v : Instance} (fit : s.fits u d) (member : v ∈ s.ancestry) :
    v.fits u d := by
  rcases List.mem_cons.mp member with rfl | above
  · exact fit
  · exact fits_of_mem_bases lawful (fits_iff.mp fit).1 above

theorem fits_of_view? {s v : Instance} {n : String} (fit : s.fits u d)
    (seen : s.view? n = some v) : v.fits u d :=
  fits_of_mem_ancestry lawful fit (mem_ancestry_of_view? seen)

end Lawful

section Linked

variable {u : Universe} (linked : u.Linked)

include linked

theorem linked_of_mem_bases {c : Class} {i : Instance} (held : u.holds c) (above : i ∈ c.bases) :
    u.holds i.cls ∧ (i.args.length : Int) = i.cls.arity := by
  fun_induction Class.bases c with
  | case1 => simp at above
  | case2 serial name arity c args ih =>
      have base := linked held rfl
      rcases List.mem_cons.mp above with rfl | further
      · exact base
      · exact ih base.1 further

theorem holds_of_mem_ancestry {s v : Instance} (held : u.holds s.cls) (member : v ∈ s.ancestry) :
    u.holds v.cls := by
  rcases List.mem_cons.mp member with rfl | above
  · exact held
  · exact (linked_of_mem_bases linked held above).1

/-- A class that the universe holds is not among its own bases, not even by name. -/
theorem name_ne_of_mem_bases {c : Class} {i : Instance} (held : u.holds c) (above : i ∈ c.bases) :
    i.name ≠ c.name := by
  intro names
  have baseHeld := (linked_of_mem_bases linked held above).1
  have smaller := sizeOf_cls_lt above
  rw [Universe.eq_of_holds baseHeld held names] at smaller
  exact Nat.lt_irrefl _ smaller

theorem eq_of_mem_ancestry {s v w : Instance} (held : u.holds s.cls) (left : v ∈ s.ancestry)
    (right : w ∈ s.ancestry) (names : v.name = w.name) : v = w := by
  rcases mem_ancestry_total left right with above | above
  · rcases List.mem_cons.mp above with rfl | strictly
    · rfl
    · have vHeld := holds_of_mem_ancestry linked held left
      exact absurd names.symm (name_ne_of_mem_bases linked vHeld strictly)
  · rcases List.mem_cons.mp above with rfl | strictly
    · rfl
    · have wHeld := holds_of_mem_ancestry linked held right
      exact absurd names (name_ne_of_mem_bases linked wHeld strictly)

theorem view?_eq_some_iff {s v : Instance} {n : String} (held : u.holds s.cls) :
    s.view? n = some v ↔ v ∈ s.ancestry ∧ v.name = n := by
  constructor
  · exact fun seen => ⟨mem_ancestry_of_view? seen, name_eq_of_view? seen⟩
  · rintro ⟨member, rfl⟩
    have found : (s.view? v.name).isSome :=
      List.find?_isSome.mpr ⟨v, member, by simp⟩
    obtain ⟨w, seen⟩ := Option.isSome_iff_exists.mp found
    rw [seen, eq_of_mem_ancestry linked held (mem_ancestry_of_view? seen) member
      (name_eq_of_view? seen)]

theorem view?_trans {s v w : Instance} {n m : String} (held : u.holds s.cls)
    (first : s.view? n = some v) (second : v.view? m = some w) : s.view? m = some w :=
  (view?_eq_some_iff linked held).mpr
    ⟨mem_ancestry_trans (mem_ancestry_of_view? first) (mem_ancestry_of_view? second),
      name_eq_of_view? second⟩

theorem view?_total {s v w : Instance} {n m : String} (held : u.holds s.cls)
    (left : s.view? n = some v) (right : s.view? m = some w) :
    v.view? m = some w ∨ w.view? n = some v := by
  obtain ⟨leftMember, rfl⟩ := (view?_eq_some_iff linked held).mp left
  obtain ⟨rightMember, rfl⟩ := (view?_eq_some_iff linked held).mp right
  rcases mem_ancestry_total leftMember rightMember with above | above
  · have vHeld := holds_of_mem_ancestry linked held leftMember
    exact .inl ((view?_eq_some_iff linked vHeld).mpr ⟨above, rfl⟩)
  · have wHeld := holds_of_mem_ancestry linked held rightMember
    exact .inr ((view?_eq_some_iff linked wHeld).mpr ⟨above, rfl⟩)

theorem cls_eq_of_view? {s t v : Instance} (held : u.holds s.cls) (targetHeld : u.holds t.cls)
    (seen : s.view? t.name = some v) : v.cls = t.cls :=
  Universe.eq_of_holds (holds_of_mem_ancestry linked held (mem_ancestry_of_view? seen)) targetHeld
    (name_eq_of_view? seen)

theorem name_eq_of_view?_of_view? {s t v w : Instance} (sHeld : u.holds s.cls)
    (tHeld : u.holds t.cls) (down : s.view? t.name = some v) (up : t.view? s.name = some w) :
    s.name = t.name := by
  by_contra other
  have below := sizeOf_cls_lt (mem_bases_of_view? down other)
  have above := sizeOf_cls_lt (mem_bases_of_view? up (Ne.symm other))
  rw [cls_eq_of_view? linked sHeld tHeld down] at below
  rw [cls_eq_of_view? linked tHeld sHeld up] at above
  exact Nat.lt_asymm below above

end Linked

theorem commonBase?_eq_none {s t : Instance} (absent : s.commonBase? t = none) {n : String}
    {v w : Instance} (left : s.view? n = some v) (right : t.view? n = some w) : False := by
  have nothing := List.findSome?_eq_none_iff.mp absent v (mem_ancestry_of_view? left)
  rw [name_eq_of_view? left, right] at nothing
  simp at nothing

/-- The first of the bases that `t` has too is below all the others that it has. -/
theorem mem_ancestry_of_first {c : Class} {t a view v : Instance}
    (first : c.bases.findSome? (fun a => (t.view? a.name).map fun view => (a, view)) =
      some (a, view))
    (member : v ∈ c.bases) (shared : (t.view? v.name).isSome) : v ∈ a.ancestry := by
  fun_induction Class.bases c with
  | case1 => simp at member
  | case2 serial name arity c args ih =>
      rw [List.findSome?_cons] at first
      cases here : t.view? (Instance.name ⟨c, args⟩) with
      | some seen =>
          rw [here] at first
          obtain ⟨rfl, -⟩ := Prod.mk.inj (Option.some.inj first)
          exact member
      | none =>
          rw [here] at first
          rcases List.mem_cons.mp member with rfl | above
          · simp [here] at shared
          · exact ih first above

section CommonBase

variable {u : Universe} (linked : u.Linked) {s t a view : Instance}
  (sHeld : u.holds s.cls) (tHeld : u.holds t.cls) (found : s.commonBase? t = some (a, view))

include found

theorem view?_commonBase_right : t.view? a.name = some view := (commonBase?_eq_some found).2

/-- Under the name of the nearest common base the first instance is seen as that base: another
    one of this name before it would have been found first. -/
theorem view?_commonBase_left : s.view? a.name = some a := by
  obtain ⟨before, b, after, chain, here, skipped⟩ := List.findSome?_eq_some_iff.mp found
  obtain ⟨v, seen, pair⟩ := Option.map_eq_some_iff.mp here
  obtain ⟨rfl, rfl⟩ := Prod.mk.inj pair
  refine List.find?_eq_some_iff_append.mpr ⟨by simp, before, after, chain, ?_⟩
  intro i member
  have unseen := skipped i member
  rw [Option.map_eq_none_iff] at unseen
  suffices i.name ≠ b.name by simpa using this
  intro names
  rw [names, seen] at unseen
  cases unseen

include linked sHeld

/-- Every common base is above the nearest one. -/
theorem commonBase?_nearest {n : String} {v w : Instance} (left : s.view? n = some v)
    (right : t.view? n = some w) : a.view? n = some v := by
  obtain ⟨member, rfl⟩ := (view?_eq_some_iff linked sHeld).mp left
  have aMember := (commonBase?_eq_some found).1
  have aHeld := holds_of_mem_ancestry linked sHeld aMember
  refine (view?_eq_some_iff linked aHeld).mpr ⟨?_, rfl⟩
  simp only [commonBase?, ancestry, List.findSome?_cons] at found
  cases here : t.view? s.name with
  | some seen =>
      rw [here] at found
      obtain ⟨rfl, -⟩ := Prod.mk.inj (Option.some.inj found)
      exact member
  | none =>
      rw [here] at found
      rcases List.mem_cons.mp member with rfl | above
      · rw [here] at right
        cases right
      · exact mem_ancestry_of_first found above (by simp [right])

include tHeld

theorem cls_eq_of_commonBase? : view.cls = a.cls :=
  cls_eq_of_view? linked tHeld
    (holds_of_mem_ancestry linked sHeld (commonBase?_eq_some found).1)
    (view?_commonBase_right found)

end CommonBase

end Instance

end TypeBounds
