import TypeBounds.Proofs.NearestBase
import TypeBounds.Proofs.Shapes

/-! # Meeting three types

Two types meet part by part if they are of one class or of one shape; else their meet
is the one below the other, or `bottom`. Where the arguments of bases are `dynamic` or
`bottom`, the classes alone say which is below. The classes are a forest, so of three
types that do not all meet part by part any two may meet first.
-/

namespace TypeBounds

/-- An instance of a class as the universe has it, or a callable or a tuple over its anchor,
    whatever is inside. -/
def Ty.Headed (u : Universe) : Ty → Prop
  | .inst i => i.Headed u
  | .callable _ _ fallback => fallback = Builtin.anchors.function
  | .tuple _ fallback => fallback = Builtin.anchors.tuple
  | _ => False

theorem Ty.headed_of_fits {u : Universe} {t : Ty} {s : Instance} (fit : t.fits u .anchored)
    (nominal : t.nominal? = some s) : t.Headed u := by
  cases t with
  | inst i => exact Instance.headed_of_fits fit
  | callable => exact (Ty.fits_callable_iff.mp fit).2.2.2.resolve_left (by decide)
  | tuple => exact (Ty.fits_tuple_iff.mp fit).2.2.resolve_left (by decide)
  | void | dynamic | bottom | error => cases nominal

theorem Ty.Headed.nominal {u : Universe} (lawful : u.Lawful .anchored) {t : Ty}
    (headed : t.Headed u) : ∃ s, t.nominal? = some s ∧ s.Headed u := by
  cases t with
  | inst i => exact ⟨i, rfl, headed⟩
  | callable =>
      refine ⟨_, rfl, ?_⟩
      rw [show _ = Builtin.anchors.function from headed]
      exact Instance.headed_of_fits lawful.function
  | tuple =>
      refine ⟨_, rfl, ?_⟩
      rw [show _ = Builtin.anchors.tuple from headed]
      exact Instance.headed_of_fits lawful.tuple
  | void | dynamic | bottom | error => cases headed

theorem Ty.Headed.of_nominal {u : Universe} (lawful : u.Lawful .anchored) {t : Ty} {s : Instance}
    (headed : t.Headed u) (nominal : t.nominal? = some s) : s.Headed u := by
  obtain ⟨_, nominal', sHeaded⟩ := headed.nominal lawful
  rwa [Option.some.inj (nominal.symm.trans nominal')]

/-- Callables with as many parameters or tuples with as many items. -/
def Ty.Matching : Ty → Ty → Prop
  | .callable params _ _, .callable params' _ _ => params.length = params'.length
  | .tuple items _, .tuple items' _ => items.length = items'.length
  | _, _ => False

/-- Types that meet part by part. -/
def Ty.Alike : Ty → Ty → Prop
  | .inst s, .inst t => s.name = t.name
  | a, b => a.Matching b

/-- A type of a class, or of a shape with a fallback, below the other class. -/
def Ty.Under : Ty → Ty → Prop
  | .inst s, .inst t => s.name ≠ t.name ∧ ∃ v, s.view? t.name = some v
  | .callable _ _ fallback, .inst t => ∃ v, fallback.view? t.name = some v
  | .tuple _ fallback, .inst t => ∃ v, fallback.view? t.name = some v
  | _, _ => False

def Ty.Apart (a b : Ty) : Prop := ¬ a.Alike b ∧ ¬ a.Under b ∧ ¬ b.Under a

theorem Ty.relation_cases (a b : Ty) : a.Alike b ∨ a.Under b ∨ b.Under a ∨ a.Apart b := by
  unfold Apart
  tauto

namespace Ty

theorem Alike.symm {a b : Ty} (alike : a.Alike b) : b.Alike a := by
  cases a <;> cases b <;> simp_all [Alike, Matching]

theorem Alike.trans {a b c : Ty} (first : a.Alike b) (second : b.Alike c) : a.Alike c := by
  cases a <;> cases b <;> cases c <;> simp_all [Alike, Matching]

theorem under_iff {a b : Ty} :
    a.Under b ↔ ¬ a.Alike b ∧
      ∃ s t v, a.nominal? = some s ∧ b = .inst t ∧ s.view? t.name = some v := by
  cases a <;> cases b <;> simp [Under, Alike, Matching, nominal?]

theorem Under.not_alike {a b : Ty} (under : a.Under b) : ¬ a.Alike b := (under_iff.mp under).1

theorem Alike.under_right {a b c : Ty} (alike : a.Alike b) (under : c.Under a) : c.Under b := by
  obtain ⟨other, s, t, v, nominal, rfl, seen⟩ := under_iff.mp under
  cases b with
  | inst r =>
      have names : t.name = r.name := alike
      refine under_iff.mpr ⟨?_, s, r, v, nominal, rfl, names ▸ seen⟩
      exact fun also => other (also.trans alike.symm)
  | callable | tuple | void | dynamic | bottom | error => cases alike

section Headed

variable {u : Universe} {a b c : Ty} (aHeaded : a.Headed u) (bHeaded : b.Headed u)
  (cHeaded : c.Headed u)

include aHeaded bHeaded

theorem Alike.under_left (alike : a.Alike b) (under : a.Under c) : b.Under c := by
  obtain ⟨-, s, r, v, nominal, rfl, seen⟩ := under_iff.mp under
  cases a with
  | inst =>
      cases nominal
      cases b with
      | inst t =>
          have names : s.name = t.name := alike
          have classes := Universe.eq_of_holds aHeaded.1 bHeaded.1 alike
          refine ⟨names ▸ under.1, v, ?_⟩
          rwa [← Instance.view?_congr classes under.1]
      | callable | tuple | void | dynamic | bottom | error => cases alike
  | callable =>
      cases nominal
      cases b with
      | callable =>
          refine ⟨v, ?_⟩
          rwa [show _ = Builtin.anchors.function from bHeaded,
            ← show s = Builtin.anchors.function from aHeaded]
      | inst | tuple | void | dynamic | bottom | error => cases alike
  | tuple =>
      cases nominal
      cases b with
      | tuple =>
          refine ⟨v, ?_⟩
          rwa [show _ = Builtin.anchors.tuple from bHeaded,
            ← show s = Builtin.anchors.tuple from aHeaded]
      | inst | callable | void | dynamic | bottom | error => cases alike
  | void | dynamic | bottom | error => cases nominal

theorem Alike.apart_left (alike : a.Alike b) (apart : a.Apart c) : b.Apart c := by
  obtain ⟨other, notUnder, notAbove⟩ := apart
  refine ⟨?_, ?_, ?_⟩
  · exact fun also => other (alike.trans also)
  · exact fun under => notUnder (alike.symm.under_left bHeaded aHeaded under)
  · exact fun above => notAbove (alike.symm.under_right above)

theorem Alike.apart_right (alike : a.Alike b) (apart : c.Apart a) : c.Apart b := by
  obtain ⟨other, notUnder, notAbove⟩ := apart
  refine ⟨?_, ?_, ?_⟩
  · exact fun also => other (also.trans alike.symm)
  · exact fun under => notUnder (alike.symm.under_right under)
  · exact fun above => notAbove (alike.symm.under_left bHeaded aHeaded above)

theorem meet_eq_lesser (other : ¬ a.Alike b) : a.meet b = Ty.lesser a b := by
  cases a <;> cases b <;> simp_all [Headed, Alike, Matching, Ty.meet, Ty.similar]

theorem Alike.meet (alike : a.Alike b) : (a.meet b).Alike b ∧ (a.meet b).Headed u := by
  cases a with
  | inst s =>
      cases b with
      | inst t =>
          have names : s.name = t.name := alike
          have lengths := aHeaded.length_eq bHeaded (Universe.eq_of_holds aHeaded.1 bHeaded.1 names)
          simp only [Ty.meet, names, lengths, beq_self_eq_true, Bool.and_self, if_true]
          refine ⟨names, aHeaded.1, ?_⟩
          rw [Ty.length_meetAll, ← lengths, Nat.min_self, aHeaded.2]
      | callable | tuple | void | dynamic | bottom | error => cases alike
  | callable params result fallback =>
      cases b with
      | callable params' result' fallback' =>
          have lengths : params.length = params'.length := alike
          rw [Ty.meet, if_pos ((Ty.similar_iff aHeaded bHeaded).2.mpr lengths)]
          refine ⟨?_, aHeaded⟩
          show (Ty.joinAll params params').length = params'.length
          rw [Ty.length_joinAll, lengths, Nat.min_self]
      | inst | tuple | void | dynamic | bottom | error => cases alike
  | tuple items fallback =>
      cases b with
      | tuple items' fallback' =>
          have lengths : items.length = items'.length := alike
          rw [Ty.meet, if_pos ((Ty.similar_iff aHeaded bHeaded).2.mpr lengths)]
          refine ⟨?_, aHeaded⟩
          show (Ty.meetAll items items').length = items'.length
          rw [Ty.length_meetAll, lengths, Nat.min_self]
      | inst | callable | void | dynamic | bottom | error => cases alike
  | void | dynamic | bottom | error => cases aHeaded

variable (lawful : u.Lawful .anchored)

include lawful

theorem Under.asymm (under : a.Under b) : ¬ b.Under a := by
  intro above
  obtain ⟨-, s, t, v, ofA, rfl, down⟩ := under_iff.mp under
  obtain ⟨-, t', s', w, ofB, rfl, up⟩ := under_iff.mp above
  cases ofA
  cases ofB
  exact under.1 (Instance.name_eq_of_view?_of_view? lawful.linked aHeaded.1 bHeaded.1 down up)

include cHeaded

theorem Under.trans (first : a.Under b) (second : b.Under c) : a.Under c := by
  obtain ⟨-, s, t, v, ofA, rfl, seen⟩ := under_iff.mp first
  obtain ⟨-, t', r, w, ofB, rfl, seen'⟩ := under_iff.mp second
  cases ofB
  have sHeaded := aHeaded.of_nominal lawful ofA
  have classes := Instance.cls_eq_of_view? lawful.linked sHeaded.1 bHeaded.1 seen
  have vSees : v.view? r.name = some w := by
    rwa [Instance.view?_congr classes (by rw [Instance.name, classes]; exact second.1)]
  refine under_iff.mpr ⟨?_, s, r, w, ofA, rfl, Instance.view?_trans lawful.linked sHeaded.1 seen vSees⟩
  intro alike
  exact second.asymm bHeaded cHeaded lawful (alike.under_left aHeaded cHeaded first)

theorem Under.total (left : a.Under b) (right : a.Under c) : ¬ b.Apart c := by
  obtain ⟨-, s, t, v, ofA, rfl, seen⟩ := under_iff.mp left
  obtain ⟨-, s', r, w, ofA', rfl, seen'⟩ := under_iff.mp right
  obtain rfl := Option.some.inj (ofA.symm.trans ofA')
  have sHeaded := aHeaded.of_nominal lawful ofA
  have classes := Instance.cls_eq_of_view? lawful.linked sHeaded.1 bHeaded.1 seen
  have classes' := Instance.cls_eq_of_view? lawful.linked sHeaded.1 cHeaded.1 seen'
  rintro ⟨names, notUnder, notAbove⟩
  rcases Instance.view?_total lawful.linked sHeaded.1 seen seen' with between | between
  · rw [Instance.view?_congr classes (by rwa [Instance.name, classes])] at between
    exact notUnder ⟨names, w, between⟩
  · rw [Instance.view?_congr classes' (by rw [Instance.name, classes']; exact Ne.symm names)]
      at between
    exact notAbove ⟨Ne.symm names, v, between⟩

theorem Under.apart (under : a.Under b) (apart : b.Apart c) : a.Apart c := by
  refine ⟨?_, ?_, ?_⟩
  · exact fun alike => apart.2.2 (alike.under_left aHeaded cHeaded under)
  · exact fun also => under.total aHeaded bHeaded cHeaded lawful also apart
  · exact fun above => apart.2.2 (above.trans cHeaded aHeaded bHeaded lawful under)

end Headed

theorem Apart.symm {a b : Ty} (apart : a.Apart b) : b.Apart a :=
  ⟨fun alike => apart.1 alike.symm, apart.2.2, apart.2.1⟩

theorem allSubtypes_of_loose {xs ys : List Ty} (loose : ∀ x ∈ xs, x = .dynamic ∨ x = .bottom)
    (lengths : xs.length = ys.length) : Ty.allSubtypes xs ys := by
  induction xs generalizing ys with
  | nil =>
      cases ys with
      | nil => rw [Ty.allSubtypes]
      | cons => cases lengths
  | cons x xs ih =>
      rw [List.forall_mem_cons] at loose
      cases ys with
      | nil => cases lengths
      | cons y ys =>
          have head : x.isSubtype y := by
            rcases loose.1 with rfl | rfl
            · rw [Ty.isSubtype]
            · cases y <;> simp [Ty.isSubtype]
          rw [Ty.allSubtypes, head, ih loose.2 (by simpa using lengths), Bool.and_self]

theorem bare_of_anchor {s v : Instance} {n : String}
    (anchor : s = Builtin.anchors.function ∨ s = Builtin.anchors.tuple)
    (seen : s.view? n = some v) : v.args = [] := by
  have all : ∀ s ∈ [Builtin.anchors.function, Builtin.anchors.tuple], ∀ v ∈ s.ancestry,
      v.args = [] := by decide
  exact all s (by simpa using anchor) v (Instance.mem_ancestry_of_view? seen)

theorem isSubtype_inst {a : Ty} {s t : Instance} (nominal : a.nominal? = some s) :
    a.isSubtype (.inst t) = s.isSubtype t := by
  cases a <;> cases nominal <;> rw [Ty.isSubtype]

section Loose

variable {u : Universe} (lawful : u.Lawful .anchored) (loose : u.Loose) {a b c : Ty}
  (aHeaded : a.Headed u) (bHeaded : b.Headed u) (cHeaded : c.Headed u)

include lawful aHeaded bHeaded

omit bHeaded in
include loose in
theorem Under.loose_of_view? {s t v : Instance} (under : a.Under (.inst t))
    (nominal : a.nominal? = some s) (seen : s.view? t.name = some v) :
    ∀ x ∈ v.args, x = .dynamic ∨ x = .bottom := by
  cases a with
  | inst =>
      cases nominal
      exact Instance.loose_of_view? lawful.linked loose aHeaded.1 seen under.1
  | callable =>
      cases nominal
      simp [bare_of_anchor (.inl aHeaded) seen]
  | tuple =>
      cases nominal
      simp [bare_of_anchor (.inr aHeaded) seen]
  | void | dynamic | bottom | error => cases nominal

theorem under_iff_isSubtype (loose : u.Loose) (other : ¬ a.Alike b) :
    a.isSubtype b ↔ a.Under b := by
  obtain ⟨s, ofA, sHeaded⟩ := aHeaded.nominal lawful
  cases b with
  | inst t =>
      rw [isSubtype_inst ofA, Instance.isSubtype_iff]
      constructor
      · rintro ⟨v, seen, -⟩
        exact under_iff.mpr ⟨other, s, t, v, ofA, rfl, seen⟩
      · intro under
        obtain ⟨-, s', t', v, ofA', eq, seen⟩ := under_iff.mp under
        cases eq
        obtain rfl := Option.some.inj (ofA.symm.trans ofA')
        have classes := Instance.cls_eq_of_view? lawful.linked sHeaded.1 bHeaded.1 seen
        have lengths := (sHeaded.of_view? lawful.linked seen).length_eq bHeaded classes
        have args := under.loose_of_view? lawful loose aHeaded ofA seen
        exact ⟨v, seen, allSubtypes_of_loose args lengths⟩
  | callable =>
      refine iff_of_false (fun below => other ?_) (by cases a <;> simp [Under])
      cases a with
      | callable =>
          simp only [Ty.isSubtype, Bool.and_eq_true] at below
          exact (Ty.length_eq_of_allSubtypes below.1.1).symm
      | inst | tuple => simp [Ty.isSubtype] at below
      | void | dynamic | bottom | error => cases aHeaded
  | tuple =>
      refine iff_of_false (fun below => other ?_) (by cases a <;> simp [Under])
      cases a with
      | tuple =>
          simp only [Ty.isSubtype, Bool.and_eq_true] at below
          exact Ty.length_eq_of_allSubtypes below.1
      | inst | callable => simp [Ty.isSubtype] at below
      | void | dynamic | bottom | error => cases aHeaded
  | void | dynamic | bottom | error => cases bHeaded

include loose

theorem Under.meet_eq_left (under : a.Under b) : a.meet b = a := by
  have below := (under_iff_isSubtype lawful aHeaded bHeaded loose under.not_alike).mpr under
  rw [meet_eq_lesser aHeaded bHeaded under.not_alike, Ty.lesser, if_pos below]

theorem Under.meet_eq_right (above : b.Under a) : a.meet b = b := by
  have other : ¬ a.Alike b := fun alike => above.not_alike alike.symm
  have below := (under_iff_isSubtype lawful bHeaded aHeaded loose above.not_alike).mpr above
  have notBelow := mt (under_iff_isSubtype lawful aHeaded bHeaded loose other).mp
    (above.asymm bHeaded aHeaded lawful)
  rw [meet_eq_lesser aHeaded bHeaded other, Ty.lesser, if_neg notBelow, if_pos below]

theorem Apart.meet_eq (apart : a.Apart b) : a.meet b = .bottom := by
  have notBelow := mt (under_iff_isSubtype lawful aHeaded bHeaded loose apart.1).mp apart.2.1
  have notAbove := mt (under_iff_isSubtype lawful bHeaded aHeaded loose apart.symm.1).mp apart.2.2
  rw [meet_eq_lesser aHeaded bHeaded apart.1, Ty.lesser, if_neg notBelow, if_neg notAbove]

omit lawful loose bHeaded in
theorem Headed.meet_bottom : a.meet .bottom = .bottom ∧ Ty.bottom.meet a = .bottom := by
  cases a with
  | inst | callable | tuple => simp [Ty.meet]
  | void | dynamic | bottom | error => cases aHeaded

include cHeaded

theorem meet_assoc_of_alike (alike : a.Alike b) (other : ¬ b.Alike c) :
    (a.meet b).meet c = a.meet (b.meet c) := by
  obtain ⟨kind, headed⟩ := alike.meet aHeaded bHeaded
  rcases relation_cases b c with same | under | above | apart
  · exact absurd same other
  · have under' := kind.symm.under_left bHeaded headed under
    rw [under.meet_eq_left lawful loose bHeaded cHeaded,
      under'.meet_eq_left lawful loose headed cHeaded]
  · have above' := alike.symm.under_right above
    have above'' := kind.symm.under_right above
    rw [above.meet_eq_right lawful loose bHeaded cHeaded,
      above'.meet_eq_right lawful loose aHeaded cHeaded,
      above''.meet_eq_right lawful loose headed cHeaded]
  · have apart' := kind.symm.apart_left bHeaded headed apart
    rw [apart.meet_eq lawful loose bHeaded cHeaded, apart'.meet_eq lawful loose headed cHeaded,
      aHeaded.meet_bottom.1]

theorem meet_assoc_of_under (first : a.Under b) : (a.meet b).meet c = a.meet (b.meet c) := by
  rw [first.meet_eq_left lawful loose aHeaded bHeaded]
  rcases relation_cases b c with alike | under | above | apart
  · obtain ⟨kind, headed⟩ := alike.meet bHeaded cHeaded
    have under' := alike.under_right first
    have under'' := (kind.trans alike.symm).symm.under_right first
    rw [under'.meet_eq_left lawful loose aHeaded cHeaded,
      under''.meet_eq_left lawful loose aHeaded headed]
  · have under' := first.trans aHeaded bHeaded cHeaded lawful under
    rw [under.meet_eq_left lawful loose bHeaded cHeaded,
      first.meet_eq_left lawful loose aHeaded bHeaded,
      under'.meet_eq_left lawful loose aHeaded cHeaded]
  · rw [above.meet_eq_right lawful loose bHeaded cHeaded]
  · have apart' := first.apart aHeaded bHeaded cHeaded lawful apart
    rw [apart.meet_eq lawful loose bHeaded cHeaded, apart'.meet_eq lawful loose aHeaded cHeaded,
      aHeaded.meet_bottom.1]

theorem meet_assoc_of_above (first : b.Under a) : (a.meet b).meet c = a.meet (b.meet c) := by
  rw [first.meet_eq_right lawful loose aHeaded bHeaded]
  rcases relation_cases b c with alike | under | above | apart
  · obtain ⟨kind, headed⟩ := alike.meet bHeaded cHeaded
    have above' := (kind.trans alike.symm).symm.under_left bHeaded headed first
    rw [above'.meet_eq_right lawful loose aHeaded headed]
  · rw [under.meet_eq_left lawful loose bHeaded cHeaded,
      first.meet_eq_right lawful loose aHeaded bHeaded]
  · have above' := above.trans cHeaded bHeaded aHeaded lawful first
    rw [above.meet_eq_right lawful loose bHeaded cHeaded,
      above'.meet_eq_right lawful loose aHeaded cHeaded]
  · rw [apart.meet_eq lawful loose bHeaded cHeaded, aHeaded.meet_bottom.1]

theorem meet_assoc_of_apart (first : a.Apart b) : (a.meet b).meet c = a.meet (b.meet c) := by
  rw [first.meet_eq lawful loose aHeaded bHeaded, cHeaded.meet_bottom.2]
  rcases relation_cases b c with alike | under | above | apart
  · obtain ⟨kind, headed⟩ := alike.meet bHeaded cHeaded
    have apart' := (kind.trans alike.symm).symm.apart_right bHeaded headed first
    rw [apart'.meet_eq lawful loose aHeaded headed]
  · rw [under.meet_eq_left lawful loose bHeaded cHeaded,
      first.meet_eq lawful loose aHeaded bHeaded]
  · have apart' := (above.apart cHeaded bHeaded aHeaded lawful first.symm).symm
    rw [above.meet_eq_right lawful loose bHeaded cHeaded,
      apart'.meet_eq lawful loose aHeaded cHeaded]
  · rw [apart.meet_eq lawful loose bHeaded cHeaded, aHeaded.meet_bottom.1]

/-- Any two of three types may meet first, if this is so where all three meet part by part. -/
theorem meet_assoc_of_parts
    (parts : a.Alike b → b.Alike c → (a.meet b).meet c = a.meet (b.meet c)) :
    (a.meet b).meet c = a.meet (b.meet c) := by
  rcases relation_cases a b with alike | under | above | apart
  · by_cases same : b.Alike c
    · exact parts alike same
    · exact meet_assoc_of_alike lawful loose aHeaded bHeaded cHeaded alike same
  · exact meet_assoc_of_under lawful loose aHeaded bHeaded cHeaded under
  · exact meet_assoc_of_above lawful loose aHeaded bHeaded cHeaded above
  · exact meet_assoc_of_apart lawful loose aHeaded bHeaded cHeaded apart

end Loose

end Ty

end TypeBounds
