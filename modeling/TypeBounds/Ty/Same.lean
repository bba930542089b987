import TypeBounds.Ty

/-! # Two ways to compare types

`Ty.same` compares the shape of types and the names of classes, so two
hierarchies that name a class alike agree on it. Equality of values also
compares serial numbers and bases, and is decided here.
-/

namespace TypeBounds

mutual
/-- Same shape, with classes compared by name. -/
def Ty.same : Ty → Ty → Bool
  | .inst i, .inst j => i.same j
  | .callable params result fallback, .callable params' result' fallback' =>
      Ty.sameAll params params' && result.same result' && fallback.same fallback'
  | .tuple items fallback, .tuple items' fallback' =>
      Ty.sameAll items items' && fallback.same fallback'
  | .void, .void => true
  | .dynamic, .dynamic => true
  | .bottom, .bottom => true
  | .error, .error => true
  | _, _ => false

def Instance.same : Instance → Instance → Bool
  | ⟨c, args⟩, ⟨d, args'⟩ => c.name == d.name && Ty.sameAll args args'

def Ty.sameAll : List Ty → List Ty → Bool
  | [], [] => true
  | a :: as, b :: bs => a.same b && Ty.sameAll as bs
  | _, _ => false
end

mutual
theorem Ty.same_refl (t : Ty) : t.same t := by
  cases t with
  | inst i => exact Instance.same_refl i
  | callable params result fallback =>
      simp only [Ty.same, Ty.sameAll_refl params, Ty.same_refl result,
        Instance.same_refl fallback, Bool.and_self]
  | tuple items fallback =>
      simp only [Ty.same, Ty.sameAll_refl items, Instance.same_refl fallback, Bool.and_self]
  | void | dynamic | bottom | error => rfl

theorem Instance.same_refl (i : Instance) : i.same i := by
  cases i with
  | mk c args => simp only [Instance.same, Ty.sameAll_refl args, beq_self_eq_true, Bool.and_self]

theorem Ty.sameAll_refl (ts : List Ty) : Ty.sameAll ts ts := by
  cases ts with
  | nil => rfl
  | cons t ts => simp only [Ty.sameAll, Ty.same_refl t, Ty.sameAll_refl ts, Bool.and_self]
end

mutual
/-- Decides equality of classes as values: the same declaration. -/
def Class.is : Class → Class → Bool
  | ⟨serial, name, arity, none⟩, ⟨serial', name', arity', none⟩ =>
      serial == serial' && name == name' && arity == arity'
  | ⟨serial, name, arity, some base⟩, ⟨serial', name', arity', some base'⟩ =>
      serial == serial' && name == name' && arity == arity' && base.is base'
  | _, _ => false

def Instance.is : Instance → Instance → Bool
  | ⟨c, args⟩, ⟨d, args'⟩ => c.is d && Ty.isAll args args'

def Ty.is : Ty → Ty → Bool
  | .inst i, .inst j => i.is j
  | .callable params result fallback, .callable params' result' fallback' =>
      Ty.isAll params params' && result.is result' && fallback.is fallback'
  | .tuple items fallback, .tuple items' fallback' =>
      Ty.isAll items items' && fallback.is fallback'
  | .void, .void => true
  | .dynamic, .dynamic => true
  | .bottom, .bottom => true
  | .error, .error => true
  | _, _ => false

def Ty.isAll : List Ty → List Ty → Bool
  | [], [] => true
  | a :: as, b :: bs => a.is b && Ty.isAll as bs
  | _, _ => false
end

mutual
theorem Class.is_iff_eq (c d : Class) : c.is d = true ↔ c = d := by
  match c, d with
  | ⟨_, _, _, none⟩, ⟨_, _, _, none⟩ => simp [Class.is, and_assoc]
  | ⟨_, _, _, none⟩, ⟨_, _, _, some _⟩ => simp [Class.is]
  | ⟨_, _, _, some _⟩, ⟨_, _, _, none⟩ => simp [Class.is]
  | ⟨_, _, _, some base⟩, ⟨_, _, _, some base'⟩ =>
      simp [Class.is, and_assoc, Instance.is_iff_eq base base']

theorem Instance.is_iff_eq (i j : Instance) : i.is j = true ↔ i = j := by
  match i, j with
  | ⟨c, args⟩, ⟨d, args'⟩ =>
      simp [Instance.is, Class.is_iff_eq c d, Ty.isAll_iff_eq args args']

theorem Ty.is_iff_eq (a b : Ty) : a.is b = true ↔ a = b := by
  match a, b with
  | .inst i, .inst j => simp [Ty.is, Instance.is_iff_eq i j]
  | .callable params result fallback, .callable params' result' fallback' =>
      simp [Ty.is, and_assoc, Ty.isAll_iff_eq params params', Ty.is_iff_eq result result',
        Instance.is_iff_eq fallback fallback']
  | .tuple items fallback, .tuple items' fallback' =>
      simp [Ty.is, Ty.isAll_iff_eq items items', Instance.is_iff_eq fallback fallback']
  | .inst _, .callable .. | .inst _, .tuple .. | .inst _, .void | .inst _, .dynamic
  | .inst _, .bottom | .inst _, .error => simp [Ty.is]
  | .callable .., .inst _ | .callable .., .tuple .. | .callable .., .void
  | .callable .., .dynamic | .callable .., .bottom | .callable .., .error => simp [Ty.is]
  | .tuple .., .inst _ | .tuple .., .callable .. | .tuple .., .void | .tuple .., .dynamic
  | .tuple .., .bottom | .tuple .., .error => simp [Ty.is]
  | .void, b => cases b <;> simp [Ty.is]
  | .dynamic, b => cases b <;> simp [Ty.is]
  | .bottom, b => cases b <;> simp [Ty.is]
  | .error, b => cases b <;> simp [Ty.is]

theorem Ty.isAll_iff_eq (as bs : List Ty) : Ty.isAll as bs = true ↔ as = bs := by
  match as, bs with
  | [], [] => simp [Ty.isAll]
  | [], _ :: _ => simp [Ty.isAll]
  | _ :: _, [] => simp [Ty.isAll]
  | a :: as, b :: bs => simp [Ty.isAll, Ty.is_iff_eq a b, Ty.isAll_iff_eq as bs]
end

instance : DecidableEq Class := fun c d => decidable_of_iff _ (Class.is_iff_eq c d)

instance : DecidableEq Instance := fun i j => decidable_of_iff _ (Instance.is_iff_eq i j)

instance : DecidableEq Ty := fun a b => decidable_of_iff _ (Ty.is_iff_eq a b)

end TypeBounds
