import TypeBounds.Order.Lattice

/-! # Types with parts missing

A sketch is a type of which any part may be missing: an item, an argument of a base, the
class of an instance. The operations on types are done on sketches step by step, so that
they can go wrong: they may come upon a missing part, run past the end of a list or go
deeper than they are allowed to. A type is a sketch with nothing missing.
-/

namespace TypeBounds

mutual
structure SketchClass where
  serial : Nat
  name : String
  arity : Int
  base : Option SketchInstance

structure SketchInstance where
  /-- Missing if the instance was given no class. -/
  cls : Option SketchClass
  args : List Sketch

inductive Sketch where
  /-- Stands where a type is missing. -/
  | absent
  | inst (i : SketchInstance)
  | callable (params : List Sketch) (result : Sketch) (fallback : SketchInstance)
  | tuple (items : List Sketch) (fallback : SketchInstance)
  | void
  | dynamic
  | bottom
  | error
end

/-- What can go wrong on the way. -/
inductive Mishap where
  /-- There is no rule for joining the two. -/
  | join (s t : Sketch)
  /-- There is no rule for what is below the sketch. -/
  | comparison (s : Sketch)
  /-- A class is looked at that is missing. -/
  | noClass
  /-- A list is at its end before the one it is combined with. -/
  | pastEnd
  | tooDeep

mutual
def Class.sketch : Class → SketchClass
  | ⟨serial, name, arity, none⟩ => ⟨serial, name, arity, none⟩
  | ⟨serial, name, arity, some base⟩ => ⟨serial, name, arity, some base.sketch⟩

def Instance.sketch : Instance → SketchInstance
  | ⟨c, args⟩ => ⟨some c.sketch, Ty.sketchAll args⟩

def Ty.sketch : Ty → Sketch
  | .inst i => .inst i.sketch
  | .callable params result fallback =>
      .callable (Ty.sketchAll params) result.sketch fallback.sketch
  | .tuple items fallback => .tuple (Ty.sketchAll items) fallback.sketch
  | .void => .void
  | .dynamic => .dynamic
  | .bottom => .bottom
  | .error => .error

def Ty.sketchAll : List Ty → List Sketch
  | [] => []
  | t :: ts => t.sketch :: Ty.sketchAll ts
end

/-- Where there is no bound, a type is missing. -/
def Bound.sketch : Bound → Sketch
  | none => .absent
  | some t => t.sketch

def Undefined.mishap : Undefined → Mishap
  | .join s t => .join s.sketch t.sketch
  | .comparison => .comparison .absent

mutual
def SketchClass.complete : SketchClass → Bool
  | ⟨_, _, _, none⟩ => true
  | ⟨_, _, _, some base⟩ => base.complete

def SketchInstance.complete : SketchInstance → Bool
  | ⟨none, _⟩ => false
  | ⟨some c, args⟩ => c.complete && Sketch.allComplete args

/-- Nothing is missing, neither in the sketch nor in the bases of its classes. -/
def Sketch.complete : Sketch → Bool
  | .absent => false
  | .inst i => i.complete
  | .callable params result fallback =>
      Sketch.allComplete params && result.complete && fallback.complete
  | .tuple items fallback => Sketch.allComplete items && fallback.complete
  | _ => true

def Sketch.allComplete : List Sketch → Bool
  | [] => true
  | s :: rest => s.complete && Sketch.allComplete rest
end

namespace SketchInstance

/-- The class, to be looked at. -/
def theClass : SketchInstance → Except Mishap SketchClass
  | ⟨none, _⟩ => .error .noClass
  | ⟨some c, _⟩ => .ok c

/-- The name to print, also for a missing class. -/
def name : SketchInstance → String
  | ⟨none, _⟩ => "<nil>"
  | ⟨some c, _⟩ => c.name

/-- The instance followed by its bases. -/
def ancestry : SketchInstance → Except Mishap (List SketchInstance)
  | ⟨none, _⟩ => .error .noClass
  | ⟨some ⟨serial, name, arity, none⟩, args⟩ => .ok [⟨some ⟨serial, name, arity, none⟩, args⟩]
  | ⟨some ⟨serial, name, arity, some base⟩, args⟩ =>
      base.ancestry.map (⟨some ⟨serial, name, arity, some base⟩, args⟩ :: ·)

/-- Walk up the bases to the first one of that name. -/
def view (name : String) : SketchInstance → Except Mishap (Option SketchInstance)
  | ⟨none, _⟩ => .error .noClass
  | ⟨some ⟨serial, n, arity, none⟩, args⟩ =>
      .ok (if n = name then some ⟨some ⟨serial, n, arity, none⟩, args⟩ else none)
  | ⟨some ⟨serial, n, arity, some base⟩, args⟩ =>
      if n = name then .ok (some ⟨some ⟨serial, n, arity, some base⟩, args⟩) else base.view name

end SketchInstance

/-- Whether a class or one of its bases has the name. -/
def SketchClass.hasBase (name : String) : SketchClass → Bool
  | ⟨_, n, _, none⟩ => n == name
  | ⟨_, n, _, some ⟨none, _⟩⟩ => n == name
  | ⟨_, n, _, some ⟨some c, _⟩⟩ => n == name || c.hasBase name

mutual
/-- Same shape, with classes compared by name. -/
def Sketch.same : Sketch → Sketch → Bool
  | .inst i, .inst j => i.same j
  | .callable params result fallback, .callable params' result' fallback' =>
      Sketch.sameAll params params' && result.same result' && fallback.same fallback'
  | .tuple items fallback, .tuple items' fallback' =>
      Sketch.sameAll items items' && fallback.same fallback'
  | .absent, .absent => true
  | .void, .void => true
  | .dynamic, .dynamic => true
  | .bottom, .bottom => true
  | .error, .error => true
  | _, _ => false

def SketchInstance.same : SketchInstance → SketchInstance → Bool
  | ⟨c, args⟩, ⟨d, args'⟩ =>
      SketchInstance.name ⟨c, args⟩ == SketchInstance.name ⟨d, args'⟩ && Sketch.sameAll args args'

def Sketch.sameAll : List Sketch → List Sketch → Bool
  | [], [] => true
  | a :: as, b :: bs => a.same b && Sketch.sameAll as bs
  | _, _ => false
end

/-- Whether all items are in order with those of the other list at their places. -/
def Sketch.everyPair (below : Sketch → Sketch → Except Mishap Bool) :
    List Sketch → List Sketch → Except Mishap Bool
  | [], _ => .ok true
  | _ :: _, [] => .error .pastEnd
  | a :: as, b :: bs => do if ← below a b then everyPair below as bs else return false

def Sketch.allSubtypes (below : Sketch → Sketch → Except Mishap Bool) (as bs : List Sketch) :
    Except Mishap Bool :=
  if as.length = bs.length then everyPair below as bs else .ok false

/-- Seen as an instance of the other's class, the first has smaller arguments. -/
def SketchInstance.isSubtype (below : Sketch → Sketch → Except Mishap Bool)
    (s t : SketchInstance) : Except Mishap Bool := do
  if (← s.theClass).hasBase t.name then
    match ← s.view (← t.theClass).name with
    | none => return false
    | some view => Sketch.allSubtypes below view.args t.args
  else return false

/-- Whether the first may be used where the second is wanted, given how parts are compared. -/
def Sketch.compareStep (below : Sketch → Sketch → Except Mishap Bool) (s t : Sketch) :
    Except Mishap Bool :=
  if s.same t then .ok true
  else match s, t with
    | .dynamic, _ => .ok true
    | _, .dynamic => .ok true
    | .bottom, _ => .ok true
    | .error, _ => .ok false
    | .void, _ => .ok false
    | .inst i, .inst j => i.isSubtype below j
    | .inst _, _ => .ok false
    | .callable params result fallback, .callable params' result' fallback' =>
        if params.length = params'.length then do
          if ← allSubtypes below params' params then
            if ← below result result' then below (.inst fallback) (.inst fallback')
            else return false
          else return false
        else .ok false
    | .callable _ _ fallback, .inst j => below (.inst fallback) (.inst j)
    | .callable .., _ => .ok false
    | .tuple items fallback, .tuple items' fallback' => do
        if ← allSubtypes below items items' then below (.inst fallback) (.inst fallback')
        else return false
    | .tuple _ fallback, .inst j => below (.inst fallback) (.inst j)
    | .tuple .., _ => .ok false
    | .absent, _ => .error (.comparison .absent)

/-- Comparisons that go at most so deep. -/
def Sketch.isSubtype : Nat → Sketch → Sketch → Except Mishap Bool
  | 0 => fun _ _ => .error .tooDeep
  | depth + 1 => compareStep (isSubtype depth)

/-- Combine the items of a list with those of another one at their places. -/
def Sketch.combineAll (op : Sketch → Sketch → Except Mishap Sketch) :
    List Sketch → List Sketch → Except Mishap (List Sketch)
  | [], _ => .ok []
  | _ :: _, [] => .error .pastEnd
  | a :: as, b :: bs => do
      let first ← op a b
      let rest ← combineAll op as bs
      return first :: rest

/-- The cases in which the shape of the other sketch does not matter. -/
def Sketch.absorb : Sketch → Sketch → Option Sketch
  | .dynamic, _ => some .dynamic
  | _, .dynamic => some .dynamic
  | .error, _ => some .error
  | _, .error => some .error
  | .void, .void => some .void
  | .void, _ => some .error
  | _, .void => some .error
  | _, _ => none

def Sketch.similar (items items' : List Sketch) (fallback fallback' : SketchInstance) : Bool :=
  items.length == items'.length && fallback.same fallback'

/-- An instance with its arguments joined to those of another one, if there are as many. -/
def SketchInstance.joinArgs (join : Sketch → Sketch → Except Mishap Sketch)
    (a view : SketchInstance) : Except Mishap Sketch :=
  if view.args.length = a.args.length then do
    let args ← Sketch.combineAll join a.args view.args
    return .inst ⟨a.cls, args⟩
  else .ok .error

/-- Go up a chain of instances to the first one whose class the other has among its bases, and
    join there. -/
def SketchInstance.joinUp (join : Sketch → Sketch → Except Mishap Sketch) (t : SketchInstance) :
    List SketchInstance → Except Mishap Sketch
  | [] => .ok .error
  | a :: rest => do
      if (← t.theClass).hasBase a.name then
        match ← t.view (← a.theClass).name with
        | none => return .error
        | some view => a.joinArgs join view
      else joinUp join t rest

def SketchInstance.join (join : Sketch → Sketch → Except Mishap Sketch) (s t : SketchInstance) :
    Except Mishap Sketch := do
  t.joinUp join (← s.ancestry)

/-- The one of two sketches that is below the other, the first if both are. -/
def Sketch.lesser (below : Sketch → Sketch → Except Mishap Bool) (s t : Sketch) :
    Except Mishap Sketch := do
  if ← below s t then return s
  else if ← below t s then return t
  else return .bottom

/-- The least upper bound, given how parts are joined and met. -/
def Sketch.joinStep (join meet : Sketch → Sketch → Except Mishap Sketch) (s t : Sketch) :
    Except Mishap Sketch :=
  match absorb s t with
  | some absorbed => .ok absorbed
  | none =>
      match s, t with
      | .bottom, t => .ok t
      | s, .bottom => .ok s
      | .inst i, .inst j => i.join join j
      | .inst i, .callable _ _ fallback => join (.inst fallback) (.inst i)
      | .inst i, .tuple _ fallback => join (.inst fallback) (.inst i)
      | .callable _ _ fallback, .inst j => join (.inst fallback) (.inst j)
      | .callable params result fallback, .callable params' result' fallback' =>
          if similar params params' fallback fallback' then do
            let met ← combineAll meet params params'
            let joined ← join result result'
            return .callable met joined fallback'
          else join (.inst fallback) (.inst fallback')
      | .callable _ _ fallback, .tuple _ fallback' => join (.inst fallback) (.inst fallback')
      | .tuple _ fallback, .inst j => join (.inst fallback) (.inst j)
      | .tuple _ fallback, .callable _ _ fallback' => join (.inst fallback) (.inst fallback')
      | .tuple items fallback, .tuple items' fallback' =>
          if similar items items' fallback fallback' then do
            let joined ← combineAll join items items'
            return .tuple joined fallback'
          else join (.inst fallback) (.inst fallback')
      | s, t => .error (.join s t)

/-- The greatest lower bound, given how parts are joined and met and how sketches are compared. -/
def Sketch.meetStep (join meet : Sketch → Sketch → Except Mishap Sketch)
    (below : Sketch → Sketch → Except Mishap Bool) (s t : Sketch) : Except Mishap Sketch :=
  match absorb s t with
  | some absorbed => .ok absorbed
  | none =>
      match s, t with
      | .bottom, _ => .ok .bottom
      | _, .bottom => .ok .bottom
      | .inst i, .inst j =>
          if i.name = j.name ∧ i.args.length = j.args.length then do
            let met ← combineAll meet i.args j.args
            return .inst ⟨i.cls, met⟩
          else lesser below s t
      | .callable params result fallback, .callable params' result' fallback' =>
          if similar params params' fallback fallback' then do
            let joined ← combineAll join params params'
            let met ← meet result result'
            return .callable joined met fallback
          else lesser below s t
      | .tuple items fallback, .tuple items' fallback' =>
          if similar items items' fallback fallback' then do
            let met ← combineAll meet items items'
            return .tuple met fallback
          else lesser below s t
      | _, _ => lesser below s t

mutual
/-- Joins that go at most so deep. -/
def Sketch.join : Nat → Sketch → Sketch → Except Mishap Sketch
  | 0 => fun _ _ => .error .tooDeep
  | depth + 1 => joinStep (join depth) (meet depth)

/-- Meets that go at most so deep. -/
def Sketch.meet : Nat → Sketch → Sketch → Except Mishap Sketch
  | 0 => fun _ _ => .error .tooDeep
  | depth + 1 => meetStep (join depth) (meet depth) (isSubtype depth)
end

@[simp]
theorem Ty.sketchAll_eq_map (ts : List Ty) : Ty.sketchAll ts = ts.map Ty.sketch := by
  induction ts with
  | nil => rfl
  | cons t ts ih => rw [Ty.sketchAll, ih, List.map_cons]

mutual
theorem Class.complete_sketch (c : Class) : c.sketch.complete := by
  match c with
  | ⟨_, _, _, none⟩ => rfl
  | ⟨_, _, _, some base⟩ => exact Instance.complete_sketch base

theorem Instance.complete_sketch (i : Instance) : i.sketch.complete := by
  cases i with
  | mk c args =>
      rw [Instance.sketch, SketchInstance.complete, Class.complete_sketch c,
        Ty.allComplete_sketchAll args, Bool.and_self]

theorem Ty.complete_sketch (t : Ty) : t.sketch.complete := by
  cases t with
  | inst i => exact Instance.complete_sketch i
  | callable params result fallback =>
      rw [Ty.sketch, Sketch.complete, Ty.allComplete_sketchAll params, Ty.complete_sketch result,
        Instance.complete_sketch fallback, Bool.and_self, Bool.and_self]
  | tuple items fallback =>
      rw [Ty.sketch, Sketch.complete, Ty.allComplete_sketchAll items,
        Instance.complete_sketch fallback, Bool.and_self]
  | void | dynamic | bottom | error => rfl

theorem Ty.allComplete_sketchAll (ts : List Ty) : Sketch.allComplete (Ty.sketchAll ts) := by
  cases ts with
  | nil => rfl
  | cons t ts =>
      rw [Ty.sketchAll, Sketch.allComplete, Ty.complete_sketch t, Ty.allComplete_sketchAll ts,
        Bool.and_self]
end

mutual
theorem SketchClass.exists_class {c : SketchClass} (complete : c.complete) :
    ∃ d : Class, d.sketch = c := by
  match c with
  | ⟨serial, name, arity, none⟩ => exact ⟨⟨serial, name, arity, none⟩, rfl⟩
  | ⟨serial, name, arity, some base⟩ =>
      obtain ⟨i, rfl⟩ := SketchInstance.exists_instance (i := base) complete
      exact ⟨⟨serial, name, arity, some i⟩, rfl⟩

theorem SketchInstance.exists_instance {i : SketchInstance} (complete : i.complete) :
    ∃ j : Instance, j.sketch = i := by
  match i with
  | ⟨none, _⟩ => simp [SketchInstance.complete] at complete
  | ⟨some c, args⟩ =>
      simp only [SketchInstance.complete, Bool.and_eq_true] at complete
      obtain ⟨d, rfl⟩ := SketchClass.exists_class complete.1
      obtain ⟨ts, rfl⟩ := Sketch.exists_types complete.2
      exact ⟨⟨d, ts⟩, rfl⟩

theorem Sketch.exists_type {s : Sketch} (complete : s.complete) : ∃ t : Ty, t.sketch = s := by
  match s with
  | .absent => simp [Sketch.complete] at complete
  | .inst i =>
      obtain ⟨j, rfl⟩ := SketchInstance.exists_instance (i := i) complete
      exact ⟨.inst j, rfl⟩
  | .callable params result fallback =>
      simp only [Sketch.complete, Bool.and_eq_true] at complete
      obtain ⟨ts, rfl⟩ := Sketch.exists_types complete.1.1
      obtain ⟨t, rfl⟩ := Sketch.exists_type complete.1.2
      obtain ⟨j, rfl⟩ := SketchInstance.exists_instance complete.2
      exact ⟨.callable ts t j, rfl⟩
  | .tuple items fallback =>
      simp only [Sketch.complete, Bool.and_eq_true] at complete
      obtain ⟨ts, rfl⟩ := Sketch.exists_types complete.1
      obtain ⟨j, rfl⟩ := SketchInstance.exists_instance complete.2
      exact ⟨.tuple ts j, rfl⟩
  | .void => exact ⟨.void, rfl⟩
  | .dynamic => exact ⟨.dynamic, rfl⟩
  | .bottom => exact ⟨.bottom, rfl⟩
  | .error => exact ⟨.error, rfl⟩

theorem Sketch.exists_types {ss : List Sketch} (complete : Sketch.allComplete ss) :
    ∃ ts : List Ty, Ty.sketchAll ts = ss := by
  match ss with
  | [] => exact ⟨[], rfl⟩
  | s :: rest =>
      simp only [Sketch.allComplete, Bool.and_eq_true] at complete
      obtain ⟨t, rfl⟩ := Sketch.exists_type complete.1
      obtain ⟨ts, rfl⟩ := Sketch.exists_types complete.2
      exact ⟨t :: ts, rfl⟩
end

/-- Nothing is missing exactly in the sketches of types. -/
theorem Sketch.complete_iff {s : Sketch} : s.complete ↔ ∃ t : Ty, t.sketch = s := by
  constructor
  · exact Sketch.exists_type
  · rintro ⟨t, rfl⟩
    exact t.complete_sketch

@[simp]
theorem Class.name_sketch (c : Class) : c.sketch.name = c.name := by
  rcases c with ⟨_, _, _, _ | _⟩ <;> rfl

namespace Instance

theorem sketch_eq (i : Instance) : i.sketch = ⟨some i.cls.sketch, i.args.map Ty.sketch⟩ := by
  cases i with
  | mk c args => rw [Instance.sketch, Ty.sketchAll_eq_map]

@[simp]
theorem cls_sketch (i : Instance) : i.sketch.cls = some i.cls.sketch := by
  rw [sketch_eq]

@[simp]
theorem args_sketch (i : Instance) : i.sketch.args = i.args.map Ty.sketch := by
  rw [sketch_eq]

@[simp]
theorem theClass_sketch (i : Instance) : i.sketch.theClass = .ok i.cls.sketch := by
  rw [sketch_eq, SketchInstance.theClass]

@[simp]
theorem name_sketch (i : Instance) : i.sketch.name = i.name := by
  rw [sketch_eq, SketchInstance.name, Class.name_sketch, Instance.name]

theorem ancestry_sketch (i : Instance) :
    i.sketch.ancestry = .ok (i.ancestry.map Instance.sketch) := by
  rcases i with ⟨c, args⟩
  fun_induction Class.bases c generalizing args with
  | case1 => rfl
  | case2 serial name arity c args' ih =>
      rw [Instance.sketch, Class.sketch, SketchInstance.ancestry, ih]
      rfl

theorem view_sketch (i : Instance) (name : String) :
    i.sketch.view name = .ok ((i.view? name).map Instance.sketch) := by
  rcases i with ⟨c, args⟩
  fun_induction Class.bases c generalizing args with
  | case1 serial n arity =>
      rw [Instance.sketch, Class.sketch, SketchInstance.view]
      by_cases named : n = name
      · simp [view?, ancestry, Instance.name, named, Instance.sketch, Class.sketch]
      · simp [view?, ancestry, Instance.name, named, Class.bases]
  | case2 serial n arity c args' ih =>
      rw [Instance.sketch, Class.sketch, SketchInstance.view, ih]
      by_cases named : n = name
      · simp [view?, ancestry, Instance.name, named, Instance.sketch, Class.sketch]
      · simp [view?, ancestry, Instance.name, named, Class.bases]

theorem hasBase_sketch (i : Instance) (name : String) :
    i.cls.sketch.hasBase name = (i.view? name).isSome := by
  rcases i with ⟨c, args⟩
  fun_induction Class.bases c generalizing args with
  | case1 serial n arity =>
      by_cases named : n = name <;>
        simp [view?, ancestry, Instance.name, named, Class.bases, Class.sketch, SketchClass.hasBase]
  | case2 serial n arity c args' ih =>
      specialize ih args'
      rw [Class.sketch, Instance.sketch, SketchClass.hasBase, ih]
      by_cases named : n = name <;>
        simp [view?, ancestry, Instance.name, named, Class.bases]

end Instance

mutual
theorem Ty.same_sketch (s t : Ty) : s.sketch.same t.sketch = s.same t := by
  cases s with
  | inst i =>
      cases t with
      | inst j => exact Instance.same_sketch i j
      | callable | tuple | void | dynamic | bottom | error => rfl
  | callable params result fallback =>
      cases t with
      | callable params' result' fallback' =>
          rw [Ty.sketch, Ty.sketch, Sketch.same, Ty.same, Ty.sameAll_sketchAll params params',
            Ty.same_sketch result result', Instance.same_sketch fallback fallback']
      | inst | tuple | void | dynamic | bottom | error => rfl
  | tuple items fallback =>
      cases t with
      | tuple items' fallback' =>
          rw [Ty.sketch, Ty.sketch, Sketch.same, Ty.same, Ty.sameAll_sketchAll items items',
            Instance.same_sketch fallback fallback']
      | inst | callable | void | dynamic | bottom | error => rfl
  | void | dynamic | bottom | error => cases t <;> rfl

theorem Instance.same_sketch (i j : Instance) : i.sketch.same j.sketch = i.same j := by
  cases i with
  | mk c args =>
      cases j with
      | mk d args' =>
          rw [Instance.sketch, Instance.sketch, SketchInstance.same, Instance.same,
            Ty.sameAll_sketchAll args args', SketchInstance.name, SketchInstance.name,
            Class.name_sketch, Class.name_sketch]

theorem Ty.sameAll_sketchAll (as bs : List Ty) :
    Sketch.sameAll (Ty.sketchAll as) (Ty.sketchAll bs) = Ty.sameAll as bs := by
  cases as with
  | nil => cases bs <;> rfl
  | cons a as =>
      cases bs with
      | nil => rfl
      | cons b bs =>
          rw [Ty.sketchAll, Ty.sketchAll, Sketch.sameAll, Ty.sameAll, Ty.same_sketch a b,
            Ty.sameAll_sketchAll as bs]
end

theorem Ty.similar_sketch (items items' : List Ty) (fallback fallback' : Instance) :
    Sketch.similar (Ty.sketchAll items) (Ty.sketchAll items') fallback.sketch fallback'.sketch =
      Ty.similar items items' fallback fallback' := by
  rw [Sketch.similar, Ty.similar, Instance.same_sketch, Ty.sketchAll_eq_map, Ty.sketchAll_eq_map,
    List.length_map, List.length_map]

end TypeBounds
