import TypeBounds.Variable.Constraint

/-! # Constraints by variable

A table holds a value for each of some variables. Constraints are put into a table one
after another, each behind the others on its variable; where they end up follows from what
a table finds after a value was set. The tables in use are divided into slots by the hash of
the variable, which only looks at the low 32 bits of its number; variables that share a
slot are told apart in it.
-/

namespace TypeBounds

/-- Tables of values of variables. -/
class Table (T : Type) (α : outParam Type) where
  empty : T
  get? : T → TypeVar → Option α
  set : T → TypeVar → α → T
  get?_empty (v : TypeVar) : get? empty v = none
  get?_set (t : T) (v w : TypeVar) (a : α) :
    get? (set t v a) w = if w = v then some a else get? t w

/-- The constraints on one variable, in their order. -/
def constraintsOn (v : TypeVar) (cs : List Constraint) : List Constraint :=
  cs.filter (·.var = v)

namespace Table

variable {T : Type} [Table T (List Constraint)]

/-- What was put under a variable; nothing if it has no bucket. -/
def bucket (t : T) (v : TypeVar) : List Constraint := (get? t v).getD []

/-- Put a constraint behind the others on its variable. -/
def add (t : T) (c : Constraint) : T := set t c.var (bucket t c.var ++ [c])

theorem bucket_add (t : T) (c : Constraint) (v : TypeVar) :
    bucket (add t c) v = bucket t v ++ if c.var = v then [c] else [] := by
  by_cases same : c.var = v
  · simp [bucket, add, get?_set, same]
  · simp [bucket, add, get?_set, same, Ne.symm same]

theorem bucket_foldl_add (t : T) (cs : List Constraint) (v : TypeVar) :
    bucket (cs.foldl add t) v = bucket t v ++ constraintsOn v cs := by
  induction cs generalizing t with
  | nil => simp [constraintsOn]
  | cons c cs ih =>
      rw [List.foldl_cons, ih, bucket_add, List.append_assoc]
      by_cases same : c.var = v <;> simp [constraintsOn, same]

/-- No constraint is lost, comes twice, changes its place or gets to another variable. -/
theorem bucket_foldl_add_empty (cs : List Constraint) (v : TypeVar) :
    bucket (cs.foldl add (empty : T)) v = constraintsOn v cs := by
  rw [bucket_foldl_add, bucket, get?_empty]
  rfl

end Table

/-- The low 32 bits of the number, mixed. -/
def TypeVar.hash (v : TypeVar) : UInt32 :=
  let low := UInt32.ofBitVec (BitVec.ofInt 32 v.id)
  let h := (low ^^^ (low >>> 16)) * 0x85ebca6b
  let h := (h ^^^ (h >>> 13)) * 0xc2b2ae35
  h ^^^ (h >>> 16)

/-- The first entry under a key changed, or a new one put at the end. -/
def alterEntry {κ α : Type} [DecidableEq κ] (key : κ) (f : Option α → α) :
    List (κ × α) → List (κ × α)
  | [] => [(key, f none)]
  | (k, a) :: rest =>
      if k = key then (k, f (some a)) :: rest else (k, a) :: alterEntry key f rest

theorem lookup_alterEntry {κ α : Type} [DecidableEq κ] (key other : κ) (f : Option α → α)
    (entries : List (κ × α)) :
    (alterEntry key f entries).lookup other =
      if other = key then some (f (entries.lookup key)) else entries.lookup other := by
  induction entries with
  | nil =>
      by_cases same : other = key
      · simp [alterEntry, same]
      · simp [alterEntry, List.lookup_cons, beq_false_of_ne same, same]
  | cons entry rest ih =>
      obtain ⟨k, a⟩ := entry
      by_cases here : k = key
      · subst here
        by_cases same : other = k
        · simp [alterEntry, same]
        · simp [alterEntry, List.lookup_cons, beq_false_of_ne same, same]
      · by_cases same : other = key
        · subst same
          simp [alterEntry, List.lookup_cons, here, beq_false_of_ne (Ne.symm here), ih]
        · simp [alterEntry, List.lookup_cons, here, same, ih]

/-- Values of variables, in slots by the hash of the variable. -/
structure VarTable (α : Type) where
  slots : List (UInt32 × List (TypeVar × α))

namespace VarTable

variable {α : Type}

def empty : VarTable α := ⟨[]⟩

def get? (t : VarTable α) (v : TypeVar) : Option α :=
  (t.slots.lookup v.hash).bind (·.lookup v)

def set (t : VarTable α) (v : TypeVar) (a : α) : VarTable α :=
  ⟨alterEntry v.hash (fun slot => alterEntry v (fun _ => a) (slot.getD [])) t.slots⟩

/-- Variables that share a slot do not share a value. -/
theorem get?_set (t : VarTable α) (v w : TypeVar) (a : α) :
    (t.set v a).get? w = if w = v then some a else t.get? w := by
  simp only [get?, set, lookup_alterEntry]
  by_cases same : w = v
  · simp [same, lookup_alterEntry]
  · by_cases shared : w.hash = v.hash
    · rw [if_pos shared, Option.bind_some, lookup_alterEntry, if_neg same, if_neg same, shared]
      cases t.slots.lookup v.hash <;> rfl
    · rw [if_neg shared, if_neg same]

instance : Table (VarTable α) α where
  empty := empty
  get? := get?
  set := set
  get?_empty _ := rfl
  get?_set := get?_set

end VarTable

/-- The constraints on each variable that has any. -/
abbrev Buckets := VarTable (List Constraint)

namespace Buckets

def ofConstraints (cs : List Constraint) : Buckets := cs.foldl Table.add Table.empty

def on (b : Buckets) (v : TypeVar) : List Constraint := Table.bucket b v

@[simp]
theorem on_ofConstraints (cs : List Constraint) (v : TypeVar) :
    (ofConstraints cs).on v = constraintsOn v cs := Table.bucket_foldl_add_empty cs v

end Buckets

end TypeBounds
