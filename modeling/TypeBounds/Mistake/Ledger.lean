import TypeBounds.Mistake

/-! # Shared lists of mistakes

A ledger holds lists of mistakes that several owners may share. An owner has a
reference to a list, or none yet; what one owner adds is seen by every owner of
the same list. Mistakes are added by value: whoever adds them keeps no hold on them,
so that only the ledger can change a list.
-/

namespace TypeBounds

/-- The lists, each known by its index. -/
structure Ledger where
  lists : List (List Mistake)

/-- A list of the ledger, or none yet. -/
abbrev LedgerRef := Option Nat

namespace Ledger

def empty : Ledger := ⟨[]⟩

/-- What a reference denotes; no reference denotes the empty list. -/
def get (l : Ledger) : LedgerRef → List Mistake
  | none => []
  | some i => l.lists.getD i []

def hasMistake (l : Ledger) (r : LedgerRef) : Bool := !(l.get r).isEmpty

/-- Add mistakes at the end of the list a reference denotes, or start a list with them. -/
def record (l : Ledger) (ms : List Mistake) : LedgerRef → Ledger × LedgerRef
  | none => (⟨l.lists ++ [ms]⟩, some l.lists.length)
  | some i => (⟨l.lists.modify i (· ++ ms)⟩, some i)

/-- Add mistakes one after the other. No list is started where there are none. -/
def recordEach (l : Ledger) (r : LedgerRef) : List Mistake → Ledger × LedgerRef
  | [] => (l, r)
  | m :: ms => (l.record [m] r).1.recordEach (l.record [m] r).2 ms

/-- Add the mistakes of another list. Without a list of its own the owner shares the
    other; an empty list adds nothing. -/
def absorb (l : Ledger) (r other : LedgerRef) : Ledger × LedgerRef :=
  if r.isNone then (l, other)
  else if l.hasMistake other then l.record (l.get other) r
  else (l, r)

/-- A reference is to a list that is there. -/
def Has (l : Ledger) (r : LedgerRef) : Prop := ∀ i ∈ r, i < l.lists.length

theorem Has.mono {l l' : Ledger} {r : LedgerRef} (has : l.Has r)
    (size : l.lists.length ≤ l'.lists.length) : l'.Has r := by
  intro i here
  have before := has i here
  omega

theorem hasMistake_iff {l : Ledger} {r : LedgerRef} : l.hasMistake r ↔ l.get r ≠ [] := by
  simp [hasMistake]

/-- Mistakes were added to what a reference denotes, which came to be denoted by another
    reference, and all other lists were left alone. -/
structure Added (l : Ledger) (r : LedgerRef) (ms : List Mistake) (after : Ledger × LedgerRef) :
    Prop where
  size : l.lists.length ≤ after.1.lists.length
  has : after.1.Has after.2
  denotes : after.1.get after.2 = l.get r ++ ms
  /-- A list that was there is added to in its place. -/
  same : r.isSome → after.2 = r
  kept : ∀ i < l.lists.length, r ≠ some i → after.1.get (some i) = l.get (some i)

section Steps

variable {l : Ledger} {r other : LedgerRef} {ms : List Mistake}

theorem added_nil (has : l.Has r) : l.Added r [] (l, r) :=
  ⟨Nat.le_refl _, has, (List.append_nil _).symm, fun _ => rfl, fun _ _ _ => rfl⟩

theorem record_added (has : l.Has r) : l.Added r ms (l.record ms r) := by
  cases r with
  | none =>
      refine ⟨by simp [record], ?_, by simp [record, get], nofun, fun i old _ => ?_⟩
      · intro i here
        cases here
        simp [record]
      · simp [record, get, List.getElem?_append_left old]
  | some j =>
      have inside : j < l.lists.length := has j rfl
      refine ⟨by simp [record], ?_, ?_, fun _ => rfl, fun i old other => ?_⟩
      · intro i here
        cases here
        simpa [record] using inside
      · simp [record, get, inside]
      · have ne : j ≠ i := fun same => other (congrArg some same)
        simp [record, get, ne]

theorem recordEach_some (l : Ledger) (i : Nat) (ms : List Mistake) :
    l.recordEach (some i) ms = l.record ms (some i) := by
  induction ms generalizing l with
  | nil =>
      simp only [recordEach, record, List.append_nil]
      exact congrArg (fun lists => (Ledger.mk lists, some i)) (List.modify_id i l.lists).symm
  | cons m ms ih => simp [recordEach, record, ih, List.modify_modify_eq, Function.comp_def]

theorem recordEach_added (has : l.Has r) : l.Added r ms (l.recordEach r ms) := by
  cases r with
  | some i =>
      rw [recordEach_some]
      exact record_added has
  | none =>
      cases ms with
      | nil => exact added_nil has
      | cons m ms =>
          have started : (l.record [m] none).2 = some l.lists.length := rfl
          have first : l.Added none [m] (l.record [m] none) := record_added has
          have later : (l.record [m] none).1.Added (some l.lists.length) ms _ :=
            record_added (started ▸ first.has)
          rw [recordEach, started, recordEach_some]
          refine ⟨Nat.le_trans first.size later.size, later.has, ?_, nofun, fun i old _ => ?_⟩
          · rw [later.denotes, ← started, first.denotes]
            rfl
          · refine (later.kept i (Nat.lt_of_lt_of_le old first.size) ?_).trans
              (first.kept i old nofun)
            exact fun same => Nat.ne_of_gt old (Option.some.inj same)

theorem absorb_added (has : l.Has r) (hasOther : l.Has other) :
    l.Added r (l.get other) (l.absorb r other) := by
  unfold absorb
  cases r with
  | none => exact ⟨Nat.le_refl _, hasOther, rfl, nofun, fun _ _ _ => rfl⟩
  | some j =>
      by_cases some : l.hasMistake other
      · simpa [some] using record_added has
      · have empty : l.get other = [] := by simpa [hasMistake_iff] using some
        simp only [Option.isNone_some, Bool.false_eq_true, if_false, if_neg some, empty]
        exact added_nil has

/-- What any reference denotes afterwards: only those to the list itself see the addition. -/
theorem Added.get_eq {after : Ledger × LedgerRef} (added : l.Added r ms after) {r' : LedgerRef}
    (has : l.Has r') :
    after.1.get r' = l.get r' ++ if r'.isSome ∧ r' = r then ms else [] := by
  cases r' with
  | none => simp [get]
  | some i =>
      by_cases same : r = some i
      · have place : after.2 = some i := by rw [added.same (by simp [same]), same]
        have denotes := added.denotes
        rw [place, same] at denotes
        simp [denotes, same]
      · rw [added.kept i (has i rfl) same]
        simp [Ne.symm same]

end Steps

end Ledger

/-- The list of one owner, with the ledger that it is in. -/
structure Account where
  ledger : Ledger
  ref : LedgerRef
  held : ledger.Has ref

namespace Account

def empty : Account := ⟨.empty, none, nofun⟩

def mistakes (a : Account) : List Mistake := a.ledger.get a.ref

def hasMistake (a : Account) : Bool := a.ledger.hasMistake a.ref

/-- Mistakes are put on the list one after the other. -/
def recordEach (a : Account) (ms : List Mistake) : Account where
  ledger := (a.ledger.recordEach a.ref ms).1
  ref := (a.ledger.recordEach a.ref ms).2
  held := (Ledger.recordEach_added a.held).has

/-- A list of the same ledger that is yet to be started. -/
def aside (a : Account) : Account := ⟨a.ledger, none, nofun⟩

/-- Mistakes are put on a list of their own, which is then absorbed. -/
def report (a : Account) (ms : List Mistake) : Account :=
  let own := a.aside.recordEach ms
  { ledger := (own.ledger.absorb a.ref own.ref).1
    ref := (own.ledger.absorb a.ref own.ref).2
    held := (Ledger.absorb_added (a.held.mono (Ledger.recordEach_added a.aside.held).size)
      own.held).has }

theorem hasMistake_iff {a : Account} : a.hasMistake ↔ a.mistakes ≠ [] := Ledger.hasMistake_iff

@[simp]
theorem mistakes_recordEach (a : Account) (ms : List Mistake) :
    (a.recordEach ms).mistakes = a.mistakes ++ ms := (Ledger.recordEach_added a.held).denotes

/-- Whether the list is taken over or copied, it comes behind what was there. -/
@[simp]
theorem mistakes_report (a : Account) (ms : List Mistake) :
    (a.report ms).mistakes = a.mistakes ++ ms := by
  have aside : a.ledger.Added none ms (a.ledger.recordEach none ms) :=
    Ledger.recordEach_added a.aside.held
  have absorbed := Ledger.absorb_added (a.held.mono aside.size) aside.has
  have kept := aside.get_eq a.held
  rw [if_neg (by rintro ⟨some, none⟩; simp [none] at some), List.append_nil] at kept
  calc (a.report ms).mistakes = _ ++ _ := absorbed.denotes
    _ = a.mistakes ++ ms := by rw [kept, aside.denotes]; rfl

end Account

end TypeBounds
