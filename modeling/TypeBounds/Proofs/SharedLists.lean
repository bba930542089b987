import TypeBounds.Mistake.Ledger

/-! # Owners of shared lists

Adding to a list changes nothing but that list, and a list is only ever added to at its
end. So whatever the owners do, and whichever of them share a list, an owner that adds
mistakes has those it had before and then the new ones, and the owners that share its list
have them too. An owner that takes over the list of another is no exception: it had none.
-/

namespace TypeBounds

namespace Ledger

/-- No list is gone, and each one starts with what was in it. -/
structure Extends (l l' : Ledger) : Prop where
  size : l.lists.length ≤ l'.lists.length
  grown : ∀ r, l.Has r → l.get r <+: l'.get r

theorem Extends.refl (l : Ledger) : l.Extends l := ⟨Nat.le_refl _, fun _ _ => List.prefix_rfl⟩

theorem Extends.trans {l l' l'' : Ledger} (first : l.Extends l') (second : l'.Extends l'') :
    l.Extends l'' where
  size := Nat.le_trans first.size second.size
  grown r has := (first.grown r has).trans (second.grown r (has.mono first.size))

section Steps

variable {l : Ledger} {r other : LedgerRef} {ms : List Mistake}

theorem Added.extends {after : Ledger × LedgerRef} (added : l.Added r ms after) :
    l.Extends after.1 := by
  refine ⟨added.size, fun r' has => ?_⟩
  rw [added.get_eq has]
  exact List.prefix_append ..

/-- What was absorbed can be inspected as before, whoever it is shared with. -/
theorem hasMistake_absorb (has : l.Has r) (hasOther : l.Has other) :
    (l.absorb r other).1.hasMistake other = l.hasMistake other := by
  rw [Bool.eq_iff_iff, hasMistake_iff, hasMistake_iff, (absorb_added has hasOther).get_eq hasOther]
  by_cases none : l.get other = []
  · simp [none]
  · simp [none]

end Steps

end Ledger

/-- A ledger and its owners, each with a reference that it may share with others. -/
structure Accounts where
  ledger : Ledger
  ref : String → LedgerRef

/-- What an owner may do. The reference it gets becomes that of the target, which may be the
    owner itself or another. -/
inductive Posting where
  | record (owner : String) (ms : List Mistake) (target : String)
  | absorb (owner other target : String)

namespace Posting

def owner : Posting → String
  | .record owner _ _ => owner
  | .absorb owner _ _ => owner

def target : Posting → String
  | .record _ _ target => target
  | .absorb _ _ target => target

end Posting

namespace Accounts

/-- Nobody has a list yet. -/
def start : Accounts := ⟨.empty, fun _ => none⟩

/-- The mistakes an owner has. -/
def mistakes (a : Accounts) (owner : String) : List Mistake := a.ledger.get (a.ref owner)

/-- The mistakes that are new to the owner. -/
def added (a : Accounts) : Posting → List Mistake
  | .record _ ms _ => ms
  | .absorb _ other _ => a.mistakes other

/-- The ledger and the reference that comes of a posting. -/
def posted (a : Accounts) : Posting → Ledger × LedgerRef
  | .record owner ms _ => a.ledger.record ms (a.ref owner)
  | .absorb owner other _ => a.ledger.absorb (a.ref owner) (a.ref other)

def post (a : Accounts) (p : Posting) : Accounts where
  ledger := (a.posted p).1
  ref name := if name = p.target then (a.posted p).2 else a.ref name

def postAll (a : Accounts) (ps : List Posting) : Accounts := ps.foldl post a

/-- All references are to lists that are there. -/
def Sound (a : Accounts) : Prop := ∀ owner, a.ledger.Has (a.ref owner)

variable {a : Accounts}

theorem Sound.posted (sound : a.Sound) (p : Posting) :
    a.ledger.Added (a.ref p.owner) (a.added p) (a.posted p) := by
  cases p with
  | record owner ms target => exact Ledger.record_added (sound owner)
  | absorb owner other target => exact Ledger.absorb_added (sound owner) (sound other)

theorem Sound.post (sound : a.Sound) (p : Posting) : (a.post p).Sound := by
  intro name
  have added := sound.posted p
  by_cases here : name = p.target
  · simpa [Accounts.post, here] using added.has
  · simpa [Accounts.post, here] using (sound name).mono added.size

theorem Sound.postAll (sound : a.Sound) (ps : List Posting) :
    (a.postAll ps).Sound ∧ a.ledger.Extends (a.postAll ps).ledger := by
  induction ps generalizing a with
  | nil => exact ⟨sound, .refl _⟩
  | cons p ps ih =>
      obtain ⟨later, extends'⟩ := ih (sound.post p)
      exact ⟨later, (sound.posted p).extends.trans extends'⟩

theorem sound_start : start.Sound := by
  intro owner i here
  cases here

theorem mistakes_post_target (sound : a.Sound) (p : Posting) :
    (a.post p).mistakes p.target = a.mistakes p.owner ++ a.added p := by
  simpa [mistakes, post] using (sound.posted p).denotes

theorem mistakes_post_of_ne (sound : a.Sound) {p : Posting} {name : String}
    (other : name ≠ p.target) : (a.post p).mistakes name = a.mistakes name ++
      if (a.ref name).isSome ∧ a.ref name = a.ref p.owner then a.added p else [] := by
  simpa [mistakes, post, other] using (sound.posted p).get_eq (sound name)

end Accounts

/-- After any postings, an owner that records mistakes or absorbs those of another has what it had
    before and then the new ones. Lists other than its own are left alone, so that of the other
    owners just those see the new ones who share its list; lists are only added to; and what
    was absorbed can be inspected as before. -/
theorem Accounts.nothing_lost_or_doubled (ps : List Posting) :
    let a := start.postAll ps
    (∀ owner ms target,
      (a.post (.record owner ms target)).mistakes target = a.mistakes owner ++ ms) ∧
    (∀ owner other target,
      (a.post (.absorb owner other target)).mistakes target =
        a.mistakes owner ++ a.mistakes other) ∧
    (∀ p i, i < a.ledger.lists.length → a.ref p.owner ≠ some i →
      (a.post p).ledger.get (some i) = a.ledger.get (some i)) ∧
    (∀ p name, name ≠ p.target → (a.post p).mistakes name = a.mistakes name ++
      if (a.ref name).isSome ∧ a.ref name = a.ref p.owner then a.added p else []) ∧
    (∀ later, a.ledger.Extends (a.postAll later).ledger) ∧
    (∀ owner, a.ledger.hasMistake (a.ref owner) ↔ a.mistakes owner ≠ []) ∧
    (∀ owner other target,
      (a.post (.absorb owner other target)).ledger.hasMistake (a.ref other) =
        a.ledger.hasMistake (a.ref other)) := by
  intro a
  have sound : a.Sound := (sound_start.postAll ps).1
  exact ⟨fun owner ms target => mistakes_post_target sound (.record owner ms target),
    fun owner other target => mistakes_post_target sound (.absorb owner other target),
    fun p => (sound.posted p).kept, fun p name => mistakes_post_of_ne sound,
    fun later => (sound.postAll later).2, fun owner => Ledger.hasMistake_iff,
    fun owner other target => Ledger.hasMistake_absorb (sound owner) (sound other)⟩

/-- An owner takes over the list of another, and then absorbs what is its own already. -/
theorem nothing_lost_or_doubled_shared :
    let m : Mistake := ⟨⟨3, 10⟩, .unknownClass "cat"⟩
    let n : Mistake := ⟨⟨4, 1⟩, .unknownVariable "T"⟩
    let a := Accounts.start.postAll
      [.record "node" [m] "node", .absorb "all" "node" "all", .absorb "all" "all" "all"]
    let shared : Posting := .record "node" [n] "last"
    let apart : Posting := .record "fresh" [n] "fresh"
    (a.ref "all" = some 0 ∧ a.ref "node" = some 0 ∧ a.mistakes "node" = [m, m]) ∧
    ("all" ≠ shared.target ∧ (a.post shared).mistakes "all" = [m, m, n]) ∧
    (0 < a.ledger.lists.length ∧ a.ref apart.owner ≠ some 0 ∧
      (a.post apart).ledger.get (some 0) = [m, m] ∧ (a.post apart).mistakes "fresh" = [n]) := by
  intro m n a shared apart
  obtain ⟨recorded, -, kept, others, -⟩ := Accounts.nothing_lost_or_doubled
    [.record "node" [m] "node", .absorb "all" "node" "all", .absorb "all" "all" "all"]
  refine ⟨⟨rfl, rfl, rfl⟩, ⟨by decide, ?_⟩, by decide, nofun, ?_, ?_⟩
  · exact others shared "all" (by decide)
  · exact kept apart 0 (by decide) nofun
  · exact recorded "fresh" [n] "fresh"

end TypeBounds
