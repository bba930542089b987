import Mathlib.Data.List.Lex
import Mathlib.Data.List.Nodup
import TypeBounds.Proofs.Ancestry

/-! # Universes over all runs

A universe is asked to add classes, one after another, and refuses some of them. Whatever
it is asked, its classes stay in the order of their names, and the bases of a class stay
classes of the universe. So the chain of bases of each class ends in a root and has no
name twice, and all the ways to look at it agree.
-/

namespace TypeBounds

/-- One text is before another when the two are compared byte by byte. -/
def bytesBefore (s t : String) : Prop :=
  List.Lex (fun a b : UInt8 => a.toNat < b.toNat) s.toUTF8.data.toList t.toUTF8.data.toList

theorem bytes_eq (s : String) : s.toUTF8.data.toList = s.toList.flatMap String.utf8EncodeChar := by
  conv =>
    lhs
    rw [← String.ofList_toList (s := s)]
  rw [String.toUTF8_eq_toByteArray, String.toByteArray_ofList, List.utf8Encode,
    List.data_toByteArray]

theorem digits_lt {m n : Nat} (less : m < n) (small : n < 2097152) :
    m / 262144 % 8 < n / 262144 % 8 ∨ m / 262144 % 8 = n / 262144 % 8 ∧
      (m / 4096 % 64 < n / 4096 % 64 ∨ m / 4096 % 64 = n / 4096 % 64 ∧
        (m / 64 % 64 < n / 64 % 64 ∨ m / 64 % 64 = n / 64 % 64 ∧ m % 64 < n % 64)) := by
  rcases Nat.lt_or_eq_of_le (Nat.div_le_div_right (c := 262144) less.le) with first | first
  · omega
  · rcases Nat.lt_or_eq_of_le (Nat.div_le_div_right (c := 4096) less.le) with second | second
    · omega
    · rcases Nat.lt_or_eq_of_le (Nat.div_le_div_right (c := 64) less.le) with third | third
      · omega
      · omega

/-- Two characters are told apart by their own bytes, whatever follows. -/
theorem lex_utf8EncodeChar {c d : Char} (less : c < d) (x y : List UInt8) :
    List.Lex (fun a b : UInt8 => a.toNat < b.toNat) (String.utf8EncodeChar c ++ x)
      (String.utf8EncodeChar d ++ y) := by
  have codes : c.val.toNat < d.val.toNat := less
  have valid : d.val.toNat < 1114112 := by
    rcases d.valid with low | ⟨-, high⟩ <;> omega
  have byte {k : Nat} (small : k < 256) : (UInt8.ofNat k).toNat = k :=
    UInt8.toNat_ofNat_of_lt' small
  unfold String.utf8EncodeChar
  generalize c.val.toNat = m at codes ⊢
  generalize d.val.toNat = n at codes valid ⊢
  have digits := digits_lt codes (by omega)
  simp only
  split_ifs <;> simp (disch := omega) only [List.cons_append, List.nil_append,
    List.cons_lex_cons_iff, ← UInt8.toNat_inj, byte] <;> omega

theorem bytesBefore_of_lt {s t : String} (less : s < t) : bytesBefore s t := by
  have chars : List.Lex (· < ·) s.toList t.toList := String.lt_iff.mp less
  rw [bytesBefore, bytes_eq, bytes_eq]
  generalize s.toList = cs at chars ⊢
  generalize t.toList = ds at chars ⊢
  induction chars with
  | @nil c cs =>
      rw [List.flatMap_nil, List.flatMap_cons]
      cases bytes : String.utf8EncodeChar c with
      | nil => simp [String.utf8EncodeChar_ne_nil] at bytes
      | cons => exact .nil
  | cons _ ih => exact List.Lex.append_left _ ih _
  | rel less => exact lex_utf8EncodeChar less _ _

/-- A class that a universe is asked to add. -/
structure Definition where
  serial : Nat
  name : String
  arity : Int
  base : Option Instance

/-- The class that comes of a definition. -/
def Definition.made (r : Definition) : Class := ⟨r.serial, r.name, r.arity, r.base⟩

/-- The name is free, and the base is a class of the universe with all its arguments. -/
structure Definition.Acceptable (u : Universe) (r : Definition) : Prop where
  free : u.lookup? r.name = none
  arity : 0 ≤ r.arity
  base : ∀ b, r.base = some b →
    u.lookup? b.name = some b.cls ∧ (b.args.length : Int) = b.cls.arity

def Definition.addTo (r : Definition) (u : Universe) : Except DefineError (Universe × Class) :=
  u.defineAs r.serial r.name r.arity r.base

namespace Universe

/-- The universe after it was asked to add a class: the larger one, or itself if it refused. -/
def after (u : Universe) (r : Definition) : Universe :=
  match r.addTo u with
  | .ok (larger, _) => larger
  | .error _ => u

def afterAll (u : Universe) (rs : List Definition) : Universe := rs.foldl after u

/-- The names are in order, and the bases of classes are classes of the universe. -/
structure Orderly (u : Universe) : Prop where
  sorted : u.entries.Pairwise fun e f => e.1 < f.1
  linked : u.Linked

theorem sorted_insertSorted {entry : String × Class} {entries : List (String × Class)}
    (sorted : entries.Pairwise fun e f => e.1 < f.1) (fresh : ∀ e ∈ entries, e.1 ≠ entry.1) :
    (insertSorted entry entries).Pairwise fun e f => e.1 < f.1 := by
  induction entries with
  | nil => simp [insertSorted]
  | cons first rest ih =>
      obtain ⟨head, tail⟩ := List.pairwise_cons.mp sorted
      rw [List.forall_mem_cons] at fresh
      rw [insertSorted]
      split
      · rename_i less
        refine List.pairwise_cons.mpr ⟨?_, sorted⟩
        intro e member
        rcases List.mem_cons.mp member with rfl | later
        · exact less
        · exact String.lt_trans less (head e later)
      · rename_i notLess
        refine List.pairwise_cons.mpr ⟨?_, ih tail fresh.2⟩
        intro e member
        rcases List.mem_cons.mp ((insertSorted_perm entry rest).mem_iff.mp member) with rfl | later
        · exact Std.lt_of_le_of_ne (String.not_lt.mp notLess) fresh.1
        · exact head e later

theorem addTo_eq_ok_iff {u larger : Universe} {c : Class} {r : Definition} :
    r.addTo u = .ok (larger, c) ↔
      r.Acceptable u ∧ c = r.made ∧ larger = u.insert r.made := by
  rw [Definition.addTo, defineAs_eq_ok_iff]
  constructor
  · rintro ⟨free, arity, base, rfl, rfl⟩
    refine ⟨⟨free, arity, fun b above => ?_⟩, rfl, rfl⟩
    exact (base b above).imp_left holds_iff.mp
  · rintro ⟨⟨free, arity, base⟩, rfl, rfl⟩
    exact ⟨free, arity, fun b above => (base b above).imp_left holds_iff.mpr, rfl, rfl⟩

theorem orderly_empty : empty.Orderly := by
  refine ⟨.nil, ?_⟩
  intro c b held
  cases held

section Step

variable {u larger : Universe} {c : Class} {r : Definition} (added : r.addTo u = .ok (larger, c))

include added

theorem classes_perm_of_addTo : larger.classes.Perm (c :: u.classes) := by
  obtain ⟨-, -, -, -, rfl⟩ := defineAs_eq_ok_iff.mp added
  exact (insertSorted_perm _ u.entries).map _

theorem lookup?_of_addTo {n : String} {d : Class} (known : u.lookup? n = some d) :
    larger.lookup? n = some d := by
  obtain ⟨-, rfl⟩ := mem_of_lookup? known
  exact holds_iff.mp (holds_define_of_holds added d (holds_iff.mpr known))

theorem Orderly.addTo (orderly : u.Orderly) : larger.Orderly := by
  refine ⟨?_, Linked.define added orderly.linked⟩
  obtain ⟨fresh, -, -, rfl, rfl⟩ := defineAs_eq_ok_iff.mp added
  refine sorted_insertSorted orderly.sorted fun e member names => ?_
  exact absurd names.symm (by simpa using List.lookup_eq_none_iff.mp fresh e member)

end Step

theorem after_of_acceptable {u : Universe} {r : Definition} (acceptable : r.Acceptable u) :
    r.addTo u = .ok (u.after r, r.made) := by
  have added := addTo_eq_ok_iff.mpr ⟨acceptable, rfl, rfl⟩
  rw [after, added]

theorem after_of_not_acceptable {u : Universe} {r : Definition} (refused : ¬ r.Acceptable u) :
    (∃ e, r.addTo u = .error e) ∧ u.after r = u := by
  cases answer : r.addTo u with
  | ok added => exact absurd (addTo_eq_ok_iff.mp answer).1 refused
  | error e => exact ⟨⟨e, rfl⟩, by rw [after, answer]⟩

/-- A class is found under its own name and no other. -/
theorem Orderly.lookup?_eq_some_iff {u : Universe} (orderly : u.Orderly) {n : String} {c : Class} :
    u.lookup? n = some c ↔ c ∈ u.classes ∧ c.name = n := by
  refine ⟨mem_of_lookup?, ?_⟩
  rintro ⟨member, rfl⟩
  obtain ⟨⟨n, c⟩, here, rfl⟩ := List.mem_map.mp member
  obtain rfl : c.name = n := u.named _ here
  cases known : u.lookup? c.name with
  | none => simpa using List.lookup_eq_none_iff.mp known _ here
  | some d =>
      have distinct : (u.entries.map (·.1)).Nodup :=
        List.pairwise_map.mpr (orderly.sorted.imp String.ne_of_lt)
      obtain ⟨before, after, entries, -⟩ := List.lookup_eq_some_iff.mp known
      have there : (c.name, d) ∈ u.entries := by simp [entries]
      exact congrArg (fun e => some e.2) (List.inj_on_of_nodup_map distinct there here rfl)

theorem Orderly.increasing {u : Universe} (orderly : u.Orderly) :
    u.classes.Pairwise fun c d => c.name < d.name := by
  refine List.pairwise_map.mpr (orderly.sorted.imp_of_mem fun left right less => ?_)
  rwa [u.named _ left, u.named _ right]

theorem Orderly.after {u : Universe} (orderly : u.Orderly) (r : Definition) :
    (u.after r).Orderly := by
  unfold Universe.after
  split
  · rename_i added
    exact orderly.addTo added
  · exact orderly

theorem Orderly.afterAll {u : Universe} (orderly : u.Orderly) (rs : List Definition) :
    (u.afterAll rs).Orderly := by
  induction rs generalizing u with
  | nil => exact orderly
  | cons r rs ih => exact ih (orderly.after r)

end Universe

/-- What has to be asked for to get a class. -/
def Class.definition (c : Class) : Definition := ⟨c.serial, c.name, c.arity, c.base⟩

/-- The builtin classes in the order in which they are added. -/
def Builtin.definitions : List Definition :=
  [object, typeType, tuple, function, int, float, str, list, dict, bool].map Class.definition

theorem Universe.afterAll_definitions : empty.afterAll Builtin.definitions = builtin := by
  ext1
  decide +kernel

theorem Universe.orderly_builtin : builtin.Orderly :=
  afterAll_definitions ▸ orderly_empty.afterAll Builtin.definitions

/-- The universes that come of asking the empty one or the builtin one for classes. -/
def Universe.Reached (u : Universe) : Prop :=
  ∃ rs, u = empty.afterAll rs ∨ u = builtin.afterAll rs

theorem Universe.Reached.orderly {u : Universe} (reached : u.Reached) : u.Orderly := by
  obtain ⟨rs, rfl | rfl⟩ := reached
  · exact orderly_empty.afterAll rs
  · exact orderly_builtin.afterAll rs

theorem Universe.Grown.orderly {u : Universe} (grown : u.Grown) : u.Orderly := by
  induction grown with
  | builtin => exact orderly_builtin
  | @define u larger c serial name arity base smaller defined ih =>
      exact ih.addTo (r := ⟨serial, name, arity, base⟩) defined

/-- What can be said of the chain of bases of an instance over a universe. -/
structure Instance.Chained (u : Universe) (t : Instance) : Prop where
  head : t.ancestry.head? = some t
  chain : t.ancestry.IsChain fun i j => i.cls.base = some j
  root : ∃ r, t.ancestry.getLast? = some r ∧ r.cls.isRoot
  distinct : (t.ancestry.map name).Nodup
  stored : ∀ i ∈ t.ancestry, u.lookup? i.name = some i.cls
  full : ∀ i ∈ t.ancestry.tail, (i.args.length : Int) = i.cls.arity
  hasBase : ∀ n, t.cls.hasBase n ↔ ∃ i ∈ t.ancestry, i.name = n
  depth : t.cls.depth = t.ancestry.length - 1
  sees : ∀ s ∈ u.classes, (t.view? s.name).isSome ↔ t.cls.hasBase s.name
  view : ∀ s ∈ u.classes, ∀ i, t.view? s.name = some i ↔ i ∈ t.ancestry ∧ i.cls = s

/-- A universe keeps its classes under their own names and in the order of these, and all
    instances of its classes are chained. -/
structure Universe.Consistent (u : Universe) : Prop where
  stored : ∀ n c, u.lookup? n = some c ↔ c ∈ u.classes ∧ c.name = n
  increasing : u.classes.Pairwise fun c d => bytesBefore c.name d.name
  size : u.classes.length = u.size
  chained : ∀ t : Instance, t.cls ∈ u.classes → t.Chained u

theorem Class.nodup_ancestors (c : Class) : c.ancestors.Nodup := by
  fun_induction ancestors c with
  | case1 => exact List.nodup_singleton _
  | case2 serial name arity c args ih => exact ih.insert

namespace Instance

theorem bases_of_base {t b : Instance} (above : t.cls.base = some b) :
    t.cls.bases = b.ancestry := by
  rcases t with ⟨⟨serial, name, arity, base⟩, args⟩
  rcases b with ⟨c, args'⟩
  cases above
  rw [Class.bases, ancestry]

theorem bases_of_root {t : Instance} (root : t.cls.base = none) : t.cls.bases = [] := by
  rcases t with ⟨⟨serial, name, arity, base⟩, args⟩
  cases root
  rfl

theorem induction_from_root {motive : Instance → Prop} (t : Instance)
    (root : ∀ t, t.cls.base = none → motive t)
    (step : ∀ t b, t.cls.base = some b → motive b → motive t) : motive t := by
  cases above : t.cls.base with
  | none => exact root t above
  | some b =>
      have smaller : sizeOf b.cls < sizeOf t.cls :=
        sizeOf_cls_lt (bases_of_base above ▸ b.mem_ancestry_self)
      exact step t b above (induction_from_root b root step)
termination_by sizeOf t.cls

theorem isChain_ancestry (t : Instance) : t.ancestry.IsChain fun i j => i.cls.base = some j := by
  induction t using induction_from_root with
  | root t root =>
      rw [ancestry, bases_of_root root]
      exact .singleton t
  | step t b above ih =>
      rw [ancestry, bases_of_base above]
      exact List.isChain_cons_cons.mpr ⟨above, ih⟩

theorem exists_root (t : Instance) : ∃ r, t.ancestry.getLast? = some r ∧ r.cls.isRoot := by
  induction t using induction_from_root with
  | root t root =>
      rw [ancestry, bases_of_root root]
      exact ⟨t, rfl, Option.isNone_iff_eq_none.mpr root⟩
  | step t b above ih =>
      rwa [ancestry, bases_of_base above, ancestry, List.getLast?_cons_cons]

theorem names_nodup {u : Universe} (linked : u.Linked) {t : Instance} (held : u.holds t.cls) :
    (t.ancestry.map name).Nodup := by
  induction t using induction_from_root with
  | root t root => simp [ancestry, bases_of_root root]
  | step t b above ih =>
      refine List.nodup_cons.mpr ⟨?_, ?_⟩
      · intro repeated
        obtain ⟨i, member, names⟩ := List.mem_map.mp repeated
        exact name_ne_of_mem_bases linked held member names
      · rw [bases_of_base above]
        exact ih (linked held above).1

/-- The set of names is as large as the chain of bases if no name is repeated on it. -/
theorem depth_eq {t : Instance} (distinct : (t.ancestry.map name).Nodup) :
    t.cls.depth = t.ancestry.length - 1 := by
  have same : t.cls.ancestors.Perm (t.ancestry.map name) := by
    refine (List.perm_ext_iff_of_nodup t.cls.nodup_ancestors distinct).mpr fun n => ?_
    rw [← List.contains_iff_mem, List.mem_map]
    exact hasBase_iff
  rw [Class.depth, same.length_eq, List.length_map]

end Instance

namespace Universe

variable {u : Universe} (orderly : u.Orderly)

include orderly

theorem Orderly.holds_iff_mem {c : Class} : u.holds c ↔ c ∈ u.classes := by
  rw [holds_iff, orderly.lookup?_eq_some_iff, and_iff_left rfl]

theorem Orderly.chained {t : Instance} (member : t.cls ∈ u.classes) : t.Chained u := by
  have linked : u.Linked := orderly.linked
  have held := orderly.holds_iff_mem.mpr member
  have distinct := Instance.names_nodup linked held
  exact {
    head := rfl
    chain := t.isChain_ancestry
    root := t.exists_root
    distinct
    stored := fun i above => holds_iff.mp (Instance.holds_of_mem_ancestry linked held above)
    full := fun i above => (Instance.linked_of_mem_bases linked held above).2
    hasBase := fun n => Instance.hasBase_iff
    depth := Instance.depth_eq distinct
    sees := fun s _ => by
      rw [Instance.hasBase_iff, Instance.view?, List.find?_isSome]
      simp
    view := fun s known i => by
      rw [Instance.view?_eq_some_iff linked held]
      refine and_congr_right fun above => ⟨fun names => ?_, fun same => same ▸ rfl⟩
      exact eq_of_holds (Instance.holds_of_mem_ancestry linked held above)
        (orderly.holds_iff_mem.mpr known) names }

theorem consistent_of_orderly : u.Consistent where
  stored _ _ := orderly.lookup?_eq_some_iff
  increasing := orderly.increasing.imp bytesBefore_of_lt
  size := List.length_map _
  chained _ := orderly.chained

end Universe

/-- Whatever a universe was asked to add before, it is consistent. What it is asked next it does
    exactly if the definition is acceptable: then it has the new class besides all those it had,
    and otherwise it stays as it is. -/
theorem Universe.Reached.consistent {u : Universe} (reached : u.Reached) (r : Definition) :
    u.Consistent ∧
      (r.Acceptable u → r.addTo u = .ok (u.after r, r.made) ∧
        (u.after r).classes.Perm (r.made :: u.classes) ∧
          ∀ n c, u.lookup? n = some c → (u.after r).lookup? n = some c) ∧
      (¬ r.Acceptable u → (∃ e, r.addTo u = .error e) ∧ u.after r = u) := by
  refine ⟨consistent_of_orderly reached.orderly, ?_, after_of_not_acceptable⟩
  intro acceptable
  have added := after_of_acceptable acceptable
  exact ⟨added, classes_perm_of_addTo added, fun n c => lookup?_of_addTo added⟩

namespace Sample

/-- Two classes that can be added, and between them a name that is taken, a base that the
    universe does not hold and a base without a class. -/
def requests : List Definition :=
  [intList.definition, ⟨11, "int", 0, none⟩, ⟨12, "pebble", 0, some ⟨rock, []⟩⟩,
    ⟨13, "stray", 0, some ⟨Class.missing, []⟩⟩, ⟨14, "row", 1, some ⟨intList, []⟩⟩]

def furnished : Universe := Universe.builtin.afterAll requests

def cell : Definition := ⟨15, "cell", 2, some ⟨⟨14, "row", 1, some ⟨intList, []⟩⟩, [.void]⟩⟩

end Sample

open Sample in
theorem consistent_furnished :
    furnished.Reached ∧ furnished.classes.map Class.name = ["bool", "dict", "float", "function",
        "int", "intlist", "list", "object", "row", "str", "tuple", "type"] ∧
      furnished.Consistent ∧ cell.Acceptable furnished ∧
        cell.addTo furnished = .ok (furnished.after cell, cell.made) := by
  have reached : furnished.Reached := ⟨requests, .inr rfl⟩
  have evaluated : furnished.classes.map Class.name = ["bool", "dict", "float", "function",
        "int", "intlist", "list", "object", "row", "str", "tuple", "type"] ∧
      furnished.lookup? cell.name = none ∧
      ∀ b ∈ cell.base, furnished.lookup? b.name = some b.cls ∧
        (b.args.length : Int) = b.cls.arity := by
    decide +kernel
  obtain ⟨names, free, base⟩ := evaluated
  have acceptable : cell.Acceptable furnished := ⟨free, by decide, base⟩
  obtain ⟨consistent, grows, -⟩ := reached.consistent cell
  exact ⟨reached, names, consistent, acceptable, (grows acceptable).1⟩

end TypeBounds
