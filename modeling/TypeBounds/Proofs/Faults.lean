import Mathlib.Data.List.Forall2
import Mathlib.Data.List.Nodup
import TypeBounds.Proofs.RoundTrip

/-! # What is reported about an expression

A name is at fault if it stands for no type with its arguments. The parts of an expression
are found by paths, and of the faulty parts those are reported that are inside no other
one: resolving does not look into a part that it reports. The mistakes come in the order
of the text, since the part of a text that is read first is resolved first.
-/

namespace TypeBounds

namespace TypeExpr

/-- Where the expression starts. -/
def position : TypeExpr → Position
  | .named position _ _ => position
  | .callable position _ _ => position
  | .tuple position _ => position

/-- The parts of an expression, in the order in which they are written. -/
def children : TypeExpr → List TypeExpr
  | .named _ _ args => args
  | .callable _ params result => params ++ [result]
  | .tuple _ items => items

/-- What a path leads to; each step says which of the children to go on with. -/
def at? : List Nat → TypeExpr → Option TypeExpr
  | [], e => some e
  | i :: path, e => e.children[i]?.bind (at? path)

/-- A name with what is wrong about it. -/
inductive Faulty (scope : Scope) : TypeExpr → Fault → Prop where
  /-- A special type takes no arguments. -/
  | special {position : Position} {name : String} {args : List TypeExpr} {t : Ty}
      (special : specialType? name = some t) (some : args ≠ []) :
      Faulty scope (.named position name args) (.typeArity name 0 args.length)
  | unknown {position : Position} {name : String} {args : List TypeExpr}
      (ordinary : specialType? name = none) (absent : scope.classes.lookup? name = none) :
      Faulty scope (.named position name args) (.unknownClass name)
  | count {position : Position} {name : String} {args : List TypeExpr} {c : Class}
      (ordinary : specialType? name = none) (known : scope.classes.lookup? name = some c)
      (other : (args.length : Int) ≠ c.arity) :
      Faulty scope (.named position name args) (.typeArity name c.arity args.length)

/-- A path to a faulty part, and the mistake that it is. -/
def FaultAt (scope : Scope) (e : TypeExpr) (path : List Nat) (m : Mistake) : Prop :=
  ∃ part fault, e.at? path = some part ∧ part.Faulty scope fault ∧ m = ⟨part.position, fault⟩

/-- A path to a faulty part that is inside no other one. -/
def Outermost (scope : Scope) (e : TypeExpr) (path : List Nat) : Prop :=
  (∃ m, e.FaultAt scope path m) ∧
    ∀ front m, front <+: path → front ≠ path → ¬ e.FaultAt scope front m

theorem sizeOf_lt_of_mem_children {e part : TypeExpr} (member : part ∈ e.children) :
    sizeOf part < sizeOf e := by
  cases e with
  | named position name args =>
      have lt : sizeOf part < sizeOf args := List.sizeOf_lt_of_mem member
      simp only [named.sizeOf_spec]
      omega
  | callable position params result =>
      simp only [children, List.mem_append, List.mem_singleton] at member
      simp only [callable.sizeOf_spec]
      rcases member with inside | rfl
      · have lt := List.sizeOf_lt_of_mem inside
        omega
      · omega
  | tuple position items =>
      have lt : sizeOf part < sizeOf items := List.sizeOf_lt_of_mem member
      simp only [tuple.sizeOf_spec]
      omega

/-- The path goes into one of the parts, which are numbered from `k` on, and on in it. -/
def Into (k : Nat) (parts : List TypeExpr) (on : TypeExpr → List Nat → Prop) (path : List Nat) :
    Prop :=
  ∃ i rest part, path = (k + i) :: rest ∧ parts[i]? = some part ∧ on part rest

theorem into_cons {k : Nat} {part : TypeExpr} {parts : List TypeExpr}
    {on : TypeExpr → List Nat → Prop} {path : List Nat} :
    Into k (part :: parts) on path ↔
      (∃ rest, path = k :: rest ∧ on part rest) ∨ Into (k + 1) parts on path := by
  constructor
  · rintro ⟨i, rest, found, rfl, there, holds⟩
    cases i with
    | zero =>
        obtain rfl := Option.some.inj there
        exact .inl ⟨rest, rfl, holds⟩
    | succ i => exact .inr ⟨i, rest, found, by rw [Nat.add_right_comm]; rfl, there, holds⟩
  · rintro (⟨rest, rfl, holds⟩ | ⟨i, rest, found, rfl, there, holds⟩)
    · exact ⟨0, rest, part, rfl, rfl, holds⟩
    · exact ⟨i + 1, rest, found, by rw [Nat.add_right_comm]; rfl, there, holds⟩

section Step

variable {scope : Scope} {place : Placement} {e : TypeExpr}

theorem mistakes_resolveAll (es : List TypeExpr) : (resolveAll scope place es).mistakes =
    es.flatMap fun e => (e.resolve scope place).mistakes := by
  induction es with
  | nil => rfl
  | cons e es ih => rw [resolveAll, List.flatMap_cons, ih]

theorem Faulty.mistakes {fault : Fault} (faulty : e.Faulty scope fault) :
    (e.resolve scope place).mistakes = [⟨place.locate e.position, fault⟩] := by
  cases faulty with
  | special special some => simp [resolve, special, some, position]
  | unknown ordinary absent => simp [resolve, ordinary, absent, position]
  | count ordinary known other => simp [resolve, ordinary, known, other, position]

theorem mistakes_of_sound (sound : ∀ fault, ¬ e.Faulty scope fault) :
    (e.resolve scope place).mistakes =
      e.children.flatMap fun part => (part.resolve scope place).mistakes := by
  cases e with
  | callable position params result =>
      simp only [resolve, children, mistakes_resolveAll, List.flatMap_append, List.flatMap_cons,
        List.flatMap_nil, List.append_nil]
  | tuple position items => simp only [resolve, children, mistakes_resolveAll]
  | named position name args =>
      cases special : specialType? name with
      | some t =>
          have none : args = [] := by
            by_contra some
            exact sound _ (.special special some)
          simp [resolve, special, none, children]
      | none =>
          cases known : scope.classes.lookup? name with
          | none => exact (sound _ (.unknown special known)).elim
          | some c =>
              have count : (args.length : Int) = c.arity := by
                by_contra other
                exact sound _ (.count special known other)
              simp only [resolve, special, known, if_pos count, children, mistakes_resolveAll]

theorem faultAt_nil_iff {m : Mistake} :
    e.FaultAt scope [] m ↔ ∃ fault, e.Faulty scope fault ∧ m = ⟨e.position, fault⟩ := by
  simp [FaultAt, at?]

theorem faultAt_cons_iff {i : Nat} {path : List Nat} {m : Mistake} :
    e.FaultAt scope (i :: path) m ↔
      ∃ part, e.children[i]? = some part ∧ part.FaultAt scope path m := by
  simp only [FaultAt, at?, Option.bind_eq_some_iff]
  constructor
  · rintro ⟨found, fault, ⟨part, child, there⟩, rest⟩
    exact ⟨part, child, found, fault, there, rest⟩
  · rintro ⟨part, child, found, fault, there, rest⟩
    exact ⟨found, fault, ⟨part, child, there⟩, rest⟩

theorem Faulty.outermost_iff {fault : Fault} (faulty : e.Faulty scope fault) {path : List Nat} :
    e.Outermost scope path ↔ path = [] := by
  have here : e.FaultAt scope [] ⟨e.position, fault⟩ := faultAt_nil_iff.mpr ⟨fault, faulty, rfl⟩
  constructor
  · intro outermost
    by_contra inside
    exact outermost.2 [] _ List.nil_prefix (Ne.symm inside) here
  · rintro rfl
    refine ⟨⟨_, here⟩, fun front m before other => ?_⟩
    exact (other (List.prefix_nil.mp before)).elim

/-- In a part that is not faulty itself, the outermost parts are those of its children. -/
theorem outermost_iff_of_sound (sound : ∀ fault, ¬ e.Faulty scope fault) {path : List Nat} :
    e.Outermost scope path ↔ Into 0 e.children (fun part => part.Outermost scope) path := by
  have clean : ∀ m, ¬ e.FaultAt scope [] m := by
    intro m fault
    obtain ⟨fault, faulty, -⟩ := faultAt_nil_iff.mp fault
    exact sound fault faulty
  cases path with
  | nil =>
      refine iff_of_false ?_ (by simp [Into])
      rintro ⟨⟨m, fault⟩, -⟩
      exact clean m fault
  | cons i rest =>
      constructor
      · rintro ⟨⟨m, fault⟩, free⟩
        obtain ⟨part, child, fault⟩ := faultAt_cons_iff.mp fault
        refine ⟨i, rest, part, by rw [Nat.zero_add], child, ⟨m, fault⟩, ?_⟩
        intro front m' before other fault'
        exact free (i :: front) m' (List.cons_prefix_cons.mpr ⟨rfl, before⟩) (by simpa using other)
          (faultAt_cons_iff.mpr ⟨part, child, fault'⟩)
      · rintro ⟨j, _, part, same, child, ⟨m, fault⟩, free⟩
        obtain ⟨rfl, rfl⟩ : i = j ∧ rest = _ := by simpa using same
        refine ⟨⟨m, faultAt_cons_iff.mpr ⟨part, child, fault⟩⟩, fun front m' before other => ?_⟩
        cases front with
        | nil => exact clean m'
        | cons j front =>
            obtain ⟨rfl, inside⟩ := List.cons_prefix_cons.mp before
            intro fault'
            obtain ⟨part', child', fault'⟩ := faultAt_cons_iff.mp fault'
            obtain rfl := Option.some.inj (child.symm.trans child')
            exact free front m' inside (by simpa using other) fault'

theorem exists_outermost_of_faultAt {path : List Nat} {m : Mistake}
    (fault : e.FaultAt scope path m) : ∃ front, front <+: path ∧ e.Outermost scope front := by
  by_cases outermost : e.Outermost scope path
  · exact ⟨path, List.prefix_rfl, outermost⟩
  · simp only [Outermost, not_and, not_forall, not_not] at outermost
    obtain ⟨front, m', before, other, fault'⟩ := outermost ⟨m, fault⟩
    obtain ⟨first, before', found⟩ := exists_outermost_of_faultAt fault'
    exact ⟨first, before'.trans before, found⟩
termination_by path.length
decreasing_by
  exact Nat.lt_of_le_of_ne before.length_le fun same => other (before.eq_of_length same)

end Step

/-- The mistakes are those of all the paths that are wanted, one of each. -/
structure Lists (wanted : List Nat → Prop) (fault : List Nat → Mistake → Prop)
    (paths : List (List Nat)) (ms : List Mistake) : Prop where
  nodup : paths.Nodup
  mem_iff : ∀ path, path ∈ paths ↔ wanted path
  faults : List.Forall₂ fault paths ms

theorem exists_lists_into {wanted : TypeExpr → List Nat → Prop}
    {fault : Mistake → TypeExpr → List Nat → Prop} {found : TypeExpr → List Mistake}
    (parts : List TypeExpr)
    (each : ∀ part ∈ parts, ∃ paths,
      Lists (wanted part) (fun path m => fault m part path) paths (found part)) (k : Nat) :
    ∃ paths, Lists (Into k parts wanted) (fun path m => Into k parts (fault m) path) paths
      (parts.flatMap found) := by
  induction parts generalizing k with
  | nil => exact ⟨[], .nil, by simp [Into], .nil⟩
  | cons part parts ih =>
      rw [List.forall_mem_cons] at each
      obtain ⟨front, ofFront⟩ := each.1
      obtain ⟨back, ofBack⟩ := ih each.2 (k + 1)
      refine ⟨front.map (k :: ·) ++ back, ?_, fun path => ?_, ?_⟩
      · refine (ofFront.nodup.map List.cons_injective).append ofBack.nodup ?_
        intro path first later
        obtain ⟨rest, -, rfl⟩ := List.mem_map.mp first
        obtain ⟨i, _, _, same, -⟩ := (ofBack.mem_iff _).mp later
        have : k = k + 1 + i := (List.cons.inj same).1
        omega
      · simp only [List.mem_append, List.mem_map, ofFront.mem_iff, ofBack.mem_iff, into_cons,
          eq_comm (a := path), and_comm]
      · rw [List.flatMap_cons]
        refine List.rel_append (List.forall₂_map_left_iff.mpr ?_) ?_
        · exact ofFront.faults.imp fun path m fault => into_cons.mpr (.inl ⟨path, rfl, fault⟩)
        · exact ofBack.faults.imp fun path m fault => into_cons.mpr (.inr fault)

/-- Resolving lists the outermost faulty parts. -/
theorem exists_lists (scope : Scope) (e : TypeExpr) : ∃ paths,
    Lists (e.Outermost scope) (e.FaultAt scope) paths (e.resolve scope .nowhere).mistakes := by
  by_cases faulty : ∃ fault, e.Faulty scope fault
  · obtain ⟨fault, faulty⟩ := faulty
    refine ⟨[[]], List.nodup_singleton _, fun path => ?_, ?_⟩
    · rw [faulty.outermost_iff, List.mem_singleton]
    · rw [faulty.mistakes]
      exact .cons (faultAt_nil_iff.mpr ⟨fault, faulty, rfl⟩) .nil
  · have sound := not_exists.mp faulty
    have each : ∀ part ∈ e.children, ∃ paths, Lists (part.Outermost scope) (part.FaultAt scope)
        paths (part.resolve scope .nowhere).mistakes := fun part _ => exists_lists scope part
    obtain ⟨paths, nodup, mem_iff, faults⟩ := exists_lists_into e.children each 0
    refine ⟨paths, nodup, fun path => ?_, ?_⟩
    · rw [mem_iff, outermost_iff_of_sound sound]
    · rw [mistakes_of_sound sound]
      refine faults.imp fun path m => ?_
      rintro ⟨i, rest, part, rfl, child, fault⟩
      rw [Nat.zero_add]
      exact faultAt_cons_iff.mpr ⟨part, child, fault⟩
termination_by sizeOf e
decreasing_by exact sizeOf_lt_of_mem_children ‹_›

theorem mistakes_eq_nil_iff (scope : Scope) (e : TypeExpr) :
    (e.resolve scope .nowhere).mistakes = [] ↔ ∀ path m, ¬ e.FaultAt scope path m := by
  obtain ⟨paths, listed⟩ := exists_lists scope e
  have lengths := listed.faults.length_eq
  rw [← List.length_eq_zero_iff, ← lengths, List.length_eq_zero_iff, List.eq_nil_iff_forall_not_mem]
  simp only [listed.mem_iff]
  constructor
  · intro free path m fault
    obtain ⟨front, -, outermost⟩ := exists_outermost_of_faultAt fault
    exact free front outermost
  · rintro sound path ⟨⟨m, fault⟩, -⟩
    exact sound path m fault

/-- What is reported about an expression: an outermost faulty part, in its place. -/
inductive HasMistake (scope : Scope) (place : Placement) (e : TypeExpr) : Mistake → Prop where
  | intro {path : List Nat} {m : Mistake} (outermost : e.Outermost scope path)
      (fault : e.FaultAt scope path m) :
      HasMistake scope place e ⟨place.locate m.position, m.fault⟩

theorem mem_mistakes_iff (scope : Scope) (place : Placement) (e : TypeExpr) {m : Mistake} :
    m ∈ (e.resolve scope place).mistakes ↔ e.HasMistake scope place m := by
  by_cases faulty : ∃ fault, e.Faulty scope fault
  · obtain ⟨fault, faulty⟩ := faulty
    rw [faulty.mistakes, List.mem_singleton]
    constructor
    · rintro rfl
      exact .intro (faulty.outermost_iff.mpr rfl) (faultAt_nil_iff.mpr ⟨fault, faulty, rfl⟩)
    · rintro ⟨outermost, there⟩
      obtain rfl := faulty.outermost_iff.mp outermost
      obtain ⟨fault', faulty', rfl⟩ := faultAt_nil_iff.mp there
      have found : (e.resolve scope place).mistakes = [⟨place.locate e.position, fault⟩] :=
        faulty.mistakes
      simpa using faulty'.mistakes.symm.trans found
  · have sound := not_exists.mp faulty
    have each : ∀ part ∈ e.children, ∀ {m}, m ∈ (part.resolve scope place).mistakes ↔
        part.HasMistake scope place m := fun part _ _ => mem_mistakes_iff scope place part
    rw [mistakes_of_sound sound, List.mem_flatMap]
    constructor
    · rintro ⟨part, child, mistaken⟩
      obtain ⟨outermost, there⟩ := (each part child).mp mistaken
      obtain ⟨i, child⟩ := List.mem_iff_getElem?.mp child
      have above := (outermost_iff_of_sound sound).mpr
        ⟨i, _, part, rfl, child, outermost⟩
      rw [Nat.zero_add] at above
      exact .intro above (faultAt_cons_iff.mpr ⟨part, child, there⟩)
    · rintro ⟨outermost, there⟩
      obtain ⟨i, rest, part, rfl, child, outermost⟩ := (outermost_iff_of_sound sound).mp outermost
      obtain ⟨part', child', there⟩ := faultAt_cons_iff.mp there
      rw [Nat.zero_add, child] at child'
      obtain rfl := Option.some.inj child'
      have member := List.mem_of_getElem? child
      exact ⟨part, member, (each part member).mpr (.intro outermost there)⟩
termination_by sizeOf e
decreasing_by exact sizeOf_lt_of_mem_children ‹_›

end TypeExpr

namespace Position

/-- On an earlier line, or on the same line and in an earlier column. -/
def Before (p q : Position) : Prop := p.line < q.line ∨ p.line = q.line ∧ p.column < q.column

theorem Before.trans {p q r : Position} (first : p.Before q) (second : q.Before r) :
    p.Before r := by
  unfold Before at *
  omega

instance : Trans Before Before Before := ⟨Before.trans⟩

theorem before_advance (p : Position) (c : Char) : p.Before (p.advance c) := by
  unfold Before advance
  split
  · exact .inl (Int.lt_succ _)
  · exact .inr ⟨rfl, Int.lt_succ _⟩

theorem before_advanceAll (p : Position) {cs : List Char} (some : cs ≠ []) :
    p.Before (p.advanceAll cs) := by
  induction cs generalizing p with
  | nil => exact (some rfl).elim
  | cons c cs ih =>
      cases cs with
      | nil => exact p.before_advance c
      | cons d cs => exact (p.before_advance c).trans (ih _ (by simp))

end Position

open Position (Before)

theorem Token.Splits.isChain {position stop : Position} {cs : List Char} {tokens : List Token}
    (splits : Splits position cs tokens stop) {p : Position} (before : p.Before position) :
    (p :: tokens.map (·.position)).IsChain Before := by
  induction splits generalizing p with
  | nil => exact .singleton p
  | ident isIdent _ _ ih =>
      obtain ⟨c, cs, chars, -⟩ := exists_first_of_isIdent isIdent
      exact .cons_cons before (ih (Position.before_advanceAll _ (by simp [chars])))
  | blanks some _ _ _ ih => exact ih (before.trans (Position.before_advanceAll _ some))
  | sign other _ ih =>
      obtain ⟨c, cs, chars, -⟩ := exists_first_of_sign other
      exact .cons_cons before (ih (Position.before_advanceAll _ (by simp [chars])))

theorem Token.Splits.pairwise_positions {position stop : Position} {cs : List Char}
    {tokens : List Token} (splits : Splits position cs tokens stop) :
    (tokens.map (·.position)).Pairwise Before := by
  have before : Before ⟨position.line - 1, 0⟩ position := by
    simp only [Before]
    omega
  exact (List.pairwise_cons.mp (splits.isChain before).pairwise).2

/-- The name that a fault is about. -/
def Fault.name? : Fault → Option String
  | .parse .. => none
  | .unknownClass name => some name
  | .unknownVariable name => some name
  | .typeArity name .. => some name
  | .duplicateClass name => some name
  | .duplicateVariable name => some name
  | .invalidClass name _ => some name

/-- The mistake is about a token that is a name. -/
structure Mistake.Names (place : Placement) (m : Mistake) (t : Token) : Prop where
  name : ∃ name, t.lexeme = .ident name ∧ m.fault.name? = some name
  position : m.position = place.locate t.position

theorem TypeExpr.Faulty.exists_named {scope : Scope} {e : TypeExpr} {fault : Fault}
    (faulty : e.Faulty scope fault) :
    ∃ position name args, e = .named position name args ∧ fault.name? = some name := by
  cases faulty <;> exact ⟨_, _, _, rfl, rfl⟩

theorem Derivation.exists_tokens_of_named {d : Derivation} {position : Position} {name : String}
    {args : List TypeExpr} (named : d.expr = .named position name args) :
    ∃ rest, d.tokens = ⟨.ident name, position⟩ :: rest := by
  cases d <;> cases named <;> exact ⟨_, rfl⟩

/-- The mistakes are about some of the tokens, one after the other. -/
def Mistake.AllName (place : Placement) (ms : List Mistake) (tokens : List Token) : Prop :=
  ∃ named, named.Sublist tokens ∧ List.Forall₂ (Names place) ms named

theorem Mistake.AllName.mono {place : Placement} {ms : List Mistake} {tokens more : List Token}
    (names : AllName place ms tokens) (le : tokens.Sublist more) : AllName place ms more := by
  obtain ⟨named, sublist, each⟩ := names
  exact ⟨named, sublist.trans le, each⟩

theorem Mistake.AllName.append {place : Placement} {ms ms' : List Mistake}
    {tokens tokens' : List Token} (names : AllName place ms tokens)
    (names' : AllName place ms' tokens') : AllName place (ms ++ ms') (tokens ++ tokens') := by
  obtain ⟨named, sublist, each⟩ := names
  obtain ⟨named', sublist', each'⟩ := names'
  exact ⟨named ++ named', sublist.append sublist', List.rel_append each each'⟩

mutual
theorem Derivation.allName (scope : Scope) (place : Placement) (d : Derivation) :
    Mistake.AllName place (d.expr.resolve scope place).mistakes d.tokens := by
  by_cases faulty : ∃ fault, d.expr.Faulty scope fault
  · obtain ⟨fault, faulty⟩ := faulty
    obtain ⟨position, name, args, named, about⟩ := faulty.exists_named
    obtain ⟨rest, tokens⟩ := Derivation.exists_tokens_of_named named
    rw [faulty.mistakes, tokens, named]
    exact ⟨_, List.singleton_sublist.mpr List.mem_cons_self,
      .cons ⟨⟨name, rfl, about⟩, rfl⟩ .nil⟩
  · rw [TypeExpr.mistakes_of_sound (not_exists.mp faulty)]
    cases d with
    | name position name => exact ⟨[], List.nil_sublist _, .nil⟩
    | applied position name left args right =>
        refine (args.allName scope place).mono (.cons _ (.cons _ ?_))
        exact List.sublist_append_left _ _
    | thunk keyword left right arrow result =>
        simp only [Derivation.expr, TypeExpr.children, List.nil_append, List.flatMap_singleton]
        exact (result.allName scope place).mono (.cons _ (.cons _ (.cons _ (.cons _ (.refl _)))))
    | callable keyword left params right arrow result =>
        simp only [Derivation.expr, TypeExpr.children, List.flatMap_append, List.flatMap_singleton]
        refine ((params.allName scope place).append (result.allName scope place)).mono ?_
        exact .cons _ (.cons _ (.append (.refl _) (.cons _ (.cons _ (.refl _)))))
    | unit left right => exact ⟨[], List.nil_sublist _, .nil⟩
    | tuple left items comma right =>
        refine (items.allName scope place).mono (.cons _ ?_)
        exact List.sublist_append_left _ _

theorem Derivations.allName (scope : Scope) (place : Placement) (ds : Derivations) :
    Mistake.AllName place (ds.exprs.flatMap fun e => (e.resolve scope place).mistakes)
      ds.tokens := by
  cases ds with
  | one type =>
      simp only [Derivations.exprs, List.flatMap_singleton]
      exact type.allName scope place
  | more first comma others =>
      simp only [Derivations.exprs, List.flatMap_cons]
      refine ((first.allName scope place).append (others.allName scope place)).mono ?_
      exact .append (.refl _) (.cons _ (.refl _))
end

/-- Where the mistakes in an expression are. -/
def TypeExpr.places (scope : Scope) (e : TypeExpr) : List Position :=
  (e.resolve scope .nowhere).mistakes.map (·.position)

/-- The mistakes in an expression that was read are in the order of the text. -/
theorem TypeExpr.places_pairwise {source : String} {e : TypeExpr}
    (read : TypeExpr.read source = .ok e) (scope : Scope) : (e.places scope).Pairwise Before := by
  obtain ⟨d, stop, splits, rfl⟩ := recognizes.exists_derivation read
  obtain ⟨named, sublist, names⟩ := d.allName scope .nowhere
  have places : d.expr.places scope = named.map (·.position) := by
    rw [TypeExpr.places, ← List.forall₂_eq_eq_eq, List.forall₂_map_left_iff,
      List.forall₂_map_right_iff]
    exact names.imp fun m t about => about.position
  rw [places]
  exact splits.pairwise_positions.sublist (sublist.map _)

theorem Scope.readType_eq_error_iff {scope : Scope} {source : String} {e : TypeExpr}
    (read : TypeExpr.read source = .ok e) {ms : List Mistake} :
    scope.readType source = .error ms ↔ (e.resolve scope .nowhere).mistakes = ms ∧ ms ≠ [] := by
  rw [readType, read]
  cases found : (e.resolve scope .nowhere).mistakes with
  | nil => simp [found, eq_comm]
  | cons m rest =>
      simp only [found, List.isEmpty_cons, Bool.false_eq_true, if_false, Except.error.injEq]
      exact ⟨fun same => ⟨same, by simp [← same]⟩, And.left⟩

/-- An expression is resolved exactly if no part of it is at fault, and then to a type that is
    well-formed over the scope; otherwise its outermost faulty parts are reported, each of them
    once, in the order in which they stand in the text. -/
theorem Scope.readType_faults (scope : Scope) {source : String} {e : TypeExpr}
    (read : TypeExpr.read source = .ok e) :
    ((∃ t, scope.readType source = .ok t) ↔ ∀ path m, ¬ e.FaultAt scope path m) ∧
      (∀ t, scope.readType source = .ok t → t.isOver scope ∧
        ∀ u : Universe, u.Grown → scope = .over u → t.fits u .written) ∧
      ∀ ms, scope.readType source = .error ms →
        (ms.map (·.position)).Pairwise Before ∧
          ∃ paths, TypeExpr.Lists (e.Outermost scope) (e.FaultAt scope) paths ms := by
  refine ⟨?_, fun t found => ?_, fun ms found => ?_⟩
  · rw [← TypeExpr.mistakes_eq_nil_iff]
    constructor
    · rintro ⟨t, found⟩
      obtain ⟨e', read', resolved⟩ := readType_eq_ok_iff.mp found
      obtain rfl := Except.ok.inj (read.symm.trans read')
      exact congrArg Resolved.mistakes resolved
    · intro clean
      exact ⟨_, readType_eq_ok_iff.mpr ⟨e, read, congrArg (Resolved.mk _) clean⟩⟩
  · obtain ⟨e', -, resolved⟩ := readType_eq_ok_iff.mp found
    have written := (TypeExpr.resolve_isOver (congrArg Resolved.mistakes resolved)).1
    rw [resolved] at written
    refine ⟨written, fun u grown same => ?_⟩
    rw [same, grown.scope_over] at written
    exact Ty.fits_of_isOver grown written
  · obtain ⟨rfl, -⟩ := (readType_eq_error_iff read).mp found
    exact ⟨TypeExpr.places_pairwise read scope, TypeExpr.exists_lists scope e⟩

namespace Sample

/-- The name `foo` is unknown too, but it is inside a part that is at fault. -/
def misnamed : String := "(Any[foo],\n list[def () -> bar])"

def misnamedExpr : TypeExpr :=
  .tuple ⟨1, 1⟩ [.named ⟨1, 2⟩ "Any" [.named ⟨1, 6⟩ "foo" []],
    .named ⟨2, 2⟩ "list" [.callable ⟨2, 7⟩ [] (.named ⟨2, 17⟩ "bar" [])]]

def misnamedMistakes : List Mistake :=
  [⟨⟨1, 2⟩, .typeArity "Any" 0 1⟩, ⟨⟨2, 17⟩, .unknownClass "bar"⟩]

end Sample

open Sample in
theorem readType_faults_misnamed :
    TypeExpr.read misnamed = .ok misnamedExpr ∧
      Scope.builtin.readType misnamed = .error misnamedMistakes ∧
      (misnamedMistakes.map (·.position)).Pairwise Before ∧
      ∃ paths, TypeExpr.Lists (misnamedExpr.Outermost .builtin) (misnamedExpr.FaultAt .builtin)
        paths misnamedMistakes := by
  have read : TypeExpr.read misnamed = .ok misnamedExpr := by cbv
  have found : Scope.builtin.readType misnamed = .error misnamedMistakes := by decide +kernel
  exact ⟨read, found, (Scope.readType_faults .builtin read).2.2 _ found⟩

end TypeBounds
