import Mathlib.Data.List.Forall2
import TypeBounds.Problem
import TypeBounds.Proofs.Declaring
import TypeBounds.Proofs.Hierarchy

/-! # Loading problems

A node writes a constraint when its text is a name, an operator and a type that can be
looked up; otherwise it has mistakes. Reading the nodes one after another keeps the
constraints so far in step with the nodes they come from, and their variables in step with
the names. So a document either states a well-formed problem or all its mistakes are
reported.
-/

namespace TypeBounds

open Yaml (Node)

theorem ConstraintExpr.lexemes_of_read {s : String} {e : ConstraintExpr}
    (found : ConstraintExpr.read s = .ok e) : ∃ tokens stop l rest,
      Token.scan s = .ok (tokens, stop) ∧ tokens.map (·.lexeme) = .ident e.var :: l :: rest ∧
        l.Bounds e.direction ∧ e.target.isSpelled := by
  obtain ⟨d, stop, splits, rfl⟩ := ConstraintExpr.recognizes.exists_derivation found
  refine ⟨d.tokens, stop, d.operator, d.target.lexemes, splits.scanFrom, rfl, d.bounds, ?_⟩
  refine d.target.isSpelled_expr fun name member => splits.isIdent_of_mem ?_
  exact List.mem_cons_of_mem _ (List.mem_cons_of_mem _ member)

/-- A node writes a constraint: its text is a name, an operator and a type that means `t`. -/
inductive Yaml.Node.Writes (scope : Scope) (n : Node) : String → Direction → Ty → Prop where
  | intro {source : Placed} {e : ConstraintExpr} {tokens : List TypeBounds.Token} {stop : Position}
      {l : Lexeme} {rest : List Lexeme} {t : Ty} (text : Placed.ofNode n = .ok source)
      (scanned : Token.scan source.text = .ok (tokens, stop))
      (lexemes : tokens.map (·.lexeme) = .ident e.var :: l :: rest) (bounds : l.Bounds e.direction)
      (read : ConstraintExpr.read source.text = .ok e)
      (means : e.target.resolve scope source.placement = ⟨t, []⟩) :
      Writes scope n e.var e.direction t

/-- The mistakes that a node can have where only `known` variables may be used. -/
inductive Yaml.Node.HasMistake (scope : Scope) (known : String → Prop) (n : Node) :
    Mistake → Prop where
  | refused {m : Mistake} (text : Placed.ofNode n = .error m) : HasMistake scope known n m
  | unread {source : Placed} {e : ReadError} (text : Placed.ofNode n = .ok source)
      (read : ConstraintExpr.read source.text = .error e) :
      HasMistake scope known n (e.mistake source.placement source.text)
  | unresolved {source : Placed} {e : ConstraintExpr} {m : Mistake}
      (text : Placed.ofNode n = .ok source) (read : ConstraintExpr.read source.text = .ok e)
      (mistaken : e.target.HasMistake scope source.placement m) : HasMistake scope known n m
  | unknown {source : Placed} {e : ConstraintExpr} (text : Placed.ofNode n = .ok source)
      (read : ConstraintExpr.read source.text = .ok e) (absent : ¬ known e.var) :
      HasMistake scope known n ⟨source.placement.locate e.position, .unknownVariable e.var⟩

/-- A node writes a constraint on a known variable. -/
def Yaml.Node.WritesOn (scope : Scope) (known : String → Prop) (n : Node) : Prop :=
  ∃ name dir t, n.Writes scope name dir t ∧ known name

namespace Yaml.Node

variable {scope : Scope} {known : String → Prop} {n : Node}

theorem Writes.fits {u : Universe} (grown : u.Grown) {name : String} {dir : Direction} {t : Ty}
    (writes : n.Writes ⟨u, Builtin.anchors⟩ name dir t) : t.fits u .written := by
  cases writes with
  | intro text scanned lexemes bounds read means =>
      obtain ⟨-, -, -, -, -, -, -, spelled⟩ := ConstraintExpr.lexemes_of_read read
      have written := TypeExpr.resolve_written grown spelled (congrArg Resolved.mistakes means)
      rw [means] at written
      exact written.1

theorem hasMistake_of_refused {m m' : Mistake} (text : Placed.ofNode n = .error m) :
    n.HasMistake scope known m' ↔ m' = m := by
  constructor
  · rintro (text' | ⟨text', -⟩ | ⟨text', -, -⟩ | ⟨text', -, -⟩) <;> cases text.symm.trans text'
    rfl
  · rintro rfl
    exact .refused text

section

variable {source : Placed} (text : Placed.ofNode n = .ok source) {m : Mistake}

include text

theorem hasMistake_of_unread {e : ReadError}
    (read : ConstraintExpr.read source.text = .error e) :
    n.HasMistake scope known m ↔ m = e.mistake source.placement source.text := by
  constructor
  · rintro (text' | ⟨text', read'⟩ | ⟨text', read', -⟩ | ⟨text', read', -⟩) <;>
      cases text.symm.trans text' <;> cases read.symm.trans read'
    rfl
  · rintro rfl
    exact .unread text read

theorem hasMistake_of_read {e : ConstraintExpr}
    (read : ConstraintExpr.read source.text = .ok e) :
    n.HasMistake scope known m ↔ m ∈ (e.target.resolve scope source.placement).mistakes ∨
      ¬ known e.var ∧ m = ⟨source.placement.locate e.position, .unknownVariable e.var⟩ := by
  rw [TypeExpr.mem_mistakes_iff]
  constructor
  · rintro (text' | ⟨text', read'⟩ | ⟨text', read', mistaken⟩ | ⟨text', read', absent⟩) <;>
      cases text.symm.trans text' <;> cases read.symm.trans read'
    · exact .inl mistaken
    · exact .inr ⟨absent, rfl⟩
  · rintro (mistaken | ⟨absent, rfl⟩)
    · exact .unresolved text read mistaken
    · exact .unknown text read absent

end

/-- A node either writes a constraint on a known variable or has mistakes. -/
theorem writesOn_iff : n.WritesOn scope known ↔ ∀ m, ¬ n.HasMistake scope known m := by
  constructor
  · rintro ⟨name, dir, t, writes, declared⟩ m
    cases writes with
    | intro text scanned lexemes bounds read means =>
        simp [hasMistake_of_read text read, means, declared]
  · intro clean
    cases text : Placed.ofNode n with
    | error m => exact absurd (.refused text) (clean m)
    | ok source =>
        cases read : ConstraintExpr.read source.text with
        | error e => exact absurd (.unread text read) (clean _)
        | ok e =>
            obtain ⟨tokens, stop, l, rest, scanned, lexemes, bounds, -⟩ :=
              ConstraintExpr.lexemes_of_read read
            cases means : e.target.resolve scope source.placement with
            | mk t mistakes =>
                obtain rfl : mistakes = [] := by
                  refine List.eq_nil_iff_forall_not_mem.mpr fun m member => ?_
                  have reported : m ∈ (e.target.resolve scope source.placement).mistakes := by
                    rwa [means]
                  exact clean m ((hasMistake_of_read text read).mpr (.inl reported))
                refine ⟨e.var, e.direction, t, .intro text scanned lexemes bounds read means, ?_⟩
                by_contra absent
                exact clean _ (.unknown text read absent)

end Yaml.Node

namespace Draft

/-- A constraint may be on this variable. -/
def Knows (infer : Bool) (names : List String) (name : String) : Prop := infer ∨ name ∈ names

end Draft

namespace Roster

open Draft (Knows)

variable {infer : Bool} {r : Roster} {name : String}

theorem declareUsed_cases (infer : Bool) (r : Roster) (name : String) :
    r.declareUsed infer name = r ∧ (infer → name ∈ r.names) ∨
      r.declareUsed infer name = r.declare name ∧ infer ∧ name ∉ r.names := by
  unfold declareUsed
  rw [← isSome_find?_iff]
  cases infer <;> cases r.find? name <;> simp

theorem prefix_declareUsed : r.entries <+: (r.declareUsed infer name).entries := by
  rcases declareUsed_cases infer r name with ⟨same, -⟩ | ⟨longer, -⟩
  · rw [same]
  · rw [longer]
    exact List.prefix_append _ _

theorem mem_declareUsed_iff :
    name ∈ (r.declareUsed infer name).names ↔ Knows infer r.names name := by
  unfold Knows
  rcases declareUsed_cases infer r name with ⟨same, old⟩ | ⟨longer, inferred, -⟩
  · rw [same]
    exact ⟨.inr, fun known => known.elim old id⟩
  · rw [longer, names_declare]
    simp [inferred]

theorem nodup_declareUsed (distinct : r.names.Nodup) : (r.declareUsed infer name).names.Nodup := by
  rcases declareUsed_cases infer r name with ⟨same, -⟩ | ⟨longer, -, new⟩
  · rwa [same]
  · rw [longer]
    exact nodup_declare distinct new

theorem Numbered.declareUsed (numbered : r.Numbered) : (r.declareUsed infer name).Numbered := by
  rcases declareUsed_cases infer r name with ⟨same, -⟩ | ⟨longer, -⟩
  · rwa [same]
  · rw [longer]
    exact numbered.declare

theorem eraseDups_concat {l : List TypeVar} {v : TypeVar} :
    (l ++ [v]).eraseDups = if v ∈ l then l.eraseDups else l.eraseDups ++ [v] := by
  rw [List.eraseDups_append]
  split
  · rename_i old
    simp [List.removeAll, old]
  · rename_i new
    simp [List.removeAll, new, List.eraseDups_cons]

theorem Numbered.next_not_mem (numbered : r.Numbered) : (⟨r.vars.length⟩ : TypeVar) ∉ r.vars := by
  have bounded : ∀ v ∈ r.vars, v.id < r.vars.length := by
    intro v given
    rw [numbered] at given
    obtain ⟨i, bound, rfl⟩ := List.mem_map.mp given
    exact Int.ofNat_lt.mpr (List.mem_range.mp bound)
  exact fun given => Int.lt_irrefl _ (bounded _ given)

/-- The variables keep the order in which they are first used. -/
theorem Numbered.vars_declareUsed (numbered : r.Numbered) {vs : List TypeVar}
    (before : r.vars = vs.eraseDups) {v : TypeVar}
    (found : (r.declareUsed true name).find? name = some v) :
    (r.declareUsed true name).vars = (vs ++ [v]).eraseDups := by
  have member : v ∈ vs ↔ v ∈ r.vars := by rw [before, List.mem_eraseDups]
  rw [eraseDups_concat, ← before]
  rcases declareUsed_cases true r name with ⟨same, -⟩ | ⟨longer, -, new⟩
  · rw [same] at found ⊢
    have given : v ∈ r.vars := List.mem_map_of_mem (f := (·.2)) (mem_of_find? found)
    rw [if_pos (member.mpr given)]
  · rw [longer] at found ⊢
    obtain rfl := Option.some.inj (found.symm.trans (find?_declare new))
    rw [vars_declare, if_neg (mt member.mp numbered.next_not_mem)]

end Roster

namespace Draft

variable {scope : Scope} {infer : Bool} {d : Draft} {n : Node}

theorem mem_mistakes_add_iff {m : Mistake} : m ∈ (d.add scope infer n).mistakes ↔
    m ∈ d.mistakes ∨ n.HasMistake scope (Knows infer d.roster.names) m := by
  cases text : Placed.ofNode n with
  | error e => simp [add, text, Node.hasMistake_of_refused text]
  | ok source =>
      cases read : ConstraintExpr.read source.text with
      | error e => simp [add, text, read, Node.hasMistake_of_unread text read]
      | ok e =>
          rw [Node.hasMistake_of_read text read, ← Roster.mem_declareUsed_iff,
            ← Roster.isSome_find?_iff]
          simp only [add, text, read]
          split
          · rename_i v found clean
            simp [clean, found, mistakes]
          · rename_i v found _
            simp [found]
            rfl
          · rename_i absent
            simp [absent]
            rfl

theorem add_of_writes {name : String} {dir : Direction} {t : Ty}
    (writes : n.Writes scope name dir t) (known : Knows infer d.roster.names name) :
    ∃ v, (d.roster.declareUsed infer name).find? name = some v ∧
      d.add scope infer n = { d with
        roster := d.roster.declareUsed infer name
        constraints := d.constraints ++ [⟨v, dir, some t⟩] } := by
  cases writes with
  | @intro source e _ _ _ _ _ text scanned lexemes bounds read means =>
      obtain ⟨v, found⟩ := Option.isSome_iff_exists.mp
        (Roster.isSome_find?_iff.mpr (Roster.mem_declareUsed_iff.mpr known))
      refine ⟨v, found, ?_⟩
      simp only [add, text, read, means, found]

theorem roster_add_of_declared : (d.add scope false n).roster = d.roster := by
  unfold add
  split
  · rfl
  · split
    · rfl
    · simp only
      split <;> rfl

variable {nodes : List Node}

theorem roster_foldl_of_declared : (nodes.foldl (add scope false) d).roster = d.roster := by
  induction nodes generalizing d with
  | nil => rfl
  | cons n nodes ih => rw [List.foldl_cons, ih, roster_add_of_declared]

theorem knows_add :
    Knows infer (d.add scope infer n).roster.names = Knows infer d.roster.names := by
  cases infer with
  | true =>
      funext name
      simp [Knows]
  | false => rw [roster_add_of_declared]

theorem mem_mistakes_foldl_iff {m : Mistake} :
    m ∈ (nodes.foldl (add scope infer) d).mistakes ↔
      m ∈ d.mistakes ∨ ∃ n ∈ nodes, n.HasMistake scope (Knows infer d.roster.names) m := by
  induction nodes generalizing d with
  | nil => simp
  | cons n nodes ih =>
      rw [List.foldl_cons, ih, mem_mistakes_add_iff, knows_add, List.exists_mem_cons_iff, or_assoc]

theorem mistakes_foldl_eq_nil_iff : (nodes.foldl (add scope infer) d).mistakes = [] ↔
    d.mistakes = [] ∧ ∀ n ∈ nodes, n.WritesOn scope (Knows infer d.roster.names) := by
  simp only [List.eq_nil_iff_forall_not_mem, mem_mistakes_foldl_iff, not_or, not_exists, not_and,
    Node.writesOn_iff, forall_and]
  refine and_congr_right fun _ => ?_
  exact ⟨fun clean n member m => clean m n member, fun clean m n member => clean n member m⟩

/-- The constraint of a node, on the variable of its name. -/
def Reads (scope : Scope) (r : Roster) (n : Node) (c : Constraint) : Prop :=
  ∃ (name : String) (t : Ty), n.Writes scope name c.direction t ∧ (name, c.var) ∈ r.entries ∧
    c.target = some t

/-- The variables are numbered and have distinct names, and there is one constraint for each
    node. When variables are inferred, they are those of the constraints. -/
structure Follows (scope : Scope) (infer : Bool) (nodes : List Node) (d : Draft) : Prop where
  numbered : d.roster.Numbered
  distinct : d.roster.names.Nodup
  constraints : List.Forall₂ (Reads scope d.roster) nodes d.constraints
  inferred : infer → d.roster.vars = (d.constraints.map Constraint.var).eraseDups

theorem Reads.mono {r longer : Roster} (le : r.entries <+: longer.entries) {c : Constraint}
    (reads : Reads scope r n c) : Reads scope longer n c := by
  obtain ⟨name, t, writes, named, target⟩ := reads
  exact ⟨name, t, writes, le.mem named, target⟩

theorem Follows.add (follows : d.Follows scope infer nodes)
    (writes : n.WritesOn scope (Knows infer d.roster.names)) :
    (d.add scope infer n).Follows scope infer (nodes ++ [n]) := by
  obtain ⟨name, dir, t, writes, known⟩ := writes
  obtain ⟨v, found, added⟩ := add_of_writes writes known
  rw [added]
  refine ⟨follows.numbered.declareUsed, Roster.nodup_declareUsed follows.distinct, ?_, ?_⟩
  · have longer : d.roster.entries <+: (d.roster.declareUsed infer name).entries :=
      Roster.prefix_declareUsed
    have kept := follows.constraints.imp fun n c => Reads.mono (n := n) (c := c) longer
    refine List.rel_append kept (.cons ?_ .nil)
    exact ⟨name, t, writes, Roster.mem_of_find? found, rfl⟩
  · rintro rfl
    rw [List.map_append, List.map_singleton]
    exact follows.numbered.vars_declareUsed (follows.inferred rfl) found

theorem Follows.foldl {before : List Node} (follows : d.Follows scope infer before)
    (writes : ∀ n ∈ nodes, n.WritesOn scope (Knows infer d.roster.names)) :
    (nodes.foldl (Draft.add scope infer) d).Follows scope infer (before ++ nodes) := by
  induction nodes generalizing d before with
  | nil => rwa [List.append_nil]
  | cons n nodes ih =>
      obtain ⟨first, others⟩ := List.forall_mem_cons.mp writes
      rw [List.append_cons]
      exact ih (follows.add first) (by rwa [knows_add])

end Draft

namespace Document

/-- A constraint may be on this variable: it is declared if any are. -/
def Knows (d : Document) (name : String) : Prop := d.vars = [] ∨ name ∈ d.vars.map Node.text

/-- A document without a mistake: its classes make up the universe, no variable is repeated, and
    each node writes a constraint. -/
structure Faultless (d : Document) (u : Universe) : Prop where
  classes : Universe.builtin.Declares d.classes u
  vars : (d.vars.map Node.text).Nodup
  constraints : ∀ n ∈ d.constraints, n.WritesOn (.over u) d.Knows

/-- The mistakes in a document. -/
inductive HasMistake (d : Document) : Mistake → Prop where
  | inClasses {before after : List ClassDecl} {c : ClassDecl} {u : Universe} {m : Mistake}
      (declared : d.classes = before ++ c :: after) (kept : Universe.builtin.Keeps before u)
      (mistaken : c.HasMistake u m) : HasMistake d m
  | inVariables {before after : List Node} {n : Node} (declared : d.vars = before ++ n :: after)
      (repeated : n.text ∈ before.map Node.text) :
      HasMistake d ⟨n.position, .duplicateVariable n.text⟩
  | inConstraints {n : Node} {u : Universe} {m : Mistake} (member : n ∈ d.constraints)
      (kept : Universe.builtin.Keeps d.classes u) (mistaken : n.HasMistake (.over u) d.Knows m) :
      HasMistake d m

/-- The universe of those classes that can be declared. -/
def hierarchy (d : Document) : Universe := (declareClasses .builtin d.classes).1

/-- What there is before the constraints are read. -/
def start (d : Document) : Draft where
  roster := (declareVariables .empty d.vars).1
  constraints := []
  errors := (Account.empty.report (declareClasses .builtin d.classes).2).recordEach
    (declareVariables .empty d.vars).2

/-- What is read of the constraints. -/
def draft (d : Document) : Draft :=
  d.constraints.foldl (Draft.add (.over d.hierarchy) d.vars.isEmpty) d.start

theorem built_hierarchy (d : Document) : d.hierarchy.Built .written true :=
  declareClasses_built .builtin

theorem mistakes_start (d : Document) : d.start.mistakes =
    (declareClasses .builtin d.classes).2 ++ (declareVariables .empty d.vars).2 := by
  rw [Draft.mistakes, start, Account.mistakes_recordEach, Account.mistakes_report]
  rfl

theorem knows_eq (d : Document) : Draft.Knows d.vars.isEmpty d.start.roster.names = d.Knows := by
  funext name
  rw [Draft.Knows, Knows, List.isEmpty_iff, start, mem_declareVariables_iff, Roster.empty,
    Roster.names, List.map_nil, List.mem_nil_iff, false_or]

/-- All mistakes in a document are found, and nothing else is. -/
theorem mem_mistakes_iff {d : Document} {m : Mistake} : m ∈ d.draft.mistakes ↔ d.HasMistake m := by
  rw [draft, Draft.mem_mistakes_foldl_iff, mistakes_start, List.mem_append,
    mem_mistakes_declareClasses_iff .builtin, mem_mistakes_declareVariables_iff, knows_eq]
  constructor
  · rintro ((⟨before, c, after, declared, u, kept, mistaken⟩ |
      ⟨before, n, after, declared, old | repeated, rfl⟩) | ⟨n, member, mistaken⟩)
    · exact .inClasses declared kept mistaken
    · cases old
    · exact .inVariables declared repeated
    · exact .inConstraints member ((keeps_iff .builtin).mpr rfl) mistaken
  · rintro (⟨declared, kept, mistaken⟩ | ⟨declared, repeated⟩ | ⟨member, kept, mistaken⟩)
    · exact .inl (.inl ⟨_, _, _, declared, _, kept, mistaken⟩)
    · exact .inl (.inr ⟨_, _, _, declared, .inr repeated, rfl⟩)
    · obtain rfl := (keeps_iff .builtin).mp kept
      exact .inr ⟨_, member, mistaken⟩

theorem mistakes_eq_nil_iff {d : Document} {u : Universe} :
    d.draft.mistakes = [] ∧ d.hierarchy = u ↔ d.Faultless u := by
  have classes : (declareClasses .builtin d.classes).2 = [] ∧ d.hierarchy = u ↔
      Universe.builtin.Declares d.classes u := by
    rw [← declareClasses_eq_iff .builtin, Prod.ext_iff, and_comm]
    rfl
  have vars : (declareVariables .empty d.vars).2 = [] ↔ (d.vars.map Node.text).Nodup :=
    declareVariables_clean_iff (r := .empty) List.nodup_nil
  rw [draft, Draft.mistakes_foldl_eq_nil_iff, mistakes_start, List.append_eq_nil_iff, knows_eq]
  constructor
  · rintro ⟨⟨⟨ofClasses, ofVars⟩, ofConstraints⟩, rfl⟩
    exact ⟨classes.mp ⟨ofClasses, rfl⟩, vars.mp ofVars, ofConstraints⟩
  · rintro ⟨ofClasses, ofVars, ofConstraints⟩
    obtain ⟨clean, rfl⟩ := classes.mpr ofClasses
    exact ⟨⟨⟨clean, vars.mpr ofVars⟩, ofConstraints⟩, rfl⟩

theorem follows_draft {d : Document} {u : Universe} (faultless : d.Faultless u) :
    d.draft.Follows (.over u) d.vars.isEmpty d.constraints ∧
      (d.vars ≠ [] → d.draft.roster.names = d.vars.map Node.text) := by
  obtain ⟨clean, rfl⟩ := mistakes_eq_nil_iff.mpr faultless
  have names : d.start.roster.names = d.vars.map Node.text := by
    rw [draft, Draft.mistakes_foldl_eq_nil_iff, mistakes_start, List.append_eq_nil_iff] at clean
    exact names_declareVariables clean.1.2
  have start : d.start.Follows (.over d.hierarchy) d.vars.isEmpty [] := by
    refine ⟨declareVariables_numbered rfl, names ▸ faultless.vars, .nil, fun infer => ?_⟩
    rw [Document.start, List.isEmpty_iff.mp infer]
    rfl
  constructor
  · refine start.foldl ?_
    rw [knows_eq]
    exact faultless.constraints
  · intro declares
    rw [draft, List.isEmpty_eq_false_iff.mpr declares, Draft.roster_foldl_of_declared, names]

end Document

namespace Problem

/-- What a node of a document says is a constraint of the problem. -/
def Reads (p : Problem) (n : Node) (c : Constraint) : Prop :=
  ∃ t, n.Writes p.scope (p.name c.var) c.direction t ∧ t.fits p.classes .written ∧
    c.var ∈ p.vars ∧ c.target = some t

/-- A problem states what a document says, and is well-formed. -/
structure States (d : Document) (p : Problem) : Prop where
  classes : Universe.builtin.Declares d.classes p.classes
  anchors : p.classes.anchors = .ok Builtin.anchors
  bases : ∀ c ∈ p.classes.classes, ∀ b, c.base = some b → b.fits p.classes .written
  vars : p.vars = (List.range p.vars.length).map fun (i : Nat) => ⟨i⟩
  names : (p.vars.map p.name).Nodup
  constraints : List.Forall₂ p.Reads d.constraints p.constraints
  declared : d.vars ≠ [] → p.vars.map p.name = d.vars.map Node.text
  inferred : d.vars = [] → p.vars = (p.constraints.map Constraint.var).eraseDups

/-- The problem of a draft over a universe. -/
def ofDraft (u : Universe) (d : Draft) : Problem :=
  ⟨u, d.roster.vars, d.roster.names, d.constraints⟩

theorem ofDocument_eq (d : Document) : ofDocument d =
    if d.draft.mistakes = [] then .ok (ofDraft d.hierarchy d.draft)
      else .error d.draft.mistakes := by
  unfold ofDocument
  simp only [Account.hasMistake_iff]
  by_cases clean : d.draft.mistakes = []
  · rw [if_pos clean]
    exact if_neg (not_not_intro clean)
  · rw [if_neg clean]
    exact if_pos clean

theorem name_eq {p : Problem} {i : Nat} {name : String} (named : p.names[i]? = some name) :
    p.name ⟨i⟩ = name := by
  simp [Problem.name, named, show ¬ (i : Int) < 0 by omega]

section Roster

variable {u : Universe} {d : Draft} (numbered : d.roster.Numbered)

include numbered

theorem name_of_mem_entries {name : String} {v : TypeVar} (named : (name, v) ∈ d.roster.entries) :
    (ofDraft u d).name v = name := by
  obtain ⟨i, entry⟩ := List.mem_iff_getElem?.mp named
  have var : d.roster.vars[i]? = some v := by simp [Roster.vars, entry]
  rw [numbered] at var
  obtain ⟨bound, same⟩ := List.getElem?_eq_some_iff.mp var
  rw [List.getElem_map, List.getElem_range] at same
  subst same
  exact name_eq (by simp [ofDraft, Roster.names, entry])

theorem map_name_vars : (ofDraft u d).vars.map (ofDraft u d).name = d.roster.names := by
  rw [ofDraft, Roster.vars, Roster.names, List.map_map]
  exact List.map_congr_left fun entry member => name_of_mem_entries numbered member

theorem reads_of_draft (grown : u.Grown) {n : Node} {c : Constraint}
    (reads : Draft.Reads (.over u) d.roster n c) : (ofDraft u d).Reads n c := by
  obtain ⟨name, t, writes, named, target⟩ := reads
  refine ⟨t, ?_, ?_, List.mem_map_of_mem (f := (·.2)) named, target⟩
  · rwa [name_of_mem_entries numbered named]
  · rw [grown.scope_over] at writes
    exact writes.fits grown

end Roster

theorem states_of_faultless {d : Document} {u : Universe} (faultless : d.Faultless u) :
    States d (ofDraft u d.draft) := by
  obtain ⟨follows, declared⟩ := d.follows_draft faultless
  obtain ⟨-, rfl⟩ := Document.mistakes_eq_nil_iff.mpr faultless
  have built := d.built_hierarchy
  have grown := built.grown
  have names := map_name_vars (u := d.hierarchy) follows.numbered
  exact {
    classes := faultless.classes
    anchors := grown.anchors_eq
    bases := fun c member b above =>
      built.lawful.base (grown.orderly.holds_iff_mem.mpr member) above
    vars := follows.numbered
    names := names ▸ follows.distinct
    constraints := follows.constraints.imp fun n c => reads_of_draft follows.numbered grown
    declared := fun declares => names.trans (declared declares)
    inferred := fun infer => follows.inferred (List.isEmpty_iff.mpr infer) }

end Problem

/-- A document states a well-formed problem exactly if it is without fault. Otherwise it has
    mistakes, and these are what is reported. -/
theorem Problem.ofDocument_spec (d : Document) :
    (∀ p, ofDocument d = .ok p → p.States d) ∧
      ((∃ p, ofDocument d = .ok p) ↔ ∃ u, d.Faultless u) ∧
        ∀ ms, ofDocument d = .error ms → ms ≠ [] ∧ ∀ m, m ∈ ms ↔ d.HasMistake m := by
  rw [ofDocument_eq]
  by_cases clean : d.draft.mistakes = []
  · have faultless := Document.mistakes_eq_nil_iff.mp ⟨clean, rfl⟩
    rw [if_pos clean]
    refine ⟨?_, iff_of_true ⟨_, rfl⟩ ⟨_, faultless⟩, ?_⟩
    · rintro p ⟨⟩
      exact states_of_faultless faultless
    · rintro ms ⟨⟩
  · rw [if_neg clean]
    refine ⟨?_, iff_of_false ?_ ?_, ?_⟩
    · rintro p ⟨⟩
    · rintro ⟨p, ⟨⟩⟩
    · rintro ⟨u, faultless⟩
      exact clean (Document.mistakes_eq_nil_iff.mpr faultless).1
    · rintro ms ⟨⟩
      exact ⟨clean, fun m => Document.mem_mistakes_iff⟩

namespace Sample

/-- Two classes, and three constraints on two variables. The second one is written without
    quotes, so that it looks like a mapping. -/
def errand : Document where
  classes := [⟨"intlist", 0, "list[int]", false, ⟨2, 5⟩, ⟨⟨3, 11⟩, false⟩⟩,
    ⟨"rock", 0, "", true, ⟨4, 5⟩, .nowhere⟩]
  vars := []
  constraints := [.scalar ⟨6, 5⟩ none .plain "T :> (intlist, rock)",
    .mapping ⟨7, 5⟩ none
      [(.scalar ⟨7, 5⟩ none .plain "S <", .scalar ⟨7, 10⟩ none .plain "list[Any]")],
    .scalar ⟨8, 5⟩ none .plain "T <: object"]

/-- The same with one variable declared twice and the other one not at all. -/
def botched : Document :=
  { errand with
    vars := [.scalar ⟨10, 5⟩ none .plain "T", .scalar ⟨11, 5⟩ none .plain "T"] }

end Sample

open Sample in
theorem ofDocument_spec_errand :
    (∃ p, Problem.ofDocument errand = .ok p ∧ p.names = ["T", "S"] ∧ p.vars = [⟨0⟩, ⟨1⟩] ∧
      p.constraints.map Constraint.var = [⟨0⟩, ⟨1⟩, ⟨0⟩] ∧ p.States errand) ∧
    ∃ ms, Problem.ofDocument botched = .error ms ∧
      ms = [⟨⟨11, 5⟩, .duplicateVariable "T"⟩, ⟨⟨7, 5⟩, .unknownVariable "S"⟩] ∧
        ∀ m, m ∈ ms ↔ botched.HasMistake m := by
  have evaluated :
      (Problem.ofDocument errand).map
        (fun p => (p.names, p.vars, p.constraints.map Constraint.var)) =
          .ok (["T", "S"], [⟨0⟩, ⟨1⟩], [⟨0⟩, ⟨1⟩, ⟨0⟩]) ∧
      (Problem.ofDocument botched).map (fun p => p.names) =
        .error [⟨⟨11, 5⟩, .duplicateVariable "T"⟩, ⟨⟨7, 5⟩, .unknownVariable "S"⟩] := by
    decide +kernel
  obtain ⟨read, wrong⟩ := evaluated
  constructor
  · obtain ⟨states, -, -⟩ := Problem.ofDocument_spec errand
    cases loaded : Problem.ofDocument errand with
    | error ms => simp [loaded, Except.map] at read
    | ok p =>
        simp only [loaded, Except.map, Except.ok.injEq, Prod.mk.injEq] at read
        exact ⟨p, rfl, read.1, read.2.1, read.2.2, states p loaded⟩
  · obtain ⟨-, -, reported⟩ := Problem.ofDocument_spec botched
    cases loaded : Problem.ofDocument botched with
    | ok p => simp [loaded, Except.map] at wrong
    | error ms =>
        simp only [loaded, Except.map, Except.error.injEq] at wrong
        exact ⟨ms, rfl, wrong, (reported ms loaded).2⟩

end TypeBounds
