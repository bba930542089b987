import TypeBounds.Log.Logger

/-! # Which records are written

A logger carries the enabled sections it was given along every way of deriving loggers
from it. In a session with many loggers, each derived from an earlier one, a record is
therefore written or not by the level, by what it says itself, and by what was given on
the way from the plain logger to the one it goes to; loggers off this way do not count.
-/

namespace TypeBounds.Log

/-- A way to derive a logger from another. -/
inductive Derive where
  | attrs (given : List Attr)
  | group (name : String)

/-- The attribute's key is `section`, and its value starts with the name of an enabled section. -/
def NamesSection (a : Attr) : Prop :=
  a.1 = "section" ∧
    ∃ name ∈ ["solver", "lattice", "problem", "cli"], name.toList <+: a.2.shown.toList

instance (a : Attr) : Decidable (NamesSection a) :=
  inferInstanceAs (Decidable (_ ∧ ∃ name ∈ ["solver", "lattice", "problem", "cli"],
    name.toList <+: a.2.shown.toList))

/-- An attribute given on the way names an enabled section. -/
def OnPath (path : List Derive) : Prop := ∃ given, .attrs given ∈ path ∧ ∃ a ∈ given, NamesSection a

theorem isEnabled_iff {name : String} : isEnabled name ↔
    ∃ enabled ∈ ["solver", "lattice", "problem", "cli"], enabled.toList <+: name.toList := by
  simp only [isEnabled, List.any_eq_true, enabledSections]
  simp only [String.isPrefixOf, String.startsWith_string_iff]

theorem enabledSection?_eq_none_iff {a : Attr} : enabledSection? a = none ↔ ¬ NamesSection a := by
  rw [NamesSection, ← isEnabled_iff, enabledSection?]
  split
  next both => simpa using both
  next other => simpa using other

namespace Logger

def derive (l : Logger) : Derive → Logger
  | .attrs given => l.withAttrs given
  | .group name => l.withGroup name

/-- The logger at the end of a way from the plain one. -/
def ofPath (path : List Derive) : Logger := path.foldl derive plain

theorem ofPath_concat (path : List Derive) (how : Derive) :
    ofPath (path ++ [how]) = (ofPath path).derive how := by
  simp [ofPath]

variable {l : Logger} {threshold : Level} {r : Record}

theorem sections_derive (l : Logger) (how : Derive) :
    (l.derive how).sections = [] ↔ l.sections = [] ∧ ¬ OnPath [how] := by
  cases how with
  | attrs given =>
      have none_added : given.filterMap enabledSection? = [] ↔ ¬ OnPath [.attrs given] := by
        simp [OnPath, List.filterMap_eq_nil_iff, enabledSection?_eq_none_iff]
      rw [derive, withAttrs, List.append_eq_nil_iff, none_added]
  | group name =>
      have same : (l.withGroup name).sections = l.sections := by
        unfold withGroup
        split
        · rfl
        · rfl
      simp [derive, same, OnPath]

/-- The sections a logger carries tell what was given on the way to it. -/
theorem sections_foldl_derive (l : Logger) (path : List Derive) :
    (path.foldl derive l).sections = [] ↔ l.sections = [] ∧ ¬ OnPath path := by
  induction path generalizing l with
  | nil => simp [OnPath]
  | cons how path ih =>
      have split : OnPath (how :: path) ↔ OnPath [how] ∨ OnPath path := by
        simp only [OnPath, List.mem_cons, List.not_mem_nil, or_false, or_and_right, exists_or]
      rw [List.foldl_cons, ih, sections_derive, split, not_or, and_assoc]

theorem writes_iff : l.writes threshold r ↔
    threshold ≤ r.level ∧
      (Level.warn ≤ r.level ∨ l.sections ≠ [] ∨ ∃ a ∈ r.attrs, NamesSection a) := by
  simp only [writes, Bool.and_eq_true, Bool.or_eq_true, decide_eq_true_eq, or_assoc,
    List.any_eq_true, Option.isSome_iff_ne_none, ne_eq, enabledSection?_eq_none_iff]
  simp

theorem writes_ofPath_iff {path : List Derive} : (ofPath path).writes threshold r ↔
    threshold ≤ r.level ∧
      (Level.warn ≤ r.level ∨ OnPath path ∨ ∃ a ∈ r.attrs, NamesSection a) := by
  simp [writes_iff, ofPath, sections_foldl_derive, plain]

theorem writes_derive (how : Derive) (writes : l.writes threshold r) :
    (l.derive how).writes threshold r := by
  rw [writes_iff] at writes ⊢
  have more : l.sections ≠ [] → (l.derive how).sections ≠ [] :=
    fun some none => some ((sections_derive l how).mp none).1
  exact ⟨writes.1, writes.2.imp_right (Or.imp_left more)⟩

theorem writes_foldl_derive (more : List Derive) (writes : l.writes threshold r) :
    (more.foldl derive l).writes threshold r := by
  induction more generalizing l with
  | nil => exact writes
  | cons how more ih => exact ih (writes_derive how writes)

end Logger

theorem lines_singleton (threshold : Level) (l : Logger) (r : Record) :
    lines threshold [⟨l, r⟩] = if l.writes threshold r then [l.line r] else [] := by
  unfold lines
  split
  next written => simp [written]
  next hidden => simp [hidden]

/-- What may happen in a session. Loggers are numbered in the order in which they were derived,
    from the plain one on. -/
inductive Step where
  | setLevel (level : Level)
  | derive (source : Nat) (how : Derive)
  | log (source : Nat) (r : Record)

structure Session where
  threshold : Level
  loggers : List Logger
  output : List String

namespace Session

def start : Session := ⟨.info, [.plain], []⟩

def step (s : Session) : Step → Session
  | .setLevel level => { s with threshold := level }
  | .derive source how =>
      { s with loggers := s.loggers ++ (s.loggers[source]?.map (·.derive how)).toList }
  | .log source r =>
      { s with output := s.output ++ lines s.threshold (s.loggers[source]?.map (⟨·, r⟩)).toList }

def after (steps : List Step) : Session := steps.foldl step start

end Session

/-- The level after a step, which only setting it changes. -/
def Step.level (before : Level) : Step → Level
  | .setLevel level => level
  | _ => before

/-- The ways to all loggers after a step, if `paths` were those before it. -/
def Step.paths (before : List (List Derive)) : Step → List (List Derive)
  | .derive source how => before ++ (before[source]?.map (· ++ [how])).toList
  | _ => before

/-- The level that was set last. -/
def levelSet (steps : List Step) : Level := steps.foldl Step.level .info

/-- For each logger, the way to it from the plain one. -/
def paths (steps : List Step) : List (List Derive) := steps.foldl Step.paths [[]]

namespace Session

/-- The loggers of a session are at the ends of ways from the plain logger. -/
structure Follows (s : Session) (level : Level) (paths : List (List Derive)) : Prop where
  threshold : s.threshold = level
  loggers : s.loggers = paths.map Logger.ofPath

theorem Follows.step {s : Session} {level : Level} {paths : List (List Derive)}
    (follows : s.Follows level paths) (step : Step) :
    (s.step step).Follows (step.level level) (step.paths paths) := by
  cases step with
  | setLevel level => exact ⟨rfl, follows.loggers⟩
  | log source r => exact ⟨follows.threshold, follows.loggers⟩
  | derive source how =>
      refine ⟨follows.threshold, ?_⟩
      simp only [Session.step, Step.paths, follows.loggers, List.getElem?_map, List.map_append]
      cases paths[source]? with
      | none => rfl
      | some path => simp [Logger.ofPath_concat]

theorem Follows.foldl {s : Session} {level : Level} {paths : List (List Derive)}
    (follows : s.Follows level paths) (steps : List Step) :
    (steps.foldl Session.step s).Follows (steps.foldl Step.level level)
      (steps.foldl Step.paths paths) := by
  induction steps generalizing s level paths with
  | nil => exact follows
  | cons step steps ih => exact ih (follows.step step)

theorem follows_after (steps : List Step) :
    (after steps).Follows (levelSet steps) (Log.paths steps) :=
  Follows.foldl ⟨rfl, rfl⟩ steps

theorem Follows.output_log {s : Session} {level : Level} {paths : List (List Derive)}
    (follows : s.Follows level paths) {source : Nat} {path : List Derive}
    (there : paths[source]? = some path) (r : Record) :
    (s.step (.log source r)).output = s.output ++ lines level [⟨Logger.ofPath path, r⟩] := by
  simp [Session.step, follows.loggers, follows.threshold, there]

end Session

/-- A record is written if it is at the level that was set or above, and is a warning or worse or
    an enabled section is named, either by one of its own attributes or by one that was given on the
    way from the plain logger to the one it goes to. It is all the same what other loggers were
    given, and going on from a logger never hides what the logger would have written. -/
theorem Session.written_by_section {steps : List Step} {source : Nat} {path : List Derive}
    (there : (paths steps)[source]? = some path) (r : Record) :
    let s := after steps
    let wanted := levelSet steps ≤ r.level ∧
      (Level.warn ≤ r.level ∨ OnPath path ∨ ∃ a ∈ r.attrs, NamesSection a)
    (wanted →
      (s.step (.log source r)).output = s.output ++ [(Logger.ofPath path).line r]) ∧
    (¬ wanted → (s.step (.log source r)).output = s.output) ∧
    (∀ steps' source', (paths steps')[source']? = some path → levelSet steps' = levelSet steps →
      ∃ written, (s.step (.log source r)).output = s.output ++ written ∧
        ((after steps').step (.log source' r)).output = (after steps').output ++ written) ∧
    (wanted → ∀ steps' child more, (paths steps')[child]? = some (path ++ more) →
      levelSet steps' = levelSet steps →
        ((after steps').step (.log child r)).output =
          (after steps').output ++ [(Logger.ofPath (path ++ more)).line r]) := by
  intro s wanted
  have writes : (Logger.ofPath path).writes (levelSet steps) r ↔ wanted := Logger.writes_ofPath_iff
  have written : (s.step (.log source r)).output = _ := (follows_after steps).output_log there r
  refine ⟨fun isWanted => ?_, fun unwanted => ?_, fun steps' source' there' level => ?_,
    fun isWanted steps' child more there' level => ?_⟩
  · rw [written, lines_singleton, if_pos (writes.mpr isWanted)]
  · rw [written, lines_singleton, if_neg (mt writes.mp unwanted), List.append_nil]
  · have written' := (follows_after steps').output_log there' r
    rw [level] at written'
    exact ⟨_, written, written'⟩
  · have still : (Logger.ofPath (path ++ more)).writes (levelSet steps) r := by
      rw [Logger.ofPath, List.foldl_append]
      exact Logger.writes_foldl_derive more (writes.mpr isWanted)
    rw [(follows_after steps').output_log there' r, level, lines_singleton, if_pos still]

/-- A section is named before a group and an unknown one after it; next to them, a logger is derived
    that was given the unknown one only. -/
theorem Session.written_by_section_branching :
    let known : Derive := .attrs [("run", .int 7), ("section", .text "solver.core")]
    let unknown : Derive := .attrs [("section", .text "backend")]
    let steps : List Step := [.setLevel .debug, .derive 0 known, .derive 0 unknown,
      .derive 1 (.group "g"), .derive 3 unknown]
    let path := [known, .group "g", unknown]
    let r : Record := ⟨.debug, "hello", [("section", .int 4)]⟩
    let s := after steps
    ((paths steps)[4]? = some path ∧ (paths steps)[2]? = some [unknown]) ∧
      (s.step (.log 4 r)).output = [(Logger.ofPath path).line r] ∧
      (s.step (.log 2 r)).output = [] := by
  intro known unknown steps path r s
  have there : (paths steps)[4]? = some path := rfl
  have beside : (paths steps)[2]? = some [unknown] := rfl
  have named : OnPath path := by
    exact ⟨_, List.mem_cons_self, ("section", .text "solver.core"), by simp, by decide⟩
  have unnamed : ¬ OnPath [unknown] := by
    simp only [OnPath, List.mem_singleton, unknown, Derive.attrs.injEq, exists_eq_left]
    decide
  refine ⟨⟨there, beside⟩, ?_, ?_⟩
  · exact (written_by_section there r).1 ⟨by decide, .inr (.inl named)⟩
  · refine (written_by_section beside r).2.1 fun wanted => ?_
    rcases wanted.2 with warning | onPath | own
    · exact absurd warning (by decide)
    · exact unnamed onPath
    · exact absurd own (by decide)

end TypeBounds.Log
