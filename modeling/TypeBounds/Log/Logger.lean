import TypeBounds.Log.Line

/-! # Loggers

A logger is derived from the plain one by attributes and groups. It writes a record
when the level allows it and the record is a warning or worse or belongs to an
enabled section, which either the logger or the record may name.
-/

namespace TypeBounds.Log

/-- How a logger was derived: attributes with the groups around them, the groups that
    are open for what comes next, and the enabled sections named so far. -/
structure Logger where
  given : List (List String × List Attr)
  groups : List String
  sections : List String

/-- The sections whose records are written below the level of warnings. -/
def enabledSections : List String := ["solver", "lattice", "problem", "cli"]

/-- A section is enabled with all sections whose names go on from its own. -/
def isEnabled (name : String) : Bool := enabledSections.any (·.isPrefixOf name)

/-- The enabled section that an attribute names. -/
def enabledSection? (a : Attr) : Option String :=
  if a.1 = "section" && isEnabled a.2.shown then some a.2.shown else none

/-- The group names with a dot after each. -/
def groupPath (groups : List String) : String :=
  String.join (groups.map (· ++ "."))

namespace Logger

def plain : Logger := ⟨[], [], []⟩

/-- A logger that gives these attributes with every record. -/
def withAttrs (l : Logger) (attrs : List Attr) : Logger :=
  { l with
    given := l.given ++ [(l.groups, attrs)]
    sections := l.sections ++ attrs.filterMap enabledSection? }

/-- A logger that puts all later attributes into a group. -/
def withGroup (l : Logger) (name : String) : Logger :=
  if name.isEmpty then l else { l with groups := l.groups ++ [name] }

/-- Whether a record reaches the output when the lowest level to write is `threshold`. -/
def writes (l : Logger) (threshold : Level) (r : Record) : Bool :=
  threshold ≤ r.level &&
    (Level.warn ≤ r.level || !l.sections.isEmpty || r.attrs.any (enabledSection? · |>.isSome))

/-- The line for a record. -/
def line (l : Logger) (r : Record) : String :=
  let head := [s!"level={r.level.text}", s!"msg={quoteIfNeeded r.message}"]
  let given := l.given.flatMap fun (groups, attrs) => attrListTexts (groupPath groups) attrs
  " ".intercalate (head ++ given ++ attrListTexts (groupPath l.groups) r.attrs)

/-- A logger for one section of the program. -/
def forSection (name : String) : Logger :=
  plain.withAttrs [("section", .text name)]

end Logger

/-- A record together with the logger it is given to. -/
structure Entry where
  logger : Logger
  record : Record

/-- The lines that a list of entries comes to. -/
def lines (threshold : Level) (entries : List Entry) : List String :=
  (entries.filter fun e => e.logger.writes threshold e.record).map fun e => e.logger.line e.record

end TypeBounds.Log
