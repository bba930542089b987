import TypeBounds.Text.Decimal
import TypeBounds.Text.Quoted
import TypeBounds.Variable.Buckets
import TypeBounds.Variable.Result

/-! # Tallies of results

A tally counts solved variables by how they came out, and how many constraints they
had. It is written as text in two families of figures: a histogram with cumulative
buckets, and a counter for each pair of outcome and reason. The second family is
there only once something was counted.
-/

namespace TypeBounds

/-- One solved variable, as far as it is counted. -/
structure Observation where
  outcome : Outcome
  reason : Reason
  constraints : Int
  deriving DecidableEq

/-- The observation of a result under so many constraints. -/
def Result.observation (r : Result) (constraints : Nat) : Observation :=
  ⟨r.verdict.outcome, r.verdict.reason, constraints⟩

/-- What tells the counters apart. -/
structure Labels where
  outcome : String
  reason : String
  deriving DecidableEq

namespace Labels

/-- Labels are sorted by outcome, and by reason where outcomes are the same. -/
def le (a b : Labels) : Bool :=
  a.outcome < b.outcome || (a.outcome == b.outcome && a.reason ≤ b.reason)

end Labels

def Observation.labels (o : Observation) : Labels := ⟨o.outcome.text, o.reason.text⟩

/-- A number under a name, which labels may tell apart from others. -/
structure Figure where
  name : String
  labels : List (String × String)
  value : Int
  deriving DecidableEq

namespace Figure

def labelsText : List (String × String) → String
  | [] => ""
  | labels =>
      "\x7b" ++ ",".intercalate (labels.map fun (key, value) => key ++ "=" ++ Text.quote value) ++
        "\x7d"

def text (f : Figure) : String :=
  s!"{f.name}{labelsText f.labels} {Text.shortestInt f.value}"

/-- How many variables had at most so many constraints. -/
def bucket (bound : String) (count : Nat) : Figure :=
  ⟨"tsolve_constraints_per_variable_bucket", [("le", bound)], count⟩

/-- How many variables came out in one way. -/
def counter (labels : Labels) (count : Nat) : Figure :=
  ⟨"tsolve_variables_total", [("outcome", labels.outcome), ("reason", labels.reason)], count⟩

end Figure

/-- A name, what it is about, its kind, and its figures. -/
structure Family where
  name : String
  about : String
  kind : String
  figures : List Figure

def Family.lines (f : Family) : List String :=
  s!"# HELP {f.name} {f.about}" :: s!"# TYPE {f.name} {f.kind}" :: f.figures.map Figure.text

/-- What was counted so far. -/
structure Tally where
  /-- How often each pair of labels came up. -/
  byLabels : List (Labels × Nat)
  /-- The upper end of each bucket, and how many variables are in it and in no smaller one. -/
  buckets : List (Int × Nat)
  /-- How many variables there were. -/
  count : Nat
  /-- How many constraints they had in all. -/
  sum : Int

namespace Tally

/-- The upper ends of the buckets. -/
def bucketBounds : List Int := [0, 1, 2, 4, 8, 16, 32, 64]

def empty : Tally := ⟨[], bucketBounds.map (·, 0), 0, 0⟩

/-- One more in the first bucket whose end a number does not exceed. -/
def fill (n : Int) : List (Int × Nat) → List (Int × Nat)
  | [] => []
  | (bound, count) :: rest =>
      if n ≤ bound then (bound, count + 1) :: rest else (bound, count) :: fill n rest

def observe (t : Tally) (o : Observation) : Tally where
  byLabels := alterEntry o.labels (fun count => count.getD 0 + 1) t.byLabels
  buckets := fill o.constraints t.buckets
  count := t.count + 1
  sum := t.sum + o.constraints

/-- The tally of observations in the order in which they come. -/
def ofObservations (os : List Observation) : Tally := os.foldl observe empty

/-- Each bucket with what the smaller ones hold, and `below` for those that are left out. -/
def cumulative (below : Nat) : List (Int × Nat) → List (Int × Nat)
  | [] => []
  | (bound, count) :: rest => (bound, below + count) :: cumulative (below + count) rest

/-- How many constraints the variables had. -/
def histogram (t : Tally) : Family where
  name := "tsolve_constraints_per_variable"
  about := "Number of constraints placed on each solved type variable."
  kind := "histogram"
  figures :=
    (cumulative 0 t.buckets).map (fun (bound, count) => .bucket (toString bound) count) ++
      [.bucket "+Inf" t.count,
        ⟨"tsolve_constraints_per_variable_sum", [], t.sum⟩,
        ⟨"tsolve_constraints_per_variable_count", [], t.count⟩]

/-- The counters in the order of their labels. -/
def sorted (t : Tally) : List (Labels × Nat) := t.byLabels.mergeSort fun a b => a.1.le b.1

/-- How the variables came out. -/
def counters (t : Tally) : Family where
  name := "tsolve_variables_total"
  about := "Type variables solved, by outcome and reason."
  kind := "counter"
  figures := t.sorted.map fun (labels, count) => .counter labels count

/-- The families, sorted by name. -/
def families (t : Tally) : List Family :=
  t.histogram :: if t.byLabels.isEmpty then [] else [t.counters]

/-- All lines of the text. -/
def lines (t : Tally) : List String := t.families.flatMap (·.lines)

end Tally

end TypeBounds
