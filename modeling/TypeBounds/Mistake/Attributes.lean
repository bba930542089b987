import TypeBounds.Log.Line
import TypeBounds.Mistake

/-! # Mistakes in the log -/

namespace TypeBounds

/-- Mistakes as a group of numbered groups, each with the message and the position. -/
def Mistake.attributes (ms : List Mistake) : Log.Value :=
  .group (ms.mapIdx fun i m =>
    (s!"e{i}", .group [("msg", .text m.coded), ("pos", .text m.position.text)]))

end TypeBounds
