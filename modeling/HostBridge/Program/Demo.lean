import HostBridge.Host.Vector
import HostBridge.Script.Statement

/-!
# The demo

What is run when no script is given: a vector is shown to scripts as `origin`, a text about it is
stored as `summary`, and a promise is rejected that nobody handles.
-/

namespace HostBridge.Demo

/-- The demo script as text. -/
def source : String :=
  "\nglobalThis.summary = `$\x7borigin.x\x7d,$\x7borigin.y\x7d " ++
  "(length $\x7borigin.length\x7d)`;\n" ++
  "Promise.reject(new Error(\"demo rejection\"));\n"

/-- The text about the vector, as an expression. -/
def summary : Script.Expr :=
  .template (["", ",", " (length ", ")"].map EngineText.ofString)
    (["x", "y", "length"].map fun key => .property (.name "origin") key)

/-- The demo script. -/
def script : Script :=
  [ .code [.expression (.assign (.property (.name "globalThis") "summary") summary)],
    .settled none (.rejected (.error "demo rejection")) ]

/-- The vector that the demo shows. -/
def origin (info : ClassInfo) : HostObject :=
  HostObject.vector info ⟨Double.ofNat 3, Double.ofNat 4⟩

end HostBridge.Demo
