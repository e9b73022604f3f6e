import Patchbay.Patch.Basic
import Patchbay.Text.Quoted

/-! One line about a patch. -/

set_option autoImplicit false

namespace Patchbay

def Patch.summary {ν : Type} [Node ν] (patch : Patch ν) : String :=
  let names := patch.liveNodes.map fun (_, node) => quoted (Node.name node)
  let sink :=
    match patch.sink with
    | some id => "Some(" ++ id.text ++ ")"
    | none => "None"
  "Topology \x7b nodes: [" ++ String.intercalate ", " names
    ++ "], edges: " ++ toString patch.edgeCount
    ++ ", sink: " ++ sink ++ " \x7d"

end Patchbay
