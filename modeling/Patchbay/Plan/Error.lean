import Patchbay.Patch.Basic

/-! Why a patch cannot be compiled. -/

set_option autoImplicit false

namespace Patchbay

inductive CompileError where
  | emptyPatch
  | invalidBlockSize
  | danglingNode (edge : EdgeId) (node : NodeId)
  | danglingPort (edge : EdgeId) (node : NodeId) (port : Nat)
  | kindMismatch (edge : EdgeId) (source dest : SignalKind)
  | channelMismatch (edge : EdgeId) (source dest : Nat)
  /-- The node lies on a cycle or behind one. -/
  | cycle (node : NodeId)
  | noSink
  | invalidSink (node : NodeId)
  | compensationTooLarge (required limit : Nat)
  deriving DecidableEq

def CompileError.message : CompileError → String
  | .emptyPatch => "topology has no nodes"
  | .invalidBlockSize => "block size must be non-zero"
  | .danglingNode edge node => edge.text ++ " references missing node " ++ node.text
  | .danglingPort edge node port =>
      edge.text ++ " references missing port " ++ toString port ++ " on " ++ node.text
  | .kindMismatch edge source dest =>
      edge.text ++ " connects " ++ source.name ++ " output to " ++ dest.name ++ " input"
  | .channelMismatch edge source dest =>
      edge.text ++ " connects " ++ toString source ++ " channels to " ++ toString dest
        ++ " channels"
  | .cycle node => "cycle detected through " ++ node.text
  | .noSink => "no node has an audio output to use as the sink"
  | .invalidSink node => "sink " ++ node.text ++ " is missing or has no audio output"
  | .compensationTooLarge required limit =>
      "worst-case compensation of " ++ toString required ++ " samples exceeds the limit of "
        ++ toString limit

end Patchbay
