/-! The kinds of signal and the ports that carry them. -/

set_option autoImplicit false

namespace Patchbay

inductive SignalKind where
  | audio
  | midi
  | control
  | trigger
  deriving DecidableEq, Repr

def SignalKind.name : SignalKind → String
  | .audio => "audio"
  | .midi => "midi"
  | .control => "control"
  | .trigger => "trigger"

/-- What flows through a port. Only audio has a channel count. -/
inductive PortType where
  | audio (channels : Nat)
  | midi
  | control
  | trigger
  deriving DecidableEq, Repr

namespace PortType

def kind : PortType → SignalKind
  | .audio _ => .audio
  | .midi => .midi
  | .control => .control
  | .trigger => .trigger

def channels : PortType → Nat
  | .audio channels => channels
  | _ => 1

end PortType

structure PortSpec where
  name : String
  type : PortType
  deriving DecidableEq, Repr

namespace PortSpec

def audio (name : String) (channels : Nat) : PortSpec := ⟨name, .audio channels⟩

def midi (name : String) : PortSpec := ⟨name, .midi⟩

def control (name : String) : PortSpec := ⟨name, .control⟩

def trigger (name : String) : PortSpec := ⟨name, .trigger⟩

def kind (port : PortSpec) : SignalKind := port.type.kind

end PortSpec

end Patchbay
