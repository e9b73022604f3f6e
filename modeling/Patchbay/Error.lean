import Patchbay.Plan.Error
import Patchbay.Mixer.Order
import Patchbay.Settings.Basic

/-! What can go wrong outside the patch itself. -/

set_option autoImplicit false

namespace Patchbay

inductive EngineError where
  | compile (cause : CompileError)
  | routing (cause : RoutingError)
  /-- A WAV file cannot be made, or ends inside a frame. -/
  | waveFile
  /-- A file cannot be read. -/
  | file
  /-- A text does not hold settings. -/
  | unreadableSettings
  /-- Settings cannot be written as text. -/
  | unwritableSettings
  | invalidSettings (problem : SettingsProblem)
  | sessionClosed
  /-- A compile in the background ended in a fault. -/
  | compileFault
  deriving DecidableEq

def EngineError.message : EngineError → String
  | .compile cause => "compile error: " ++ cause.message
  | .routing cause => "routing error: " ++ cause.message
  | .waveFile => "WAV file error"
  | .file => "IO error"
  | .unreadableSettings => "failed to parse config"
  | .unwritableSettings => "failed to serialize config"
  | .invalidSettings problem => "invalid config: " ++ problem.message
  | .sessionClosed => "session closed"
  | .compileFault => "compile thread panicked"

end Patchbay
