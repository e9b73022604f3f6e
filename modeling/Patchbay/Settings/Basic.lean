import Patchbay.Context
import Patchbay.Plan.Compile

/-! The settings that offline renders and sessions share. -/

set_option autoImplicit false

namespace Patchbay

structure Settings where
  sampleRate : Nat := 48000
  blockSize : Nat := 256
  channels : Nat := 2
  tempo : Float := 120.0
  /-- The events that one port holds per block. -/
  eventCapacity : Nat := 256
  /-- The longest delay line that a plan may have. -/
  maxCompensation : Nat := 0x100000
  /-- Milliseconds between two looks at reported latencies. -/
  latencyPoll : Nat := 10
  /-- 16 for integers, 32 for floats. -/
  waveBits : Nat := 32
  deriving DecidableEq

inductive SettingsProblem where
  | zero (key : String)
  | tempoNotPositive
  | waveBits (bits : Nat)
  | planBlockSize (settings plan : Nat)
  | sessionBlockSize (plan session : Nat)
  | waveChannels (file block : Nat)
  | other (text : String)
  deriving DecidableEq

def SettingsProblem.message : SettingsProblem → String
  | .zero key => key ++ " must be non-zero"
  | .tempoNotPositive => "tempo_bpm must be positive"
  | .waveBits bits => "wav_bits must be 16 or 32, got " ++ toString bits
  | .planBlockSize settings plan =>
      "config block_size " ++ toString settings ++ " does not match plan block size "
        ++ toString plan
  | .sessionBlockSize plan session =>
      "plan block size " ++ toString plan ++ " does not match session block size "
        ++ toString session
  | .waveChannels file block =>
      "WAV file has " ++ toString file ++ " channels, block has " ++ toString block
  | .other text => text

namespace Settings

def counts (settings : Settings) : List (String × Nat) :=
  [("sample_rate", settings.sampleRate), ("block_size", settings.blockSize),
    ("channels", settings.channels), ("event_capacity", settings.eventCapacity),
    ("latency_poll_ms", settings.latencyPoll)]

def validate (settings : Settings) : Except SettingsProblem Unit := do
  match settings.counts.find? (·.2 = 0) with
  | some (key, _) => throw (.zero key)
  | none => pure ()
  unless settings.tempo.isFinite && 0.0 < settings.tempo do throw .tempoNotPositive
  unless settings.waveBits = 16 || settings.waveBits = 32 do throw (.waveBits settings.waveBits)

def compileOptions (settings : Settings) : CompileOptions where
  blockSize := settings.blockSize
  eventCapacity := settings.eventCapacity
  maxCompensation := settings.maxCompensation

def context (settings : Settings) (mode : ProcessingMode) : Context :=
  { Context.start settings.sampleRate settings.blockSize with mode, tempo := settings.tempo }

def nanosPerSecond : Nat := 1000000000

/-- The time in nanoseconds that a block lasts; a rate of zero counts as one. -/
def blockDeadline (settings : Settings) : Checked Nat := do
  return (← Count.mul settings.blockSize nanosPerSecond) / max settings.sampleRate 1

/-- A duration in nanoseconds. Whole seconds among the nanoseconds are carried. -/
def duration (seconds nanos : Nat) : Checked Nat := do
  let seconds ← Count.add seconds (nanos / nanosPerSecond)
  return seconds * nanosPerSecond + nanos % nanosPerSecond

/-- The frames that cover a duration, kept to 64 bits. -/
def framesFor (settings : Settings) (nanos : Nat) : Nat :=
  (nanos * settings.sampleRate + (nanosPerSecond - 1)) / nanosPerSecond % Count.limit

end Settings

end Patchbay
