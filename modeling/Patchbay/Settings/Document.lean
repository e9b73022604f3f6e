import Patchbay.Decimal.Shortest
import Patchbay.Toml.Document
import Patchbay.Error

/-! Settings as a document.

A document needs only the entries that differ from the defaults; unknown ones
are ignored. Written settings hold every entry, one a line.
-/

set_option autoImplicit false

namespace Patchbay.Settings

def readCount (entries : Toml.Entries) (key : String) (limit default : Nat) : Option Nat :=
  match entries.lookup key with
  | none => some default
  | some (.integer number) =>
      if 0 ≤ number ∧ number < limit then some number.toNat else none
  | some _ => none

def readFloat (entries : Toml.Entries) (key : String) (default : Float) : Option Float :=
  match entries.lookup key with
  | none => some default
  | some (.float number) => some number
  | some (.integer number) =>
      let magnitude := (Decimal.mk number.natAbs 0).toFloat
      some (if number < 0 then -magnitude else magnitude)
  | some _ => none

def ofEntries (entries : Toml.Entries) : Option Settings := do
  let standard : Settings := {}
  return {
    sampleRate := ← readCount entries "sample_rate" 0x100000000 standard.sampleRate
    blockSize := ← readCount entries "block_size" Count.limit standard.blockSize
    channels := ← readCount entries "channels" 0x10000 standard.channels
    tempo := ← readFloat entries "tempo_bpm" standard.tempo
    eventCapacity := ← readCount entries "event_capacity" Count.limit standard.eventCapacity
    maxCompensation :=
      ← readCount entries "max_compensation_samples" Count.limit standard.maxCompensation
    latencyPoll := ← readCount entries "latency_poll_ms" Count.limit standard.latencyPoll
    waveBits := ← readCount entries "wav_bits" 0x10000 standard.waveBits }

def ofText (text : String) : Except EngineError Settings := do
  let some settings := (Toml.parse text).bind ofEntries | throw .unreadableSettings
  match settings.validate with
  | .ok () => return settings
  | .error problem => throw (.invalidSettings problem)

def ofFile (content : Option String) : Except EngineError Settings :=
  match content with
  | some text => ofText text
  | none => .error .file

def entries (settings : Settings) : Toml.Entries :=
  [("sample_rate", .integer settings.sampleRate), ("block_size", .integer settings.blockSize),
    ("channels", .integer settings.channels), ("tempo_bpm", .float settings.tempo),
    ("event_capacity", .integer settings.eventCapacity),
    ("max_compensation_samples", .integer settings.maxCompensation),
    ("latency_poll_ms", .integer settings.latencyPoll), ("wav_bits", .integer settings.waveBits)]

/-- Settings are numbers. A document holds integers of 64 bits with a sign. -/
def writeValue : Toml.Value → Except EngineError String
  | .integer number =>
      if number < Toml.integerLimit then .ok (toString number) else .error .unwritableSettings
  | .float number => .ok (floatText number)
  | _ => .error .unwritableSettings

def toText (settings : Settings) : Except EngineError String := do
  let lines ← settings.entries.mapM fun (key, value) => do
    return key ++ " = " ++ (← writeValue value) ++ "\n"
  return String.join lines

end Patchbay.Settings
