import Patchbay.Output.Sink

/-! WAV files.

A file is a header and the samples behind it, every number with its low byte
first. Up to two channels of up to sixteen bits have the short header; all else
has the extensible one. The sizes in the header are right once the file is
complete. Of a file whose format is refused only the sizes are ever written.
-/

set_option autoImplicit false

namespace Patchbay

structure WaveFormat where
  channels : Nat
  sampleRate : Nat
  /-- Bits per sample; 32 are a float. -/
  bits : Nat
  deriving DecidableEq

def littleEndian : (width : Nat) → Nat → List UInt8
  | 0, _ => []
  | width + 1, number => UInt8.ofNat number :: littleEndian width (number / 256)

namespace WaveFormat

def ofSettings (settings : Settings) : WaveFormat where
  channels := settings.channels
  sampleRate := settings.sampleRate
  bits := settings.waveBits

def isFloat (format : WaveFormat) : Bool := format.bits = 32

def isWritable (format : WaveFormat) : Bool := format.bits ∈ [8, 16, 24, 32]

def sampleBytes (format : WaveFormat) : Nat := (format.bits + 7) / 8

/-- A frame's bytes, as far as the header has room for their number. -/
def frameBytes (format : WaveFormat) : Nat := format.sampleBytes * format.channels % 0x10000

def byteRate (format : WaveFormat) : Nat :=
  format.sampleRate * format.sampleBytes * format.channels

def checkRate (format : WaveFormat) : Checked Unit :=
  if 0x100000000 ≤ format.sampleRate * format.sampleBytes ∨ 0x100000000 ≤ format.byteRate then
    .error .overflow
  else if format.sampleRate = 0 then .error .divisionByZero
  else .ok ()

def isExtensible (format : WaveFormat) : Bool := 2 < format.channels || 16 < format.bits

def speakers (format : WaveFormat) : Nat := 1 <<< min format.channels 18 - 1

def fields (format : WaveFormat) (tag : Nat) : List UInt8 :=
  littleEndian 2 tag ++ littleEndian 2 format.channels ++ littleEndian 4 format.sampleRate
    ++ littleEndian 4 format.byteRate ++ littleEndian 2 format.frameBytes
    ++ littleEndian 2 (8 * format.sampleBytes)

def chunk (format : WaveFormat) : List UInt8 :=
  if format.isExtensible then
    littleEndian 4 40 ++ format.fields 0xfffe
      ++ littleEndian 2 22 ++ littleEndian 2 format.bits ++ littleEndian 4 format.speakers
      ++ littleEndian 4 (if format.isFloat then 3 else 1)
      ++ [0x00, 0x00, 0x10, 0x00, 0x80, 0x00, 0x00, 0xaa, 0x00, 0x38, 0x9b, 0x71]
  else littleEndian 4 16 ++ format.fields 1

def text (word : String) : List UInt8 := word.toUTF8.toList

def header (format : WaveFormat) (size : Nat) : List UInt8 :=
  let middle := text "WAVE" ++ text "fmt " ++ format.chunk ++ text "data" ++ littleEndian 4 size
  text "RIFF" ++ littleEndian 4 (middle.length + size) ++ middle

def bareSizes (format : WaveFormat) : List UInt8 :=
  let place := (format.header 0).length - 4
  List.replicate 4 0 ++ littleEndian 4 (place - 4) ++ List.replicate (place - 8) 0
    ++ littleEndian 4 0

/-- A sample as an integer. What does not fit is limited to the range. -/
def toInteger (format : WaveFormat) (sample : Sample) : Int :=
  let scale := Sample.ofFloat (UInt32.ofNat (1 <<< (format.bits - 1))).toFloat32
  (Ramp.clamp (sample * scale) (-scale) (scale - 1)).toFloat.toInt32.toInt

/-- A sample as it stands in the file. Eight bits are stored with their middle at
128. -/
def encode (format : WaveFormat) (sample : Sample) : List UInt8 :=
  if format.isFloat then littleEndian 4 sample.bits.toNat
  else
    let offset := if format.bits = 8 then 128 else 0
    let values : Nat := 1 <<< format.bits
    littleEndian format.sampleBytes ((format.toInteger sample + offset) % (values : Int)).toNat

end WaveFormat

structure WaveFile where
  format : WaveFormat
  samples : Array Sample := #[]
  finished : Bool := false
  deriving DecidableEq

namespace WaveFile

/-- Completes the header, and only then looks at the last frame. One that lacks
channels is an error, but stays in the file. -/
def complete (file : WaveFile) : SinkStep WaveFile :=
  let outcome :=
    if file.format.sampleBytes = 0 ∨ file.format.channels = 0 then .error .divisionByZero
    else if file.samples.size % file.format.channels = 0 then .ok (.ok ())
    else .ok (.error .waveFile)
  (outcome, { file with finished := true })

/-- Opens a file, or refuses its format, which completes the file at once. -/
def create (format : WaveFormat) : SinkStep WaveFile :=
  let file : WaveFile := { format }
  if format.isWritable then (format.checkRate.map .ok, file)
  else if 0x10000 ≤ format.bits + 7 then (.error .overflow, file)
  else
    let (outcome, file) := file.complete
    (outcome.map fun _ => .error .waveFile, file)

def bytes (file : WaveFile) : List UInt8 :=
  if file.format.isWritable then
    let data := file.samples.toList.flatMap file.format.encode
    file.format.header data.length ++ data
  else file.format.bareSizes

def close (file : WaveFile) : Checked (List UInt8) := do
  if file.finished then return file.bytes
  let (outcome, file) := file.complete
  discard outcome
  return file.bytes

end WaveFile

/-- A block must have the file's channel count. After the end a file takes no
more samples. -/
instance : BlockSink WaveFile where
  write samples channels file :=
    if channels ≠ file.format.channels then
      (.ok (.error (.invalidSettings (.waveChannels file.format.channels channels))), file)
    else if file.finished then (.ok (.ok ()), file)
    else (.ok (.ok ()), { file with samples := file.samples ++ samples })
  finish file := if file.finished then (.ok (.ok ()), file) else file.complete

end Patchbay
