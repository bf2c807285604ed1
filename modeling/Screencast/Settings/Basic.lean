import Screencast.Error

/-!
# Settings

What can be tuned, with the values that hold where nothing is said, and the ranges that
`validate` enforces. Of several settings out of range the first in the order of the checks is
named. A comparison with a value that is no number is never true, so such a throughput passes
and such a ratio does not.
-/

namespace Screencast

inductive Codec where
  | jpeg
  | zstd
  deriving DecidableEq, Inhabited

def Codec.name : Codec → String
  | jpeg => "jpeg"
  | zstd => "zstd"

def Codec.ofName? (s : String) : Option Codec := [jpeg, zstd].find? fun c => c.name == s

/-- Capture through a GPU output and recovery from its faults. -/
structure CaptureSettings where
  /-- Draw the pointer into captured frames. -/
  captureCursor : Bool
  gpuTimeoutMs : UInt64
  /-- An output that captured within this time is healthy. -/
  gpuHealthWindowMs : UInt64
  /-- How long a faulted output is left alone. -/
  faultTtlSecs : UInt64
  allowCpuFallback : Bool
  deriving DecidableEq

def CaptureSettings.standard : CaptureSettings := ⟨true, 50, 1500, 10, true⟩

instance : Inhabited CaptureSettings := ⟨.standard⟩

structure BandwidthSettings where
  /-- The trailing time over which rates are taken. -/
  windowMs : UInt64
  tickMs : UInt64
  broadcastIntervalMs : UInt64
  /-- Throughput that quality is steered to. -/
  targetMbps : Float
  /-- Throughput at which capture pauses. -/
  maxMbps : Float
  defaultQuality : UInt8
  minimumQuality : UInt8
  /-- Largest rise of quality in one step. -/
  qualityStep : UInt8
  deriving DecidableEq

def BandwidthSettings.standard : BandwidthSettings := ⟨3000, 100, 3000, 3.0, 8.0, 75, 20, 2⟩

instance : Inhabited BandwidthSettings := ⟨.standard⟩

structure PipelineSettings where
  noChangeDelayMs : UInt64
  failureDelayMs : UInt64
  keyframeQuality : UInt8
  diffPadding : UInt32
  /-- A full frame follows a drop in quality once throughput is below this part of the target. -/
  qualityRefreshRatio : Float
  codec : Codec
  capture : CaptureSettings
  bandwidth : BandwidthSettings
  deriving DecidableEq

def PipelineSettings.standard : PipelineSettings :=
  ⟨10, 100, 75, 2, 0.5, .jpeg, .standard, .standard⟩

instance : Inhabited PipelineSettings := ⟨.standard⟩

abbrev Micros := Int

def millis (n : UInt64) : Micros := n.toNat * 1000

namespace BandwidthSettings

def window (s : BandwidthSettings) : Micros := millis s.windowMs

/-- A quality is a percentage other than zero. -/
def isPercentage (q : UInt8) : Bool := 1 ≤ q && q ≤ 100

def validate (s : BandwidthSettings) : Except SettingsFault Unit :=
  if s.windowMs = 0 ∨ s.tickMs = 0 ∨ s.broadcastIntervalMs = 0 then .error .zeroInterval
  else if !isPercentage s.minimumQuality || !isPercentage s.defaultQuality
      || s.defaultQuality < s.minimumQuality then
    .error (.qualityBounds s.minimumQuality s.defaultQuality)
  else if s.targetMbps ≤ 0.0 ∨ s.maxMbps ≤ 0.0 then .error .throughput
  else .ok ()

end BandwidthSettings

namespace PipelineSettings

def noChangeDelay (s : PipelineSettings) : Micros := millis s.noChangeDelayMs

def failureDelay (s : PipelineSettings) : Micros := millis s.failureDelayMs

def validate (s : PipelineSettings) : Except SettingsFault Unit :=
  if !BandwidthSettings.isPercentage s.keyframeQuality then .error (.keyframeQuality s.keyframeQuality)
  else if !(0.0 ≤ s.qualityRefreshRatio && s.qualityRefreshRatio ≤ 1.0) then
    .error (.refreshRatio s.qualityRefreshRatio)
  else s.bandwidth.validate

end PipelineSettings

namespace CaptureSettings

def gpuTimeout (s : CaptureSettings) : Micros := millis s.gpuTimeoutMs

def gpuHealthWindow (s : CaptureSettings) : Micros := millis s.gpuHealthWindowMs

def faultTtl (s : CaptureSettings) : Micros := s.faultTtlSecs.toNat * 1000000

end CaptureSettings
end Screencast
