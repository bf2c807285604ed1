import Screencast.Settings.Basic

/-!
# Settings in a document

A `Document` is a tree of values from which settings are read: it tells apart flags, whole
numbers, reals, texts, choices and groups. A group is named fields or, in their order, bare
items; a field that is not there keeps its standard value, one of the wrong kind is a refusal.
-/

namespace Screencast

class Document (α : Type) where
  flag : α → Option Bool
  /-- A whole number up to the bound. -/
  whole : Nat → α → Option Nat
  real : α → Option Float
  text : α → Option String
  choice : α → Option String
  /-- The values of the named fields, `none` where a field is missing. -/
  fields : List String → α → Option (List (Option α))

namespace Document

/-- The outcome of a field: its standard value if it is not there. -/
def orElse {α β : Type} (read : α → Option β) (standard : β) : Option α → Option β
  | none => some standard
  | some v => read v

variable {α : Type} [Document α]

def word8 (v : α) : Option UInt8 := (whole (2 ^ 8 - 1) v).map UInt8.ofNat

def word32 (v : α) : Option UInt32 := (whole (2 ^ 32 - 1) v).map UInt32.ofNat

def word64 (v : α) : Option UInt64 := (whole (2 ^ 64 - 1) v).map UInt64.ofNat

def codec (v : α) : Option Codec := (choice v).bind Codec.ofName?

def captureFields : List String :=
  ["capture_cursor", "gpu_timeout_ms", "gpu_health_window_ms", "fault_ttl_secs", "allow_cpu_fallback"]

def captureSettings (v : α) : Option CaptureSettings := do
  let standard := CaptureSettings.standard
  match ← fields captureFields v with
  | [cursor, timeout, health, ttl, fallback] => do
    return ⟨← orElse flag standard.captureCursor cursor, ← orElse word64 standard.gpuTimeoutMs timeout,
      ← orElse word64 standard.gpuHealthWindowMs health, ← orElse word64 standard.faultTtlSecs ttl,
      ← orElse flag standard.allowCpuFallback fallback⟩
  | _ => none

def bandwidthFields : List String :=
  ["window_ms", "tick_ms", "broadcast_interval_ms", "target_mbps", "max_mbps", "default_quality",
    "minimum_quality", "quality_step"]

def bandwidthSettings (v : α) : Option BandwidthSettings := do
  let standard := BandwidthSettings.standard
  match ← fields bandwidthFields v with
  | [window, tick, broadcast, target, max, default', minimum, step] => do
    return ⟨← orElse word64 standard.windowMs window, ← orElse word64 standard.tickMs tick,
      ← orElse word64 standard.broadcastIntervalMs broadcast, ← orElse real standard.targetMbps target,
      ← orElse real standard.maxMbps max, ← orElse word8 standard.defaultQuality default',
      ← orElse word8 standard.minimumQuality minimum, ← orElse word8 standard.qualityStep step⟩
  | _ => none

def pipelineFields : List String :=
  ["no_change_delay_ms", "failure_delay_ms", "keyframe_quality", "diff_padding",
    "quality_refresh_ratio", "codec", "capture", "bandwidth"]

def pipelineSettings (v : α) : Option PipelineSettings := do
  let standard := PipelineSettings.standard
  match ← fields pipelineFields v with
  | [noChange, failure, quality, padding, ratio, kind, capture, bandwidth] => do
    return ⟨← orElse word64 standard.noChangeDelayMs noChange, ← orElse word64 standard.failureDelayMs failure,
      ← orElse word8 standard.keyframeQuality quality, ← orElse word32 standard.diffPadding padding,
      ← orElse real standard.qualityRefreshRatio ratio, ← orElse codec standard.codec kind,
      ← orElse captureSettings standard.capture capture,
      ← orElse bandwidthSettings standard.bandwidth bandwidth⟩
  | _ => none

end Document
end Screencast
