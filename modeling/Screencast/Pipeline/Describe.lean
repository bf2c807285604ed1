import Screencast.Pipeline.Machine

/-!
# Settings and loop by name and value

The texts that show a loop before its first pass with the names of its fields.
-/

namespace Screencast

/-- Named values within braces, under a name. -/
def describeRecord (name : String) (fields : List (String × String)) (isComplete : Bool) : String :=
  let shown := fields.map fun (field, value) => field ++ ": " ++ value
  name ++ " \x7b " ++ String.intercalate ", " (if isComplete then shown else shown ++ [".."]) ++ " \x7d"

def Codec.describe : Codec → String
  | jpeg => "Jpeg"
  | zstd => "Zstd"

def CaptureSettings.describe (s : CaptureSettings) : String :=
  describeRecord "CaptureConfig"
    [("capture_cursor", toString s.captureCursor), ("gpu_timeout_ms", toString s.gpuTimeoutMs.toNat),
      ("gpu_health_window_ms", toString s.gpuHealthWindowMs.toNat),
      ("fault_ttl_secs", toString s.faultTtlSecs.toNat),
      ("allow_cpu_fallback", toString s.allowCpuFallback)] true

def PipelineSettings.describe (s : PipelineSettings) : String :=
  describeRecord "PipelineConfig"
    [("no_change_delay_ms", toString s.noChangeDelayMs.toNat),
      ("failure_delay_ms", toString s.failureDelayMs.toNat),
      ("keyframe_quality", toString s.keyframeQuality.toNat), ("diff_padding", toString s.diffPadding.toNat),
      ("quality_refresh_ratio", Decimal.write .described s.qualityRefreshRatio),
      ("codec", s.codec.describe), ("capture", s.capture.describe), ("bandwidth", s.bandwidth.describe)] true

/-- A loop before its first pass: nothing is remembered yet. -/
def PipelineSettings.describeLoop (s : PipelineSettings) : String :=
  describeRecord "CapturePipeline"
    [("config", s.describe), ("has_baseline", "false"), ("last_keyframe", "None")] false

/-- The controls of a loop by its open request. -/
def Machine.describeControls (m : Machine) : String :=
  describeRecord "PipelineHandle" [("keyframe_requested", toString m.isRequested)] false

end Screencast
