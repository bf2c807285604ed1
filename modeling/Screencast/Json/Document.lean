import Screencast.Json.Writer
import Screencast.Settings.Document

/-!
# Settings in JSON

A group is an object or an array. In an object unknown names are passed over, a known one
given twice is refused, and so is a name that is no text; an array may stop early but may not
go on. An alternative is its name, or an object of that name alone that holds `null`.
-/

namespace Screencast.Json

def flag : Json → Option Bool
  | bool b => some b
  | _ => none

/-- A number without fraction or exponent, up to the bound. -/
def whole (bound : Nat) : Json → Option Nat
  | number (.natural n) => if n ≤ bound then some n else none
  | _ => none

def real : Json → Option Float
  | number n => n.toFloat?
  | _ => none

def text : Json → Option String
  | string s => s
  | _ => none

def choice : Json → Option String
  | string s => s
  | object [(name, null)] => name
  | _ => none

/-- The values of the members of this name. -/
def valuesOf (name : String) (members : List (Option String × Json)) : List Json :=
  (members.filter fun m => m.1 == some name).map Prod.snd

def fields (names : List String) : Json → Option (List (Option Json))
  | object members =>
    if members.any fun m => m.1.isNone then none
    else names.mapM fun name =>
      match valuesOf name members with
      | [] => some none
      | [v] => some (some v)
      | _ => none
  | array items =>
    if names.length < items.length then none
    else some (items.map some ++ List.replicate (names.length - items.length) none)
  | _ => none

instance : Document Json where
  flag := flag
  whole := whole
  real := real
  text := text
  choice := choice
  fields := fields

/-! ### Writing settings -/

def ofCapture (s : CaptureSettings) : Json :=
  ofMembers [("capture_cursor", bool s.captureCursor), ("gpu_timeout_ms", ofNat s.gpuTimeoutMs.toNat),
    ("gpu_health_window_ms", ofNat s.gpuHealthWindowMs.toNat),
    ("fault_ttl_secs", ofNat s.faultTtlSecs.toNat), ("allow_cpu_fallback", bool s.allowCpuFallback)]

def ofBandwidth (s : BandwidthSettings) : Json :=
  ofMembers [("window_ms", ofNat s.windowMs.toNat), ("tick_ms", ofNat s.tickMs.toNat),
    ("broadcast_interval_ms", ofNat s.broadcastIntervalMs.toNat), ("target_mbps", ofFloat s.targetMbps),
    ("max_mbps", ofFloat s.maxMbps), ("default_quality", ofNat s.defaultQuality.toNat),
    ("minimum_quality", ofNat s.minimumQuality.toNat), ("quality_step", ofNat s.qualityStep.toNat)]

def ofPipeline (s : PipelineSettings) : Json :=
  ofMembers [("no_change_delay_ms", ofNat s.noChangeDelayMs.toNat),
    ("failure_delay_ms", ofNat s.failureDelayMs.toNat), ("keyframe_quality", ofNat s.keyframeQuality.toNat),
    ("diff_padding", ofNat s.diffPadding.toNat), ("quality_refresh_ratio", ofFloat s.qualityRefreshRatio),
    ("codec", ofString s.codec.name), ("capture", ofCapture s.capture),
    ("bandwidth", ofBandwidth s.bandwidth)]

end Screencast.Json
