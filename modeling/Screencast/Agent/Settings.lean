import Screencast.Capture.Backend
import Screencast.Toml.Document
import Screencast.Toml.Reader
import Screencast.Toml.Writer

/-!
# Settings of the agent

What the agent reads from its file: where it listens, what it captures, how it logs, and the
settings of the capture loop. What the file does not say keeps its standard value. A file
that is not there or not valid counts as one that says nothing.
-/

namespace Screencast

structure AgentSettings where
  listenAddress : String
  backend : Backend
  /-- The device captured at the start, the primary display if none. -/
  display : Option String
  displayPollMs : UInt64
  /-- The level of the log, or directives for its parts. -/
  logLevel : String
  pipeline : PipelineSettings
  deriving DecidableEq

inductive AgentFault where
  /-- It cannot be read, or a value is of the wrong kind. -/
  | unreadable
  | invalid (fault : SettingsFault)
  deriving DecidableEq

namespace AgentSettings

def standard : AgentSettings := ⟨"0.0.0.0:7331", .auto, none, 2000, "info", .standard⟩

instance : Inhabited AgentSettings := ⟨standard⟩

/-! ### Sections -/

section
variable {α : Type} [Document α]

open Document

/-- The fields of a group that may be missing as a whole. -/
def group (names : List String) : Option α → Option (List (Option α))
  | none => some (names.map fun _ => none)
  | some v => fields names v

def captureNames : List String :=
  ["backend", "display", "capture_cursor", "codec", "gpu_timeout_ms", "gpu_health_window_ms", "fault_ttl_secs",
    "allow_cpu_fallback", "display_poll_ms"]

/-- The settings with those of what is captured. -/
def readCapture (s : AgentSettings) (v : Option α) : Option AgentSettings := do
  let p := s.pipeline
  let c := p.capture
  match ← group captureNames v with
  | [backend', display, cursor, kind, timeout, health, ttl, fallback, poll] => do
    let capture : CaptureSettings :=
      ⟨← orElse flag c.captureCursor cursor, ← orElse word64 c.gpuTimeoutMs timeout,
        ← orElse word64 c.gpuHealthWindowMs health, ← orElse word64 c.faultTtlSecs ttl,
        ← orElse flag c.allowCpuFallback fallback⟩
    return { s with
      backend := ← orElse Document.backend s.backend backend'
      display := ← orElse (fun v => (text v).map some) s.display display
      displayPollMs := ← orElse word64 s.displayPollMs poll
      pipeline := { p with capture, codec := ← orElse codec p.codec kind } }
  | _ => none

def pipelineNames : List String :=
  ["no_change_delay_ms", "failure_delay_ms", "keyframe_quality", "diff_padding", "quality_refresh_ratio"]

/-- The settings with those of the loop. -/
def readPipeline (s : AgentSettings) (v : Option α) : Option AgentSettings := do
  let p := s.pipeline
  match ← group pipelineNames v with
  | [noChange, failure, quality, padding, ratio] => do
    return { s with
      pipeline := { p with
        noChangeDelayMs := ← orElse word64 p.noChangeDelayMs noChange
        failureDelayMs := ← orElse word64 p.failureDelayMs failure
        keyframeQuality := ← orElse word8 p.keyframeQuality quality
        diffPadding := ← orElse word32 p.diffPadding padding
        qualityRefreshRatio := ← orElse real p.qualityRefreshRatio ratio } }
  | _ => none

def readText (name standard : String) (v : Option α) : Option String := do
  match ← group [name] v with
  | [v] => orElse text standard v
  | _ => none

def sectionNames : List String := ["network", "capture", "bandwidth", "pipeline", "logging"]

/-- The settings in a document, not yet checked. -/
def ofDocument (v : α) : Option AgentSettings := do
  match ← fields sectionNames v with
  | [network, capture, bandwidth, pipeline, logging] => do
    let s := standard
    let s := { s with listenAddress := ← readText "listen_addr" s.listenAddress network }
    let s ← s.readCapture capture
    let bandwidth ← orElse bandwidthSettings s.pipeline.bandwidth bandwidth
    let s := { s with pipeline := { s.pipeline with bandwidth } }
    let s ← s.readPipeline pipeline
    return { s with logLevel := ← readText "level" s.logLevel logging }
  | _ => none

end

/-! ### Reading and writing -/

def parse (text : String) : Except AgentFault AgentSettings :=
  match (Toml.parse text).bind ofDocument with
  | none => .error .unreadable
  | some s =>
    match s.pipeline.validate with
    | .ok () => .ok s
    | .error fault => .error (.invalid fault)

/-- The settings in a file of these bytes, `none` for no file. -/
def load (contents : Option ByteArray) : AgentSettings :=
  match contents.bind String.fromUTF8? with
  | none => standard
  | some text => (parse text).toOption.getD standard

/-- How often the displays are looked for, ten times a second at most. -/
def displayPoll (s : AgentSettings) : Micros := millis (max s.displayPollMs 100)

/-- The text of a file with these settings. -/
def write (s : AgentSettings) : String :=
  let p := s.pipeline
  let c := p.capture
  let b := p.bandwidth
  let word (n : UInt64) : Toml := .integer n.toNat
  let byte (n : UInt8) : Toml := .integer n.toNat
  Toml.writeSections
    [("network", [("listen_addr", .string s.listenAddress)]),
      ("capture",
        [("backend", .string s.backend.name)] ++ (s.display.map fun d => ("display", Toml.string d)).toList ++
        [("capture_cursor", .bool c.captureCursor), ("codec", .string p.codec.name),
          ("gpu_timeout_ms", word c.gpuTimeoutMs), ("gpu_health_window_ms", word c.gpuHealthWindowMs),
          ("fault_ttl_secs", word c.faultTtlSecs), ("allow_cpu_fallback", .bool c.allowCpuFallback),
          ("display_poll_ms", word s.displayPollMs)]),
      ("bandwidth",
        [("window_ms", word b.windowMs), ("tick_ms", word b.tickMs),
          ("broadcast_interval_ms", word b.broadcastIntervalMs), ("target_mbps", .real b.targetMbps),
          ("max_mbps", .real b.maxMbps), ("default_quality", byte b.defaultQuality),
          ("minimum_quality", byte b.minimumQuality), ("quality_step", byte b.qualityStep)]),
      ("pipeline",
        [("no_change_delay_ms", word p.noChangeDelayMs), ("failure_delay_ms", word p.failureDelayMs),
          ("keyframe_quality", byte p.keyframeQuality), ("diff_padding", .integer p.diffPadding.toNat),
          ("quality_refresh_ratio", .real p.qualityRefreshRatio)]),
      ("logging", [("level", .string s.logLevel)])]

end AgentSettings
end Screencast
