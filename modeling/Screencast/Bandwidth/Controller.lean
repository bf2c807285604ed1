import Screencast.Bandwidth.Quality
import Screencast.Bandwidth.Series
import Screencast.Bandwidth.Snapshot
import Screencast.Decimal.Style

/-!
# The bandwidth controller

Three series of marks: bytes sent, payloads sent and attempts to capture. A pass prunes them to the
trailing window, takes the rates, steers the quality and opens or closes the gate that capture
waits at.
-/

namespace Screencast

/-- Seconds of a time, whole ones and the rest added as doubles. -/
def Micros.seconds (t : Micros) : Float :=
  Float.ofInt (t / 1000000) + Float.ofInt (t % 1000000 * 1000) / 1e9

/-- Events in a second. A lone one counts as one a second. -/
def ratePerSecond (count : Nat) (window : Micros) : Float :=
  match count with
  | 0 => 0.0
  | 1 => 1.0
  | n => Float.ofNat n / window.seconds

/-- Megabits in a second, for so many bytes. -/
def throughput (bytes : Nat) (window : Micros) : Float :=
  Float.ofNat bytes / 1024.0 / 1024.0 / window.seconds * 8.0

/-- The telemetry of one capture and what is steered by it. -/
structure Controller where
  settings : BandwidthSettings
  bytesSent : Series
  framesSent : Series
  iterations : Series
  fps : Float
  ips : Float
  mbps : Float
  quality : UInt8
  reductions : Nat
  isUsingGpu : Bool
  extra : Diagnostics
  /-- Capture may go on. -/
  isGateOpen : Bool
  feed : SnapshotFeed
  deriving Inhabited

namespace Controller

def new (s : BandwidthSettings) : Controller :=
  ⟨s, [], [], [], 0.0, 0.0, 0.0, s.defaultQuality, 0, false, .empty, true, .empty⟩

/-! ### Marks -/

def markBytes (c : Controller) (now : Micros) (size : Nat) : Controller :=
  { c with bytesSent := c.bytesSent.add now size }

def markFrame (c : Controller) (now : Micros) : Controller :=
  { c with framesSent := c.framesSent.add now 1 }

def markIteration (c : Controller) (now : Micros) : Controller :=
  { c with iterations := c.iterations.add now 1 }

/-! ### Passes -/

/-- The throughput of a series, zero for none. -/
def seriesThroughput (s : Series) (window : Micros) : Float :=
  if s.isEmpty then 0.0 else throughput s.total window

def process (c : Controller) (now : Micros) : Controller :=
  let window := c.settings.window
  let bytesSent := c.bytesSent.prune now window
  let framesSent := c.framesSent.prune now window
  let iterations := c.iterations.prune now window
  let mbps := seriesThroughput bytesSent window
  let quality := c.settings.qualityRule.next c.quality mbps
  { c with
    bytesSent, framesSent, iterations, mbps, quality
    fps := ratePerSecond framesSent.count window
    ips := ratePerSecond iterations.count window
    reductions := if quality < c.quality then c.reductions + 1 else c.reductions
    isGateOpen := mbps < c.settings.maxMbps }

/-! ### Telemetry -/

def isQualityReduced (c : Controller) : Bool := c.quality < c.settings.defaultQuality

def snapshot (c : Controller) : Snapshot :=
  ⟨.ofFloat c.fps, .ofFloat c.ips, .ofFloat c.mbps, c.quality, c.isUsingGpu, c.isQualityReduced, c.extra⟩

/-- The controller with a text among its diagnostics. -/
def setDiagnostic (c : Controller) (name text : String) : Controller :=
  { c with extra := c.extra.insert name text }

def setUsingGpu (c : Controller) (on : Bool) : Controller := { c with isUsingGpu := on }

/-- The controller once its snapshot is handed to the readers. -/
def broadcast (c : Controller) : Controller := { c with feed := c.feed.send c.snapshot }

end Controller

def BandwidthSettings.describe (s : BandwidthSettings) : String :=
  "BandwidthConfig \x7b window_ms: " ++ toString s.windowMs.toNat ++ ", tick_ms: " ++ toString s.tickMs.toNat ++
    ", broadcast_interval_ms: " ++ toString s.broadcastIntervalMs.toNat ++
    ", target_mbps: " ++ Decimal.write .described s.targetMbps ++
    ", max_mbps: " ++ Decimal.write .described s.maxMbps ++
    ", default_quality: " ++ toString s.defaultQuality.toNat ++
    ", minimum_quality: " ++ toString s.minimumQuality.toNat ++
    ", quality_step: " ++ toString s.qualityStep.toNat ++ " \x7d"

/-- The controller by its settings, its quality and its gate. -/
def Controller.describe (c : Controller) : String :=
  "BandwidthController \x7b config: " ++ c.settings.describe ++ ", quality: " ++ toString c.quality.toNat ++
    ", gate_open: " ++ toString c.isGateOpen ++ " \x7d"

end Screencast
