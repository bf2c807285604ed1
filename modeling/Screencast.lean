import Screencast.Agent.CommandLine
import Screencast.Agent.Service
import Screencast.Agent.Settings
import Screencast.Agent.Watch
import Screencast.Bandwidth.Controller
import Screencast.Bandwidth.Diagnostics
import Screencast.Bandwidth.Quality
import Screencast.Bandwidth.Series
import Screencast.Bandwidth.Snapshot
import Screencast.Bytes.Binary64
import Screencast.Bytes.Build
import Screencast.Bytes.Cursor
import Screencast.Bytes.Hex
import Screencast.Bytes.LittleEndian
import Screencast.Capture.Backend
import Screencast.Capture.Faults
import Screencast.Capture.Gpu
import Screencast.Capture.Output
import Screencast.Capture.Pattern
import Screencast.Capture.Result
import Screencast.Decimal.Reading
import Screencast.Decimal.Shortest
import Screencast.Decimal.Style
import Screencast.Display.Basic
import Screencast.Display.Registry
import Screencast.Error
import Screencast.Frame.Basic
import Screencast.Frame.Change
import Screencast.Frame.Crop
import Screencast.Frame.Pointer
import Screencast.Frame.Turn
import Screencast.Geometry.Area
import Screencast.Geometry.Rect
import Screencast.Geometry.Rotation
import Screencast.Instances
import Screencast.Jpeg.Coefficients
import Screencast.Jpeg.Head
import Screencast.Jpeg.Image
import Screencast.Jpeg.Tables
import Screencast.Jpeg.Transform
import Screencast.Json.Document
import Screencast.Json.Reader
import Screencast.Json.Value
import Screencast.Json.Writer
import Screencast.Main
import Screencast.Pipeline.Channel
import Screencast.Pipeline.Clock
import Screencast.Pipeline.Describe
import Screencast.Pipeline.Keyframe
import Screencast.Pipeline.Machine
import Screencast.Proofs.Action
import Screencast.Proofs.Announcements
import Screencast.Proofs.Backpressure
import Screencast.Proofs.Baseline
import Screencast.Proofs.Bytes
import Screencast.Proofs.Change
import Screencast.Proofs.Charge
import Screencast.Proofs.ComparedFrames
import Screencast.Proofs.Convergence
import Screencast.Proofs.Crop
import Screencast.Proofs.Decoding
import Screencast.Proofs.Delivery
import Screencast.Proofs.Difference
import Screencast.Proofs.DirtyAreas
import Screencast.Proofs.Edits
import Screencast.Proofs.ExactChange
import Screencast.Proofs.ExactQuality
import Screencast.Proofs.FaultedOutputs
import Screencast.Proofs.FrameSafety
import Screencast.Proofs.Gate
import Screencast.Proofs.GpuRun
import Screencast.Proofs.Headers
import Screencast.Proofs.InHand
import Screencast.Proofs.MergedAreas
import Screencast.Proofs.NextDisplay
import Screencast.Proofs.NoChanges
import Screencast.Proofs.Order
import Screencast.Proofs.Passage
import Screencast.Proofs.Payloads
import Screencast.Proofs.Payment
import Screencast.Proofs.Picture
import Screencast.Proofs.Pointer
import Screencast.Proofs.PixelSets
import Screencast.Proofs.PointerRows
import Screencast.Proofs.Quality
import Screencast.Proofs.Records
import Screencast.Proofs.Rect
import Screencast.Proofs.Refresh
import Screencast.Proofs.RegionColours
import Screencast.Proofs.Request
import Screencast.Proofs.RowByRow
import Screencast.Proofs.Run
import Screencast.Proofs.Selection
import Screencast.Proofs.SelfDescribing
import Screencast.Proofs.Size
import Screencast.Proofs.Switch
import Screencast.Proofs.Telemetry
import Screencast.Proofs.TestPattern
import Screencast.Proofs.Throughput
import Screencast.Proofs.Trace
import Screencast.Proofs.TrailingWindow
import Screencast.Proofs.Transmission
import Screencast.Proofs.TurnedRegions
import Screencast.Proofs.Turns
import Screencast.Proofs.Viewer
import Screencast.Proofs.VirtualDesktop
import Screencast.Proofs.Zstd
import Screencast.Region.Coder
import Screencast.Region.Payload
import Screencast.Saturating
import Screencast.Settings.Basic
import Screencast.Settings.Document
import Screencast.Text.Utf8
import Screencast.Toml.Document
import Screencast.Toml.Number
import Screencast.Toml.Reader
import Screencast.Toml.Tables
import Screencast.Toml.Text
import Screencast.Toml.Value
import Screencast.Toml.Writer
import Screencast.Wire.Checksum
import Screencast.Wire.Connection
import Screencast.Wire.Header
import Screencast.Wire.Message
import Screencast.Wire.Record
import Screencast.Wire.Stream
import Screencast.Zstd.Block
import Screencast.Zstd.Digest
import Screencast.Zstd.Frame
import Screencast.Zstd.Stream
