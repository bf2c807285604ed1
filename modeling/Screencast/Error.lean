import Screencast.Decimal.Style
import Screencast.Geometry.Rect
import Screencast.Instances
import Screencast.Text.Utf8

/-!
# Errors

What can go wrong, by cause. Each constructor holds the facts of the failure and `message`
holds the wording, so that two errors are equal exactly when their causes are.
-/

namespace Screencast

/-- Why a frame could not be built or captured. -/
inductive CaptureFault where
  | strideTooShort (stride minimum : Nat)
  | bufferTooShort (held needed : Nat)
  | reported (text : String)
  deriving DecidableEq, Inhabited

def CaptureFault.message : CaptureFault → String
  | strideTooShort stride minimum => s!"stride {stride} shorter than row of {minimum} bytes"
  | bufferTooShort held needed => s!"frame buffer holds {held} bytes, {needed} required"
  | reported text => text

/-- Why the bytes of a message body were refused. -/
inductive PayloadFault where
  /-- The bytes end inside a number or a flag. -/
  | cutNumber
  /-- A text is announced as longer than what is left. -/
  | cutText
  | badFlag (byte : UInt8)
  | badText (fault : Utf8.Fault)
  deriving DecidableEq, Inhabited

def PayloadFault.message : PayloadFault → String
  | cutNumber => "io error: unexpected end of file"
  | cutText => "io error: "
  | badFlag byte => s!"invalid u8 while decoding bool, expected 0 or 1, found {byte.toNat}"
  | badText fault => s!"string is not valid utf8: {fault.message}"

/-- Why a region or a message could not be coded. -/
inductive EncodingFault where
  | coder (detail : String)
  | wrongSize (decoded expected : Nat) (width height : UInt32)
  | payload (fault : PayloadFault)
  | reported (text : String)
  deriving DecidableEq, Inhabited

def EncodingFault.message : EncodingFault → String
  | coder detail => detail
  | wrongSize decoded expected width height =>
    s!"decoded {decoded} bytes, expected {expected} for {width.toNat}x{height.toNat}"
  | payload fault => fault.message
  | reported text => text

/-- Why a link to a viewer failed. -/
inductive LinkFault where
  /-- The peer closed inside a message. -/
  | trailingBytes
  /-- The host has no network to listen on. -/
  | unreachable
  | badAddress
  | reported (text : String)
  deriving DecidableEq, Inhabited

def LinkFault.message : LinkFault → String
  | trailingBytes => "bytes remaining on stream"
  | unreachable => "Network is unreachable (os error 101)"
  | badAddress => "invalid socket address"
  | reported text => text

inductive SettingsFault where
  | keyframeQuality (value : UInt8)
  | refreshRatio (value : Float)
  | zeroInterval
  | qualityBounds (minimum standard : UInt8)
  | throughput
  | reported (text : String)
  deriving DecidableEq, Inhabited

def SettingsFault.message : SettingsFault → String
  | keyframeQuality value => s!"keyframe_quality {value.toNat} outside 1..=100"
  | refreshRatio value => "quality_refresh_ratio " ++ Decimal.write .plain value ++ " outside 0.0..=1.0"
  | zeroInterval => "bandwidth intervals must be non-zero"
  | qualityBounds minimum standard =>
    s!"quality bounds must satisfy 1 <= minimum ({minimum.toNat}) <= default ({standard.toNat}) <= 100"
  | throughput => "target_mbps and max_mbps must be positive"
  | reported text => text

inductive StreamError where
  | capture (fault : CaptureFault)
  | backendUnavailable (backend : String)
  | displayNotFound (name : String)
  | noDisplays
  | dimensionMismatch (current previous : UInt32 × UInt32)
  | pixelFormatMismatch
  | encoding (fault : EncodingFault)
  | regionOutOfBounds (region : Rect)
  | invalidMagic
  | checksumMismatch
  | unknownVariant (typeName : String) (value : Nat)
  | payloadTooLarge (size max : Nat)
  | connection (fault : LinkFault)
  | channelClosed
  | invalidSettings (fault : SettingsFault)
  | other (text : String)
  /-- A pixel lies outside the frame's buffer. -/
  | outOfBuffer
  deriving DecidableEq, Inhabited

def Rect.describe (r : Rect) : String :=
  "Rect \x7b x: " ++ toString r.x.toNat ++ ", y: " ++ toString r.y.toNat ++ ", width: " ++
    toString r.width.toNat ++ ", height: " ++ toString r.height.toNat ++ " \x7d"

/-- Hexadecimal digits in lower case, at least one. -/
def hexDigits (n : Nat) : String := String.ofList (Nat.toDigits 16 n)

def sizePair (s : UInt32 × UInt32) : String := s!"({s.1.toNat}, {s.2.toNat})"

def StreamError.message : StreamError → String
  | capture fault => s!"capture failed: {fault.message}"
  | backendUnavailable backend => s!"capture backend unavailable: {backend}"
  | displayNotFound name => s!"display not found: {name}"
  | noDisplays => "no displays attached"
  | dimensionMismatch current previous =>
    s!"frame dimensions differ: {sizePair current} vs {sizePair previous}"
  | pixelFormatMismatch => "frame pixel formats differ"
  | encoding fault => s!"encoding error: {fault.message}"
  | regionOutOfBounds region => s!"region {region.describe} is outside the frame"
  | invalidMagic => "invalid magic bytes: expected DKC1"
  | checksumMismatch => "checksum mismatch"
  | unknownVariant typeName value => s!"unknown {typeName} discriminant: 0x{hexDigits value}"
  | payloadTooLarge size max => s!"payload too large: {size} bytes (max {max})"
  | connection fault => s!"connection error: {fault.message}"
  | channelClosed => "channel closed"
  | invalidSettings fault => s!"invalid configuration: {fault.message}"
  | other text => text
  | outOfBuffer => "pixel outside the frame buffer"

end Screencast
