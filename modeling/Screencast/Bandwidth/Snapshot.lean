import Screencast.Bandwidth.Diagnostics
import Screencast.Bytes.Binary64

/-!
# Snapshots of the telemetry

What is known of the capture at one moment, and the feed that hands such snapshots to a
reader. The feed keeps the last sixteen; a reader that falls further behind is told how many it
missed and goes on with the oldest kept.
-/

namespace Screencast

structure Snapshot where
  /-- Payloads sent in a second. -/
  fps : Binary64
  /-- Attempts to capture in a second. -/
  ips : Binary64
  /-- Megabits sent in a second. -/
  mbps : Binary64
  quality : UInt8
  isUsingGpu : Bool
  isQualityReduced : Bool
  extra : Diagnostics
  deriving DecidableEq, Inhabited

/-- The last snapshots sent and the count of all. -/
structure SnapshotFeed where
  sent : Nat
  kept : List Snapshot
  deriving Inhabited

namespace SnapshotFeed

def capacity : Nat := 16

def empty : SnapshotFeed := ⟨0, []⟩

def send (f : SnapshotFeed) (s : Snapshot) : SnapshotFeed :=
  let kept := f.kept ++ [s]
  ⟨f.sent + 1, kept.drop (kept.length - capacity)⟩

/-- What a reader that has seen the first `seen` snapshots gets next. -/
inductive Received where
  | nothing
  | lagged (missed : Nat)
  | snapshot (s : Snapshot)

/-- The next answer for a reader and the count it has then seen. -/
def receive (f : SnapshotFeed) (seen : Nat) : Received × Nat :=
  let oldest := f.sent - f.kept.length
  if seen < oldest then (.lagged (oldest - seen), oldest)
  else
    match f.kept[seen - oldest]? with
    | some s => (.snapshot s, seen + 1)
    | none => (.nothing, seen)

end SnapshotFeed
end Screencast
