import Screencast.Wire.Stream

/-!
# Connections

A connection to one viewer, by the bytes that pass over it. What arrives is read message by
message until the first that cannot be decoded, heartbeats left out; what is sent are the
messages one after another. `Network` says whether the host has a network at all.
-/

namespace Screencast

/-- What the host offers to listen on. -/
inductive Network where
  | available
  | unreachable
  deriving DecidableEq, Inhabited

namespace Connection

/-- What has been received, and what is left of the bytes so far. -/
structure Inbox where
  received : List Message
  buffer : ByteArray
  /-- Something could not be decoded; nothing more is read. -/
  isFailed : Bool

def Inbox.empty : Inbox := ⟨[], ByteArray.empty, false⟩

/-- The inbox after one more chunk of bytes. -/
def Inbox.feed (i : Inbox) (chunk : ByteArray) : Inbox :=
  if i.isFailed then i
  else
    let (ms, left, failed) := Stream.messages (i.buffer ++ chunk)
    ⟨i.received ++ ms, left, failed⟩

/-- The inbox once the peer has closed; bytes that are left over are an error. -/
def Inbox.close (i : Inbox) : Inbox :=
  if i.isFailed then i
  else
    let (ms, left, failed) := Stream.lastMessages i.buffer
    ⟨i.received ++ ms, left, failed⟩

/-- The messages delivered when these chunks arrive and the peer then closes. -/
def received (chunks : List ByteArray) : List Message :=
  (chunks.foldl Inbox.feed .empty).close.received.filter fun m => m ≠ .heartbeat

/-- The bytes of the messages sent, up to the first that is refused. -/
def sent (messages : List Message) : ByteArray :=
  go messages ByteArray.empty
where
  go : List Message → ByteArray → ByteArray
    | [], buffer => buffer
    | m :: rest, buffer =>
      match Stream.put m buffer with
      | (.ok (), buffer) => go rest buffer
      | (.error _, buffer) => buffer

/-- Both directions of a connection that the host can open. -/
def exchange (network : Network) (chunks : List ByteArray) (messages : List Message) :
    Except StreamError (List Message × ByteArray) :=
  match network with
  | .available => .ok (received chunks, sent messages)
  | .unreachable => .error (.connection .unreachable)

end Connection
end Screencast
