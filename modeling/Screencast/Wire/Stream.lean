import Screencast.Wire.Message

/-!
# Message streams

Messages on a byte stream, each a header and its body. `decode` looks at the front of a buffer:
it waits while a message is incomplete, refuses a bad header and leaves the buffer as it was,
and otherwise takes exactly one message off, whatever its body turns out to be.
-/

namespace Screencast.Stream

def maxBody : Nat := 32 * 1024 * 1024

/-- Writes a message behind what the buffer holds, or refuses it; and the buffer afterwards. -/
def put (m : Message) (buffer : ByteArray) : Except StreamError Unit × ByteArray :=
  let body := m.body
  if maxBody < body.size then (.error (.payloadTooLarge body.size maxBody), buffer)
  else
    match Header.ofBody m.kind m.flags body with
    | .error e => (.error e, buffer)
    | .ok header => (.ok (), buffer ++ (header.toBytes ++ body))

/-- The buffer with a message behind it. -/
def encode (m : Message) (buffer : ByteArray) : Except StreamError ByteArray :=
  match put m buffer with
  | (.ok (), buffer) => .ok buffer
  | (.error e, _) => .error e

def decodeBody (header : Header) (body : ByteArray) : Except StreamError (Option Message) :=
  match header.verify body with
  | .error e => .error e
  | .ok () => (Message.ofBody header.kind body).map some

/-- The next message, nothing while it is incomplete, or an error; and what is left. -/
def decode (buffer : ByteArray) : Except StreamError (Option Message) × ByteArray :=
  if buffer.size < Header.size then (.ok none, buffer)
  else
    match Header.ofBytes buffer with
    | .error e => (.error e, buffer)
    | .ok header =>
      let length := header.length.toNat
      if maxBody < length then (.error (.payloadTooLarge length maxBody), buffer)
      else if buffer.size < Header.size + length then (.ok none, buffer)
      else
        (decodeBody header (buffer.extract Header.size (Header.size + length)),
          buffer.extract (Header.size + length) buffer.size)

/-- `decode` when nothing more will come: an incomplete message is an error. -/
def decodeEnd (buffer : ByteArray) : Except StreamError (Option Message) × ByteArray :=
  match decode buffer with
  | (.ok none, left) =>
    if left.size = 0 then (.ok none, left) else (.error (.connection .trailingBytes), left)
  | r => r

/-- Messages taken off a buffer by `next` until there is none or an error; the flag says that an
error ended it. -/
def drain (next : ByteArray → Except StreamError (Option Message) × ByteArray) :
    (fuel : Nat) → (buffer : ByteArray) → List Message × ByteArray × Bool
  | 0, buffer => ([], buffer, false)
  | fuel + 1, buffer =>
    match next buffer with
    | (.ok (some m), left) =>
      let (ms, left, failed) := drain next fuel left
      (m :: ms, left, failed)
    | (.ok none, left) => ([], left, false)
    | (.error _, left) => ([], left, true)

/-- Each message takes a header off the buffer, so there are no more than headers fit in. -/
def messages (buffer : ByteArray) : List Message × ByteArray × Bool :=
  drain decode (buffer.size / Header.size + 1) buffer

/-- `messages` when nothing more will come. -/
def lastMessages (buffer : ByteArray) : List Message × ByteArray × Bool :=
  drain decodeEnd (buffer.size / Header.size + 1) buffer

end Screencast.Stream
