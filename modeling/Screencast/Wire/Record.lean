import Screencast.Bandwidth.Snapshot
import Screencast.Bytes.Cursor
import Screencast.Bytes.LittleEndian
import Screencast.Display.Basic
import Screencast.Region.Payload

/-!
# Records

How values are laid out in a message body: numbers in fixed width, least significant byte
first; a flag in one byte, 0 or 1; texts, data and lists behind their length in eight bytes;
the fields of a record one after another. What follows a record is left alone. Each `write`
stands beside its `read`.
-/

namespace Screencast.Record

abbrev Reader := StateT Cursor (Except PayloadFault)

/-- The next `n` bytes, or the given refusal. -/
def bytes (n : Nat) (fault : PayloadFault) : Reader ByteArray := fun c =>
  match c.take n with
  | some r => .ok r
  | none => .error fault

/-! ### Numbers and flags -/

def writeNumber (width n : Nat) : ByteArray := LittleEndian.encode width n

def readNumber (width : Nat) : Reader Nat := do
  return LittleEndian.decode (← bytes width .cutNumber)

def writeWord8 (n : UInt8) : ByteArray := writeNumber 1 n.toNat

def readWord8 : Reader UInt8 := do return UInt8.ofNat (← readNumber 1)

def writeWord32 (n : UInt32) : ByteArray := writeNumber 4 n.toNat

def readWord32 : Reader UInt32 := do return UInt32.ofNat (← readNumber 4)

def writeInt32 (n : Int32) : ByteArray := writeNumber 4 n.toUInt32.toNat

def readInt32 : Reader Int32 := do return (UInt32.ofNat (← readNumber 4)).toInt32

def writeDouble (x : Binary64) : ByteArray := writeNumber 8 x.bits.toNat

def readDouble : Reader Binary64 := do return ⟨UInt64.ofNat (← readNumber 8)⟩

def writeFlag (b : Bool) : ByteArray := writeNumber 1 (if b then 1 else 0)

def readFlag : Reader Bool := do
  match ← readNumber 1 with
  | 0 => return false
  | 1 => return true
  | n => throw (.badFlag (UInt8.ofNat n))

/-! ### Texts, data and lists -/

def writeText (s : String) : ByteArray := writeNumber 8 s.toUTF8.size ++ s.toUTF8

def readText : Reader String := do
  let size ← readNumber 8
  let b ← bytes size .cutText
  match String.fromUTF8? b with
  | some s => return s
  | none => throw (.badText ((Utf8.firstFault b).getD default))

def writeData (b : ByteArray) : ByteArray := writeNumber 8 b.size ++ b

def readData : Reader ByteArray := do
  let size ← readNumber 8
  bytes size .cutNumber

/-- The records of a list, one after another. -/
def writeEach {α : Type} (write : α → ByteArray) : List α → ByteArray
  | [] => ByteArray.empty
  | a :: rest => write a ++ writeEach write rest

def readTimes {α : Type} (read : Reader α) : (n : Nat) → Reader (List α)
  | 0 => return []
  | n + 1 => do
    let a ← read
    return a :: (← readTimes read n)

def writeList {α : Type} (write : α → ByteArray) (l : List α) : ByteArray :=
  writeNumber 8 l.length ++ writeEach write l

def readList {α : Type} (read : Reader α) : Reader (List α) := do
  let count ← readNumber 8
  readTimes read count

/-! ### The records of messages -/

def writeRegion (p : RegionPayload) : ByteArray :=
  writeWord32 p.x ++ writeWord32 p.y ++ writeWord32 p.width ++ writeWord32 p.height ++
    writeFlag p.isKeyframe ++ writeData p.data

def readRegion : Reader RegionPayload := do
  return ⟨← readWord32, ← readWord32, ← readWord32, ← readWord32, ← readFlag, ← readData⟩

def writeEntry (e : String × String) : ByteArray := writeText e.1 ++ writeText e.2

def readEntry : Reader (String × String) := do return (← readText, ← readText)

def writeSnapshot (s : Snapshot) : ByteArray :=
  writeDouble s.fps ++ writeDouble s.ips ++ writeDouble s.mbps ++ writeWord8 s.quality ++
    writeFlag s.isUsingGpu ++ writeFlag s.isQualityReduced ++ writeList writeEntry s.extra.entries

def readSnapshot : Reader Snapshot := do
  return ⟨← readDouble, ← readDouble, ← readDouble, ← readWord8, ← readFlag, ← readFlag,
    .ofList (← readList readEntry)⟩

def writeArea (a : Area) : ByteArray :=
  writeInt32 a.left ++ writeInt32 a.top ++ writeWord32 a.width ++ writeWord32 a.height

def readArea : Reader Area := do
  return ⟨← readInt32, ← readInt32, ← readWord32, ← readWord32⟩

def writeDisplay (d : Display) : ByteArray :=
  writeText d.name ++ writeText d.label ++ writeArea d.area ++ writeFlag d.isPrimary ++ writeDouble d.scale

def readDisplay : Reader Display := do
  return ⟨← readText, ← readText, ← readArea, ← readFlag, ← readDouble⟩

/-- What a record reader makes of a body, whatever follows the record. -/
def run {α : Type} (read : Reader α) (body : ByteArray) : Except PayloadFault α :=
  (read (Cursor.start body)).map Prod.fst

end Screencast.Record
