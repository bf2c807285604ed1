import Screencast.Region.Payload

/-!
# The payload channel

A channel with room for one payload between the capture loop and the viewer's side. Before it
captures, the loop reserves the room; reservations are numbered in the order in which they
are made and served in that order. The room is free when no payload lies in it and no reservation
holds it, so that a slow reader holds capture up instead of piling payloads.
-/

namespace Screencast

/-- What a reservation is at present. -/
inductive ReservationState where
  | waiting
  | held
  /-- The reader is gone, as the last operation on the channel told it. -/
  | closed
  | gone
  deriving DecidableEq, Inhabited

def ReservationState.name : ReservationState → String
  | waiting => "waiting"
  | held => "held"
  | closed => "closed"
  | gone => "gone"

structure PayloadChannel where
  queued : Option RegionPayload
  /-- The reservation that holds the room. -/
  holder : Option Nat
  /-- Reservations without the room, the oldest first. -/
  waiting : List Nat
  /-- Number of reservations made. -/
  issued : Nat
  /-- Reservations that the last operation refused. -/
  refused : List Nat
  hasWriter : Bool
  hasReader : Bool
  deriving DecidableEq, Inhabited

namespace PayloadChannel

def new : PayloadChannel := ⟨none, none, [], 0, [], true, true⟩

/-- The channel once free room is handed to the oldest reservation; without a reader all that wait
are refused. -/
def settle (c : PayloadChannel) : PayloadChannel :=
  if !c.hasReader then { c with waiting := [], refused := c.waiting }
  else
    match c.queued, c.holder, c.waiting with
    | none, none, oldest :: rest => { c with holder := some oldest, waiting := rest, refused := [] }
    | _, _, _ => { c with refused := [] }

def stateOf (c : PayloadChannel) (ticket : Nat) : ReservationState :=
  if ticket ∈ c.waiting then .waiting
  else if c.holder = some ticket then .held
  else if ticket ∈ c.refused then .closed
  else .gone

/-- What the reservations made so far are, in their order. -/
def states (c : PayloadChannel) : List ReservationState := (List.range c.issued).map c.stateOf

def reserve (c : PayloadChannel) : Nat × PayloadChannel :=
  (c.issued, { c with waiting := c.waiting ++ [c.issued], issued := c.issued + 1 }.settle)

/-- The payload put into the room that the reservation holds. Without a reader it is lost. -/
def send? (c : PayloadChannel) (ticket : Nat) (p : RegionPayload) : Option PayloadChannel :=
  if c.holder = some ticket then
    some { c with holder := none, queued := if c.hasReader then some p else none }.settle
  else none

/-- The channel after a reservation is given up. -/
def giveUp (c : PayloadChannel) (ticket : Nat) : PayloadChannel :=
  { c with
    waiting := c.waiting.erase ticket
    holder := if c.holder = some ticket then none else c.holder }.settle

/-- The payload in the room, taken out. -/
def receive (c : PayloadChannel) : Option RegionPayload × PayloadChannel :=
  (c.queued, { c with queued := none }.settle)

def dropReader (c : PayloadChannel) : PayloadChannel := { c with hasReader := false, queued := none }.settle

def dropWriter (c : PayloadChannel) : PayloadChannel := { c with hasWriter := false }.settle

/-- Nothing can be sent any more: the writer is gone and so are all reservations. -/
def isFinished (c : PayloadChannel) : Bool := !c.hasWriter && c.holder.isNone && c.waiting.isEmpty

/-- What a reader that asks for the next payload is told. -/
inductive Next where
  | payload (p : RegionPayload)
  | pending
  /-- No payload is left, and none can come. -/
  | finished
  | noReader
  deriving DecidableEq, Inhabited

def next (c : PayloadChannel) : Next × PayloadChannel :=
  let (p, rest) := c.receive
  if !c.hasReader then (.noReader, rest)
  else
    match p with
    | some p => (.payload p, rest)
    | none => (if c.isFinished then .finished else .pending, rest)

end PayloadChannel
end Screencast
