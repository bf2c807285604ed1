import Screencast.Decimal.Reading
import Screencast.Toml.Text
import Screencast.Toml.Value

/-!
# Numbers, dates and times in TOML

Digits may be set apart by single underscores. A whole number has no leading zeros and fits 64
bits with its sign; one in base 16, 8 or 2 has no sign. A real number has digits on both sides
of its point; one that is too large for a double is refused unless it is negative.
-/

namespace Screencast.Toml

/-- Digits, at least one, with underscores between them left out. -/
def digits (isDigit : Char → Bool) : Step (List Char)
  | c :: '_' :: rest =>
    if isDigit c then
      match digits isDigit rest with
      | some (more, rest) => some (c :: more, rest)
      | none => none
    else none
  | c :: rest =>
    if isDigit c then
      match digits isDigit rest with
      | some (more, rest) => some (c :: more, rest)
      | none => some ([c], rest)
    else none
  | [] => none

/-- The number that digits of a base show. -/
def digitsValue (base : Nat) (ds : List Char) : Nat :=
  ds.foldl (fun n c => n * base + (Bytes.hexValue? c).getD 0) 0

/-- A sign and what follows it; `true` for minus. -/
def signed : List Char → Bool × List Char
  | '+' :: rest => (false, rest)
  | '-' :: rest => (true, rest)
  | cs => (false, cs)

def wholeOf (n : Int) : Option Toml := if -2 ^ 63 ≤ n ∧ n < 2 ^ 63 then some (.integer n) else none

/-- A whole number in another base, from behind its prefix. -/
def based (base : Nat) (isDigit : Char → Bool) (cs : List Char) : Option (Toml × List Char) :=
  match digits isDigit cs with
  | some (ds, rest) => (wholeOf (digitsValue base ds)).map fun v => (v, rest)
  | none => none

/-- The whole part of a decimal number: no zero in front of another digit. -/
def wholePart (cs : List Char) : Option (List Char × List Char) :=
  match cs with
  | '0' :: rest => some (['0'], rest)
  | cs => digits Char.isDigit cs

/-- An exponent, if one follows; zero if none does. -/
def exponent (cs : List Char) : Option (Int × List Char) :=
  match cs with
  | c :: rest =>
    if c = 'e' ∨ c = 'E' then
      let (isNegative, rest) := signed rest
      (digits Char.isDigit rest).map fun (ds, rest) =>
        (if isNegative then -(digitsValue 10 ds : Int) else digitsValue 10 ds, rest)
    else some (0, c :: rest)
  | [] => some (0, [])

/-- A real number, unless it is too large and positive. -/
def realOf (isNegative : Bool) (x : Float) : Option Toml :=
  if isNegative then some (.real (-x)) else if x.isInf then none else some (.real x)

/-- A decimal number from behind its sign. -/
def decimal (isNegative : Bool) (cs : List Char) : Option (Toml × List Char) :=
  match wholePart cs with
  | none => none
  | some (ds, '.' :: rest) =>
    match digits Char.isDigit rest with
    | none => none
    | some (places, rest) =>
      match exponent rest with
      | none => none
      | some (e, rest) =>
        (realOf isNegative (Decimal.nearest (digitsValue 10 (ds ++ places)) (e - places.length))).map fun v =>
          (v, rest)
  | some (ds, c :: rest) =>
    if c = 'e' ∨ c = 'E' then
      match exponent (c :: rest) with
      | none => none
      | some (e, rest) => (realOf isNegative (Decimal.nearest (digitsValue 10 ds) e)).map fun v => (v, rest)
    else (ofWhole ds).map fun v => (v, c :: rest)
  | some (ds, []) => (ofWhole ds).map fun v => (v, [])
where
  ofWhole (ds : List Char) : Option Toml :=
    wholeOf (if isNegative then -(digitsValue 10 ds : Int) else digitsValue 10 ds)

def number (cs : List Char) : Option (Toml × List Char) :=
  match cs with
  | '0' :: 'x' :: rest => based 16 (fun c => (Bytes.hexValue? c).isSome) rest
  | '0' :: 'o' :: rest => based 8 (fun c => '0' ≤ c && c ≤ '7') rest
  | '0' :: 'b' :: rest => based 2 (fun c => c = '0' || c = '1') rest
  | cs =>
    let (isNegative, rest) := signed cs
    let mark (x : Float) : Toml := .real (if isNegative then -x else x)
    match rest with
    | 'i' :: 'n' :: 'f' :: rest => some (mark (1.0 / 0.0), rest)
    | 'n' :: 'a' :: 'n' :: rest => some (mark (0.0 / 0.0), rest)
    | rest => decimal isNegative rest

/-! ### Dates and times -/

/-- A number of so many digits within bounds. -/
def field (size low high : Nat) (cs : List Char) : Option (Nat × List Char) :=
  let text := cs.take size
  let n := digitsValue 10 text
  if text.length = size ∧ text.all Char.isDigit ∧ low ≤ n ∧ n ≤ high then some (n, cs.drop size) else none

def isLeap (year : Nat) : Bool := year % 4 = 0 && (year % 100 ≠ 0 || year % 400 = 0)

def daysOf (year month : Nat) : Nat :=
  if month = 2 then (if isLeap year then 29 else 28)
  else if month = 4 ∨ month = 6 ∨ month = 9 ∨ month = 11 then 30
  else 31

/-- What follows a date. -/
def date (cs : List Char) : Option (List Char) :=
  match field 4 0 9999 cs with
  | some (year, '-' :: rest) =>
    match field 2 1 12 rest with
    | some (month, '-' :: rest) => (field 2 1 (daysOf year month) rest).map Prod.snd
    | _ => none
  | _ => none

/-- What follows a time of day. -/
def timeOfDay (cs : List Char) : Option (List Char) :=
  match field 2 0 23 cs with
  | some (_, ':' :: rest) =>
    match field 2 0 59 rest with
    | some (_, ':' :: rest) =>
      match field 2 0 60 rest with
      | some (_, '.' :: c :: rest) =>
        if c.isDigit then some (rest.dropWhile Char.isDigit) else some ('.' :: c :: rest)
      | some (_, rest) => some rest
      | none => none
    | _ => none
  | _ => none

/-- What follows an offset from universal time, if there is one. -/
def offset (cs : List Char) : Option (List Char) :=
  match cs with
  | c :: rest =>
    if c = 'Z' ∨ c = 'z' then some rest
    else if c = '+' ∨ c = '-' then
      match field 2 0 23 rest with
      | some (_, ':' :: rest) => (field 2 0 59 rest).map Prod.snd
      | _ => none
    else some (c :: rest)
  | [] => some []

/-- What follows the time behind a date, if there is one. -/
def timeAfterDate (cs : List Char) : Option (List Char) :=
  match cs with
  | c :: rest =>
    if c = 'T' ∨ c = 't' ∨ c = ' ' then
      match timeOfDay rest with
      | some rest => offset rest
      | none => some (c :: rest)
    else some (c :: rest)
  | [] => some []

/-- A date, a time of day, or a date with a time. -/
def momentOf (cs : List Char) : Option (Toml × List Char) :=
  let after :=
    match date cs with
    | some rest => timeAfterDate rest
    | none => timeOfDay cs
  after.map fun rest => (.moment (String.ofList (cs.take (cs.length - rest.length))), rest)

end Screencast.Toml
