import Screencast.Bytes.Hex
import Screencast.Json.Value

/-!
# Reading JSON

`Json.parse` reads one value with blanks around it and nothing after it. Each step takes the
text that is left and gives what it read with the rest; `fuel` bounds the depth and is the
length of the text behind `parse`.
-/

namespace Screencast.Json

def isBlank (c : Char) : Bool := c = ' ' || c = '\n' || c = '\t' || c = '\r'

def skipBlanks (cs : List Char) : List Char := cs.dropWhile isBlank

def hexQuad : List Char → Option (Nat × List Char)
  | a :: b :: c :: d :: rest => do
    return (((← Bytes.hexValue? a) * 4096 + (← Bytes.hexValue? b) * 256 + (← Bytes.hexValue? c) * 16 + (← Bytes.hexValue? d)), rest)
  | _ => none

/-- What an escape of one letter stands for. -/
def shortEscape (c : Char) : Option Char :=
  match c with
  | '"' => some '"'
  | '\\' => some '\\'
  | '/' => some '/'
  | 'b' => some '\x08'
  | 'f' => some '\x0c'
  | 'n' => some '\n'
  | 'r' => some '\r'
  | 't' => some '\t'
  | _ => none

/-- The second half of a character outside the basic plane. -/
def lowHalf : List Char → Option (Nat × List Char)
  | '\\' :: 'u' :: rest =>
    match hexQuad rest with
    | some (n, rest) => if 0xDC00 ≤ n ∧ n ≤ 0xDFFF then some (n, rest) else none
    | none => none
  | _ => none

/-- A string after its opening quote; `seen` holds the characters so far, last first, or
nothing once half a character has been met. -/
def stringFrom : (fuel : Nat) → List Char → Option (List Char) → Option (Option String × List Char)
  | 0, _, _ => none
  | _ + 1, [], _ => none
  | _ + 1, '"' :: rest, seen => some (seen.map fun s => String.ofList s.reverse, rest)
  | fuel + 1, '\\' :: 'u' :: rest, seen =>
    match hexQuad rest with
    | none => none
    | some (n, rest) =>
      if 0xD800 ≤ n ∧ n ≤ 0xDBFF then
        match lowHalf rest with
        | some (low, rest) =>
          stringFrom fuel rest (seen.map (Char.ofNat (0x10000 + (n - 0xD800) * 1024 + (low - 0xDC00)) :: ·))
        | none => stringFrom fuel rest none
      else if 0xDC00 ≤ n ∧ n ≤ 0xDFFF then stringFrom fuel rest none
      else stringFrom fuel rest (seen.map (Char.ofNat n :: ·))
  | fuel + 1, '\\' :: c :: rest, seen =>
    match shortEscape c with
    | some d => stringFrom fuel rest (seen.map (d :: ·))
    | none => none
  | _ + 1, ['\\'], _ => none
  | fuel + 1, c :: rest, seen =>
    if c.toNat < 0x20 then none else stringFrom fuel rest (seen.map (c :: ·))

def digit (c : Char) : Option Nat := if c.isDigit then some (c.toNat - '0'.toNat) else none

/-- Digits taken into `n` while the result fits 64 bits; the count of those taken and of those
left out, and the rest. Once one is left out, so are all after it. -/
def digitsInto : List Char → (n taken dropped : Nat) → Nat × Nat × Nat × List Char
  | c :: rest, n, taken, dropped =>
    match digit c with
    | some d =>
      if dropped = 0 ∧ n * 10 + d < 2 ^ 64 then digitsInto rest (n * 10 + d) (taken + 1) 0
      else digitsInto rest n taken (dropped + 1)
    | none => (n, taken, dropped, c :: rest)
  | [], n, taken, dropped => (n, taken, dropped, [])

def exponentPart (cs : List Char) : Option (Int × List Char) :=
  let (isNegative, digits) :=
    match cs with
    | '+' :: rest => (false, rest)
    | '-' :: rest => (true, rest)
    | _ => (false, cs)
  let text := digits.takeWhile Char.isDigit
  if text.isEmpty then none
  else
    let size := min (text.foldl (fun n c => n * 10 + (c.toNat - '0'.toNat)) 0) 1000000
    some (if isNegative then -(size : Int) else size, digits.dropWhile Char.isDigit)

/-- A number from the significand on; what follows its digits decides its kind. -/
def numberTail (isNegative : Bool) (n dropped : Nat) (places : Int) (isWhole : Bool) (cs : List Char) :
    Option (JsonNumber × List Char) :=
  match cs with
  | 'e' :: rest | 'E' :: rest =>
    match exponentPart rest with
    | some (e, rest) => some (.ofScaled isNegative n (dropped + places + e), rest)
    | none => none
  | _ =>
    if isWhole then some (.ofWhole isNegative n dropped, cs)
    else some (.ofScaled isNegative n (dropped + places), cs)

def unsigned (isNegative : Bool) (cs : List Char) : Option (JsonNumber × List Char) :=
  let whole : Option (Nat × Nat × List Char) :=
    match cs with
    | '0' :: rest => if (rest.head?.map Char.isDigit).getD false then none else some (0, 0, rest)
    | c :: rest =>
      if c.isDigit then
        let (n, _, dropped, rest) := digitsInto (c :: rest) 0 0 0
        some (n, dropped, rest)
      else none
    | [] => none
  match whole with
  | none => none
  | some (n, dropped, '.' :: rest) =>
    if (rest.head?.map Char.isDigit).getD false then
      let (n, taken, _, rest) := digitsInto rest n 0 0
      numberTail isNegative n dropped (-(taken : Int)) false rest
    else none
  | some (n, dropped, rest) => numberTail isNegative n dropped 0 true rest

/-- The characters of `word`, and nothing else, in front. -/
def literal (word : List Char) (v : Json) (cs : List Char) : Option (Json × List Char) :=
  if cs.take word.length = word then some (v, cs.drop word.length) else none

mutual

/-- A value, blanks in front of it skipped. -/
def value : (fuel : Nat) → List Char → Option (Json × List Char)
  | 0, _ => none
  | fuel + 1, cs =>
    match skipBlanks cs with
    | '{' :: rest =>
      match skipBlanks rest with
      | '}' :: rest => some (.object [], rest)
      | rest => (members fuel rest).map fun (ms, rest) => (.object ms, rest)
    | '[' :: rest =>
      match skipBlanks rest with
      | ']' :: rest => some (.array [], rest)
      | rest => (items fuel rest).map fun (vs, rest) => (.array vs, rest)
    | '"' :: rest => (stringFrom (rest.length + 1) rest (some [])).map fun (s, rest) => (.string s, rest)
    | '-' :: rest => (unsigned true rest).map fun (n, rest) => (.number n, rest)
    | 't' :: rest => literal ['r', 'u', 'e'] (.bool true) rest
    | 'f' :: rest => literal ['a', 'l', 's', 'e'] (.bool false) rest
    | 'n' :: rest => literal ['u', 'l', 'l'] .null rest
    | cs => (unsigned false cs).map fun (n, rest) => (.number n, rest)

/-- The items of an array up to its end, at least one. -/
def items : (fuel : Nat) → List Char → Option (List Json × List Char)
  | 0, _ => none
  | fuel + 1, cs =>
    match value fuel cs with
    | none => none
    | some (v, rest) =>
      match skipBlanks rest with
      | ',' :: rest => (items fuel rest).map fun (vs, rest) => (v :: vs, rest)
      | ']' :: rest => some ([v], rest)
      | _ => none

/-- The members of an object up to its end, at least one. -/
def members : (fuel : Nat) → List Char → Option (List (Option String × Json) × List Char)
  | 0, _ => none
  | fuel + 1, cs =>
    match skipBlanks cs with
    | '"' :: rest =>
      match stringFrom (rest.length + 1) rest (some []) with
      | none => none
      | some (name, rest) =>
        match skipBlanks rest with
        | ':' :: rest =>
          match value fuel rest with
          | none => none
          | some (v, rest) =>
            match skipBlanks rest with
            | ',' :: rest => (members fuel rest).map fun (ms, rest) => ((name, v) :: ms, rest)
            | '}' :: rest => some ([(name, v)], rest)
            | _ => none
        | _ => none
    | _ => none

end

def parse (text : String) : Option Json :=
  let cs := text.toList
  match value (2 * cs.length + 2) cs with
  | some (v, rest) => if (skipBlanks rest).isEmpty then some v else none
  | none => none

end Screencast.Json
