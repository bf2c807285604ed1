import Screencast.Decimal.Style
import Screencast.Json.Value

/-!
# Writing JSON

One line without blanks. A quote, a backslash and control characters are escaped, all else is
written as it is; a value that is no number is `null`.
-/

namespace Screencast.Json

def hexFour (n : Nat) : String :=
  let text := digits n
  String.ofList (List.replicate (4 - text.length) '0' ++ text)
where
  digits (n : Nat) : List Char := Nat.toDigits 16 n

def escapeChar (c : Char) : String :=
  match c with
  | '"' => "\\\""
  | '\\' => "\\\\"
  | '\x08' => "\\b"
  | '\x0c' => "\\f"
  | '\n' => "\\n"
  | '\r' => "\\r"
  | '\t' => "\\t"
  | c => if c.toNat < 0x20 then "\\u" ++ hexFour c.toNat else c.toString

def quoted (s : String) : String := "\"" ++ s.foldl (fun acc c => acc ++ escapeChar c) "" ++ "\""

def numberText : JsonNumber → String
  | .natural n => toString n
  | .negative n => "-" ++ toString n
  | .real x => Decimal.write .json x
  | .outOfRange => "null"

mutual

def write : Json → String
  | null => "null"
  | bool b => if b then "true" else "false"
  | number n => numberText n
  | string text => quoted (text.getD "")
  | array items => "[" ++ String.intercalate "," (writeItems items) ++ "]"
  | object members => "\x7b" ++ String.intercalate "," (writeMembers members) ++ "\x7d"

def writeItems : List Json → List String
  | [] => []
  | v :: rest => write v :: writeItems rest

def writeMembers : List (Option String × Json) → List String
  | [] => []
  | (name, v) :: rest => (quoted (name.getD "") ++ ":" ++ write v) :: writeMembers rest

end

/-! ### Building values -/

def ofNat (n : Nat) : Json := number (.natural n)

def ofInt (n : Int) : Json := if n < 0 then number (.negative n.natAbs) else number (.natural n.toNat)

def ofFloat (x : Float) : Json := number (.real x)

def ofString (s : String) : Json := string (some s)

def ofMembers (members : List (String × Json)) : Json :=
  object (members.map fun (name, v) => (some name, v))

end Screencast.Json
