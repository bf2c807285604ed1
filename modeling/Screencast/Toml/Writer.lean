import Screencast.Decimal.Style
import Screencast.Json.Writer
import Screencast.Toml.Value

/-!
# Writing TOML

Sections of named values, a blank line between any two. Strings stand between double quotes,
with a quote, a backslash and control characters escaped.
-/

namespace Screencast.Toml

def escapeChar (c : Char) : String :=
  match c with
  | '"' => "\\\""
  | '\\' => "\\\\"
  | '\x08' => "\\b"
  | '\x0c' => "\\f"
  | '\n' => "\\n"
  | '\r' => "\\r"
  | '\t' => "\\t"
  | c => if c.toNat < 0x20 ∨ c.toNat = 0x7F then "\\u" ++ Json.hexFour c.toNat else c.toString

def quoted (s : String) : String := "\"" ++ s.foldl (fun acc c => acc ++ escapeChar c) "" ++ "\""

mutual

def write : Toml → String
  | string s => quoted s
  | integer n => toString n
  | real x => Decimal.write .toml x
  | bool b => toString b
  | moment text => text
  | array items => "[" ++ String.intercalate ", " (writeItems items) ++ "]"
  | table [] => "\x7b\x7d"
  | table (e :: rest) => "\x7b " ++ String.intercalate ", " (writeEntries (e :: rest)) ++ " \x7d"

def writeItems : List Toml → List String
  | [] => []
  | v :: rest => v.write :: writeItems rest

def writeEntries : List (String × Toml) → List String
  | [] => []
  | (name, v) :: rest => (quoted name ++ " = " ++ v.write) :: writeEntries rest

end

def writeSection (name : String) (entries : List (String × Toml)) : String :=
  "[" ++ name ++ "]\n" ++ String.join (entries.map fun (key, v) => key ++ " = " ++ v.write ++ "\n")

def writeSections (sections : List (String × List (String × Toml))) : String :=
  String.intercalate "\n" (sections.map fun (name, entries) => writeSection name entries)

end Screencast.Toml
