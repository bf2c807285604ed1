/-!
# TOML values

A value as read. The entries of a table keep the order of the text, each name once.
-/

namespace Screencast

inductive Toml where
  | string (s : String)
  /-- Within 64 bits, sign included. -/
  | integer (n : Int)
  | real (x : Float)
  | bool (b : Bool)
  /-- A date, a time or both, as it was written. -/
  | moment (text : String)
  | array (items : List Toml)
  | table (entries : List (String × Toml))
  deriving Inhabited

/-- The value under a name of a table. -/
def Toml.valueOf? (entries : List (String × Toml)) (name : String) : Option Toml :=
  (entries.find? fun e => e.1 == name).map Prod.snd

end Screencast
