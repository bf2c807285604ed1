import Screencast.Settings.Document
import Screencast.Toml.Value

/-!
# Settings in TOML

A group is a table or an array. Of a table unknown names are passed over; an array may stop early,
and what it has beyond the fields is passed over; a date or time is a group of no fields at all.
A real number may be written as a whole one.
An alternative is its name, or a table of that name alone that holds nothing.
-/

namespace Screencast.Toml

def flag : Toml → Option Bool
  | bool b => some b
  | _ => none

/-- A whole number from zero to the bound. -/
def wholeUpTo (bound : Nat) : Toml → Option Nat
  | integer n => if 0 ≤ n ∧ n ≤ bound then some n.toNat else none
  | _ => none

def number? : Toml → Option Float
  | real x => some x
  | integer n => some (Float.ofInt n)
  | _ => none

def text : Toml → Option String
  | string s => some s
  | _ => none

def isHollow : Toml → Bool
  | array [] => true
  | table [] => true
  | _ => false

def choice : Toml → Option String
  | string s => some s
  | table [(name, v)] => if v.isHollow then some name else none
  | _ => none

def fields (names : List String) : Toml → Option (List (Option Toml))
  | table entries => some (names.map (valueOf? entries))
  | array items => some ((items.map some ++ List.replicate names.length none).take names.length)
  | moment _ => some (names.map fun _ => none)
  | _ => none

instance : Document Toml where
  flag := flag
  whole := wholeUpTo
  real := number?
  text := text
  choice := choice
  fields := fields

end Screencast.Toml
