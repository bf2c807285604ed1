import Screencast.Toml.Value

/-!
# Tables under construction

A document opens tables by headers and by dotted names, and no table may be opened twice. A
table is *written* once its own header or braces stood in the text, *implied* if so far only
headers of tables within it did, and *dotted* if it came about by a dotted name. A header
opens a table that is new or implied. A dotted name leads through tables that are not written
and ends in a new or a dotted one.
-/

namespace Screencast.Toml

inductive Origin where
  | written
  | implied
  | dotted
  deriving DecidableEq, Inhabited

/-- What stands under a name of a table under construction. -/
inductive Item where
  | value (v : Toml)
  | table (origin : Origin) (entries : List (String × Item))
  /-- Tables of one name, the latest first. -/
  | tables (all : List (List (String × Item)))
  deriving Inhabited

abbrev Entries := List (String × Item)

namespace Entries

def find? (es : Entries) (name : String) : Option Item := (es.lookup name)

/-- The entries with an item under a name, in the place of an older one. -/
def put (name : String) (item : Item) : Entries → Entries
  | [] => [(name, item)]
  | e :: rest => if e.1 = name then (name, item) :: rest else e :: put name item rest

/-- The entries with a value under a dotted name. -/
def assign (path : List String) (name : String) (v : Toml) (es : Entries) : Option Entries :=
  match path with
  | [] =>
    match es.find? name with
    | none => some (es.put name (.value v))
    | some _ => none
  | first :: path =>
    match es.find? first with
    | none => (assign path name v []).map fun inner => es.put first (.table .dotted inner)
    | some (.table origin inner) =>
      if origin = .written ∨ (path = [] ∧ origin ≠ .dotted) then none
      else (assign path name v inner).map fun inner => es.put first (.table origin inner)
    | some (.tables (latest :: older)) =>
      if path = [] then none
      else (assign path name v latest).map fun inner => es.put first (.tables (inner :: older))
    | some _ => none

/-- The entries with those of the table at a path changed; tables on the way are implied. -/
def within (path : List String) (change : Entries → Option Entries) (es : Entries) : Option Entries :=
  match path with
  | [] => change es
  | first :: path =>
    match es.find? first with
    | none => (within path change []).map fun inner => es.put first (.table .implied inner)
    | some (.table origin inner) =>
      (within path change inner).map fun inner => es.put first (.table origin inner)
    | some (.tables (latest :: older)) =>
      (within path change latest).map fun inner => es.put first (.tables (inner :: older))
    | some _ => none

/-- The entries once the header of a table is read. -/
def openTable (name : String) (es : Entries) : Option Entries :=
  match es.find? name with
  | none => some (es.put name (.table .written []))
  | some (.table .implied inner) => some (es.put name (.table .written inner))
  | some _ => none

/-- The entries once the header of one more table of a list is read. -/
def openListed (name : String) (es : Entries) : Option Entries :=
  match es.find? name with
  | none => some (es.put name (.tables [[]]))
  | some (.tables all) => some (es.put name (.tables ([] :: all)))
  | some _ => none

end Entries

mutual

def Item.finish : Item → Toml
  | .value v => v
  | .table _ entries => .table (finishEntries entries)
  | .tables all => .array (finishAll all [])

def finishEntries : List (String × Item) → List (String × Toml)
  | [] => []
  | (name, item) :: rest => (name, item.finish) :: finishEntries rest

/-- Tables of one name in the order of the text, in front of those given. -/
def finishAll : List (List (String × Item)) → List Toml → List Toml
  | [], later => later
  | entries :: older, later => finishAll older (.table (finishEntries entries) :: later)

end

end Screencast.Toml
