import Screencast.Toml.Number
import Screencast.Toml.Tables

/-!
# Reading TOML

`Toml.parse` reads a document: lines that assign a value to a name, headers that open a table,
blank lines and comments. A byte order mark in front is passed over. `fuel` bounds the
steps and comes from the length of the text; `depth` is how much deeper values may be nested.
-/

namespace Screencast.Toml

/-- The characters of `word` in front. -/
def literal (word : List Char) (v : Toml) (cs : List Char) : Option (Toml × List Char) :=
  if cs.take word.length = word then some (v, cs.drop word.length) else none

def asString (r : Option (String × List Char)) : Option (Toml × List Char) :=
  r.map fun (s, rest) => (.string s, rest)

mutual

def value : (fuel depth : Nat) → Step Toml
  | 0, _, _ => none
  | fuel + 1, depth, cs =>
    match cs with
    | '"' :: '"' :: '"' :: rest => asString (longString '"' rest)
    | '"' :: rest => asString (basicString rest)
    | '\'' :: '\'' :: '\'' :: rest => asString (longString '\'' rest)
    | '\'' :: rest => asString (literalString rest)
    | '[' :: rest =>
      match depth with
      | 0 => none
      | depth + 1 => (items fuel depth rest).map fun (vs, rest) => (.array vs, rest)
    | '{' :: rest =>
      match depth with
      | 0 => none
      | depth + 1 =>
        match skipBlanks rest with
        | '}' :: rest => some (.table [], rest)
        | rest => (pairs fuel depth [] rest).map fun (es, rest) => (.table (finishEntries es), rest)
    | 't' :: _ => literal ['t', 'r', 'u', 'e'] (.bool true) cs
    | 'f' :: _ => literal ['f', 'a', 'l', 's', 'e'] (.bool false) cs
    | cs => (momentOf cs).or (number cs)

/-- The items of an array up to its end. -/
def items : (fuel depth : Nat) → Step (List Toml)
  | 0, _, _ => none
  | fuel + 1, depth, cs =>
    match skipTrivia false cs with
    | ']' :: rest => some ([], rest)
    | cs =>
      match value fuel depth cs with
      | none => none
      | some (v, rest) =>
        match skipTrivia false rest with
        | ',' :: rest => (items fuel depth rest).map fun (vs, rest) => (v :: vs, rest)
        | ']' :: rest => some ([v], rest)
        | _ => none

/-- The entries of a table between braces up to its end, at least one, behind those given. -/
def pairs : (fuel depth : Nat) → Entries → Step Entries
  | 0, _, _, _ => none
  | fuel + 1, depth, es, cs =>
    match pair fuel depth es cs with
    | none => none
    | some (es, rest) =>
      match skipBlanks rest with
      | ',' :: rest => pairs fuel depth es rest
      | '}' :: rest => some (es, rest)
      | _ => none

/-- One entry: a name, an equals sign and a value. -/
def pair : (fuel depth : Nat) → Entries → Step Entries
  | 0, _, _, _ => none
  | fuel + 1, depth, es, cs =>
    match dottedName cs with
    | some ((path, name), '=' :: rest) =>
      match value fuel depth (skipBlanks rest) with
      | none => none
      | some (v, rest) => (es.assign path name v).map fun es => (es, rest)
    | _ => none

end

/-- What has been read of a document: its entries and the path of the table that is open. -/
structure Draft where
  root : Entries
  opened : List String

/-- The draft after a header, from behind its opening brackets. -/
def header (d : Draft) (isListed : Bool) (cs : List Char) : Option (Draft × List Char) :=
  match dottedName cs with
  | none => none
  | some ((path, name), rest) =>
    let after :=
      match isListed, rest with
      | false, ']' :: rest => some rest
      | true, ']' :: ']' :: rest => some rest
      | _, _ => none
    match after with
    | none => none
    | some rest =>
      (d.root.within path (if isListed then Entries.openListed name else Entries.openTable name)).map fun root =>
        (⟨root, path ++ [name]⟩, rest)

/-- The draft after an entry of the open table. -/
def line (d : Draft) (cs : List Char) : Option (Draft × List Char) :=
  match dottedName cs with
  | some ((path, name), '=' :: rest) =>
    match value (2 * rest.length + 2) nestingLimit (skipBlanks rest) with
    | none => none
    | some (v, rest) => (d.root.within d.opened (Entries.assign path name v)).map fun root => ({ d with root }, rest)
  | _ => none

/-- The entries of a document from here to its end. -/
def document : (fuel : Nat) → Draft → List Char → Option Entries
  | 0, _, _ => none
  | fuel + 1, d, cs =>
    match skipBlanks cs with
    | [] => some d.root
    | c :: rest =>
      let read :=
        if c = '#' ∨ c = '\n' ∨ c = '\r' then some (d, c :: rest)
        else if c = '[' then
          match rest with
          | '[' :: rest => header d true rest
          | rest => header d false rest
        else line d (c :: rest)
      match read with
      | none => none
      | some (d, rest) =>
        match endLine rest with
        | none => none
        | some rest => document fuel d rest

def parse (text : String) : Option Toml :=
  let cs :=
    match text.toList with
    | '\uFEFF' :: rest => rest
    | cs => cs
  (document (cs.length + 1) ⟨[], []⟩ cs).map fun es => .table (finishEntries es)

end Screencast.Toml
