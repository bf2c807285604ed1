import Screencast.Bytes.Hex

/-!
# Names and texts in TOML

Blanks, ends of lines, comments, names and the four kinds of strings. A step takes the characters
that are left and gives what it read with the rest. A string between double quotes knows escapes,
one between single quotes is taken as it is; between three quotes of a kind it may go over lines,
and up to two quotes may stand before the closing three.
-/

namespace Screencast.Toml

abbrev Step (α : Type) := List Char → Option (α × List Char)

def isBlank (c : Char) : Bool := c = ' ' || c = '\t'

def skipBlanks (cs : List Char) : List Char := cs.dropWhile isBlank

/-- A character that may stand in a comment: a tab, or no control character below `U+0080`. -/
def isPrintable (c : Char) : Bool := c = '\t' || (0x20 ≤ c.toNat && c.toNat ≠ 0x7F)

/-- What follows the end of a line. -/
def newline : List Char → Option (List Char)
  | '\n' :: rest => some rest
  | '\r' :: '\n' :: rest => some rest
  | _ => none

/-- What follows blanks and ends of lines. -/
def skipLines : List Char → List Char
  | '\n' :: rest => skipLines rest
  | '\r' :: '\n' :: rest => skipLines rest
  | c :: rest => if isBlank c then skipLines rest else c :: rest
  | [] => []

/-- What follows blanks, ends of lines and comments. -/
def skipTrivia : (inComment : Bool) → List Char → List Char
  | _, '\n' :: rest => skipTrivia false rest
  | _, '\r' :: '\n' :: rest => skipTrivia false rest
  | true, c :: rest => if isPrintable c then skipTrivia true rest else c :: rest
  | false, c :: rest =>
    if isBlank c then skipTrivia false rest
    else if c = '#' then skipTrivia true rest
    else c :: rest
  | _, [] => []

/-- What follows a line on which nothing is left but blanks and a comment. -/
def endLine (cs : List Char) : Option (List Char) :=
  let rest :=
    match skipBlanks cs with
    | '#' :: rest => rest.dropWhile isPrintable
    | rest => rest
  if rest.isEmpty then some [] else newline rest

/-! ### Strings -/

/-- A character by so many hexadecimal digits. -/
def codePoint (size : Nat) (cs : List Char) : Option (Char × List Char) :=
  let text := cs.take size
  match text.mapM Bytes.hexValue? with
  | none => none
  | some values =>
    let n := values.foldl (fun n d => n * 16 + d) 0
    if text.length = size ∧ n.isValidChar then some (Char.ofNat n, cs.drop size) else none

/-- A character by its escape, the backslash left out. -/
def escaped : Step Char
  | 'b' :: rest => some ('\x08', rest)
  | 'f' :: rest => some ('\x0c', rest)
  | 'n' :: rest => some ('\n', rest)
  | 'r' :: rest => some ('\r', rest)
  | 't' :: rest => some ('\t', rest)
  | '"' :: rest => some ('"', rest)
  | '\\' :: rest => some ('\\', rest)
  | 'u' :: rest => codePoint 4 rest
  | 'U' :: rest => codePoint 8 rest
  | _ => none

/-- A string between double quotes, from behind the first; `seen` holds its characters so far,
the last first. -/
def basicFrom : (fuel : Nat) → (seen : List Char) → Step String
  | fuel + 1, seen, c :: rest =>
    if c = '"' then some (String.ofList seen.reverse, rest)
    else if c = '\\' then
      match escaped rest with
      | some (d, rest) => basicFrom fuel (d :: seen) rest
      | none => none
    else if isPrintable c then basicFrom fuel (c :: seen) rest
    else none
  | _, _, _ => none

def basicString (cs : List Char) : Option (String × List Char) := basicFrom (cs.length + 1) [] cs

/-- A string between single quotes, from behind the first. -/
def literalString (cs : List Char) : Option (String × List Char) :=
  let isInside (c : Char) : Bool := isPrintable c && c ≠ '\''
  match cs.dropWhile isInside with
  | '\'' :: rest => some (String.ofList (cs.takeWhile isInside), rest)
  | _ => none

/-- A string between three quotes, from behind the first three. -/
def longFrom (quote : Char) : (fuel : Nat) → (seen : List Char) → Step String
  | fuel + 1, seen, c :: rest =>
    if c = quote then
      let run := ((c :: rest).takeWhile fun d => d = quote).length
      if run < 3 then longFrom quote fuel (c :: seen) rest
      else
        let inside := min (run - 3) 2
        some (String.ofList (List.replicate inside quote ++ seen).reverse, (c :: rest).drop (inside + 3))
    else if c = '\\' ∧ quote = '"' then
      match newline (skipBlanks rest) with
      | some rest => longFrom quote fuel seen (skipLines rest)
      | none =>
        match escaped rest with
        | some (d, rest) => longFrom quote fuel (d :: seen) rest
        | none => none
    else
      match newline (c :: rest) with
      | some rest => longFrom quote fuel ('\n' :: seen) rest
      | none => if isPrintable c then longFrom quote fuel (c :: seen) rest else none
  | _, _, _ => none

/-- A string between three quotes; an end of line right behind the first three does not count. -/
def longString (quote : Char) (cs : List Char) : Option (String × List Char) :=
  longFrom quote (cs.length + 1) [] ((newline cs).getD cs)

/-! ### Names -/

def isBare (c : Char) : Bool := c.isAlphanum || c = '-' || c = '_'

def simpleName (cs : List Char) : Option (String × List Char) :=
  match cs with
  | '"' :: rest => basicString rest
  | '\'' :: rest => literalString rest
  | cs =>
    let name := cs.takeWhile isBare
    if name.isEmpty then none else some (String.ofList name, cs.dropWhile isBare)

/-- How deep values may be nested, and how many parts a name may have. -/
def nestingLimit : Nat := 79

/-- Parts of a name between points, up to `limit`: the last one, and those before it. -/
def dottedWithin (limit : Nat) (cs : List Char) : Option ((List String × String) × List Char) :=
  match limit with
  | 0 => none
  | limit + 1 =>
    match simpleName (skipBlanks cs) with
    | none => none
    | some (first, rest) =>
      match skipBlanks rest with
      | '.' :: rest =>
        (dottedWithin limit rest).map fun ((path, name), rest) => ((first :: path, name), rest)
      | rest => some (([], first), rest)

def dottedName : Step (List String × String) := dottedWithin nestingLimit

end Screencast.Toml
