import BoothLink.Toml.Number
import BoothLink.Toml.Text
import BoothLink.Toml.Tree

/-!
# Reading TOML files

A file is a sequence of lines: entries, headers of tables, blank lines and comments. An entry goes into
the table of the last header. Values may nest 79 deep, and dotted keys may have 79 parts.

* `Toml.Reader.value`: a value at the front of a text.
* `Toml.Line`, `Toml.Reader.line?`: a line at the front of a text.
* `Toml.Draft`, `Toml.Draft.add`: the tables after some lines.
* `Toml.parse`: the fields of the table that a text is.
-/

namespace BoothLink.Toml

namespace Reader

/-! ## Between values -/

/-- A text without the spaces and tabs in front. -/
def skipSpaces (cs : List Char) : List Char := cs.dropWhile Text.isSpace

/-- Ends a line: after spaces and a comment comes a line end or nothing. -/
def endLine (cs : List Char) : Option (List Char) :=
  let cs := skipSpaces cs
  let cs := if cs.head? = some '#' then cs.dropWhile Text.isPlain else cs
  match cs with
  | [] => some []
  | '\n' :: rest => some rest
  | '\r' :: '\n' :: rest => some rest
  | _ => none

/-- A text without the spaces, line ends and comments in front. -/
def skipLayout (comment : Bool) : List Char → List Char
  | [] => []
  | c :: rest =>
    if comment && Text.isPlain c then skipLayout true rest
    else if Text.isSpace c || c = '\n' || Text.endsLine c rest then skipLayout false rest
    else if c = '#' then skipLayout true rest
    else c :: rest

/-- The rest of a word such as `true`. -/
def word : List Char → List Char → Option (List Char)
  | [], rest => some rest
  | _ :: _, [] => none
  | w :: ws, c :: rest => if c = w then word ws rest else none

/-- A text behind a sign. -/
def sign (s : Char) : List Char → Option (List Char)
  | [] => none
  | c :: rest => if c = s then some rest else none

/-! ## Keys -/

/-- Whether a character may stand in a key without quotes. -/
def isKeyChar (c : Char) : Bool := c.isAlphanum || c = '_' || c = '-'

def keyPart? (cs : List Char) : Option (String × List Char) :=
  match cs with
  | [] => none
  | c :: _ =>
    if isKeyChar c then
      let name := cs.takeWhile isKeyChar
      some (String.ofList name, cs.drop name.length)
    else Text.readLine? cs

def partLimit : Nat := 79

/-- Reads a key of so many parts at most, with the spaces around its parts. -/
def key? : Nat → List Char → Option (Path × List Char)
  | 0, _ => none
  | left + 1, cs => do
    let (name, cs) ← keyPart? (skipSpaces cs)
    match skipSpaces cs with
    | '.' :: cs =>
      let (p, cs) ← key? left cs
      return ({ p with parents := name :: p.parents }, cs)
    | cs => return (⟨[], name⟩, cs)

/-! ## Values -/

/-- Reads a number, a date or a time. -/
def scalar? (cs : List Char) : Option (Toml × List Char) :=
  match Moment.read? cs with
  | some (m, rest) => some (moment m, rest)
  | none => Number.read? cs

/-- How deep lists and tables in braces may nest. -/
def depthLimit : Nat := 79

mutual

/-- Reads a value. `steps` bounds the recursion, `depth` the nesting still allowed. -/
def value (steps depth : Nat) (cs : List Char) : Option (Toml × List Char) :=
  match steps with
  | 0 => none
  | steps + 1 =>
    match cs with
    | [] => none
    | c :: rest =>
      if c = Text.quote || c = Text.apostrophe then (Text.read? cs).map fun (s, rest) => (text s, rest)
      else if c = '[' then
        match depth with
        | 0 => none
        | depth + 1 => items steps depth [] rest
      else if c = '\x7b' then
        match depth with
        | 0 => none
        | depth + 1 =>
          match skipSpaces rest with
          | '\x7d' :: rest => some (table [], rest)
          | rest => pairs steps depth [] rest
      else if c = 't' then (word ['r', 'u', 'e'] rest).map fun rest => (flag true, rest)
      else if c = 'f' then (word ['a', 'l', 's', 'e'] rest).map fun rest => (flag false, rest)
      else scalar? cs

/-- Reads the items of a list from an item or the end on, onto those before, held in reverse. A comma
may stand behind the last item. -/
def items (steps depth : Nat) (done : List Toml) (cs : List Char) : Option (Toml × List Char) :=
  match steps with
  | 0 => none
  | steps + 1 =>
    match skipLayout false cs with
    | ']' :: rest => some (list done.reverse, rest)
    | cs =>
      match value steps depth cs with
      | none => none
      | some (v, rest) =>
        match skipLayout false rest with
        | ']' :: rest => some (list (v :: done).reverse, rest)
        | ',' :: rest => items steps depth (v :: done) rest
        | _ => none

/-- Reads the entries of a table in braces from an entry on, into those before. -/
def pairs (steps depth : Nat) (done : Fields) (cs : List Char) : Option (Toml × List Char) :=
  match steps with
  | 0 => none
  | steps + 1 =>
    match key? partLimit cs with
    | some (p, '=' :: rest) =>
      match value steps depth (skipSpaces rest) with
      | none => none
      | some (v, rest) =>
        match addEntry p v .headed done, skipSpaces rest with
        | some done, '\x7d' :: rest => some (table (fieldValues done), rest)
        | some done, ',' :: rest => pairs steps depth done rest
        | _, _ => none
    | _ => none

end

end Reader

/-! ## Lines -/

/-- A line that says something. -/
inductive Line where
  | entry (p : Path) (v : Toml)
  /-- The header of a table. -/
  | header (p : Path)
  /-- The header of another table in a list of tables. -/
  | item (p : Path)

namespace Reader

/-- Reads the line at the front of a text; nothing stands for a blank line or a comment. -/
def line? (steps : Nat) (cs : List Char) : Option (Option Line × List Char) :=
  match skipSpaces cs with
  | [] => some (none, [])
  | '[' :: '[' :: cs => do
    let (p, cs) ← key? partLimit cs
    let cs ← (sign ']' cs).bind (sign ']')
    return (some (.item p), ← endLine cs)
  | '[' :: cs => do
    let (p, cs) ← key? partLimit cs
    let cs ← sign ']' cs
    return (some (.header p), ← endLine cs)
  | c :: cs =>
    if c = '#' || c = '\n' || c = '\r' then (endLine (c :: cs)).map fun rest => (none, rest)
    else do
      let (p, cs) ← key? partLimit (c :: cs)
      let cs ← sign '=' cs
      let (v, cs) ← value steps depthLimit (skipSpaces cs)
      return (some (.entry p v), ← endLine cs)

/-- Reads all lines of a text. -/
def lines? (steps : Nat) (cs : List Char) : Option (List Line) :=
  match steps, cs with
  | _, [] => some []
  | 0, _ :: _ => none
  | steps + 1, cs =>
    match line? steps cs with
    | none => none
    | some (found, rest) => (lines? steps rest).map fun more => found.toList ++ more

/-- Enough steps for any text: each one that does not end the reading takes a character. -/
def stepsFor (cs : List Char) : Nat := 2 * cs.length + 2

end Reader

/-! ## Files -/

/-- The tables after some lines of a file, and the one to which entries go. -/
structure Draft where
  root : Fields := []
  /-- The keys from the whole file to the current table. -/
  current : List String := []

/-- The tables after one more line. -/
def Draft.add (d : Draft) : Line → Option Draft
  | .entry p v => (within .implied (addEntry p v) d.current .headed d.root).map fun root =>
      { d with root }
  | .header p => (openTable p d.root).map fun root => ⟨root, p.parents ++ [p.last]⟩
  | .item p => (openItem p d.root).map fun root => ⟨root, p.parents ++ [p.last]⟩

/-- The mark that a text may begin with and that does not belong to it. -/
def byteOrderMark : Char := '\uFEFF'

/-- A text without its mark. -/
def dropMark (cs : List Char) : List Char :=
  match cs with
  | [] => []
  | c :: rest => if c = byteOrderMark then rest else cs

/-- The fields of the table that a text is. -/
def parse (s : String) : Option (List (String × Toml)) := do
  let cs := dropMark s.toList
  let lines ← Reader.lines? (Reader.stepsFor cs) cs
  let draft ← lines.foldlM Draft.add {}
  return fieldValues draft.root

end BoothLink.Toml
