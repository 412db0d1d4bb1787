import BoothLink.Octets

/-!
# Reading TOML strings

A string stands between quotes or between apostrophes, one of them for a string on one line, three for
one that may go over several. Between quotes a backslash begins an escape; between apostrophes every
character stands for itself. On several lines, a line end right after the opening is dropped, a
backslash at the end of a line drops all blanks up to the next text, and one or two quotes (or
apostrophes) are text, at the very end as well.

* `Toml.Text.Mode`, `Toml.Text.quotedOnto`: reading between quotes.
* `Toml.Text.literalOnto`: reading between apostrophes.
* `Toml.Text.read?`: a string of any form, `Toml.Text.readLine?`: one on a single line.
-/

namespace BoothLink.Toml.Text

/-- The sign between which escapes are read, and the one between which they are not. -/
def quote : Char := '"'
def apostrophe : Char := '\x27'

/-- The characters between words. -/
def isSpace (c : Char) : Bool := c = ' ' || c = '\t'

/-- Whether a character may stand on a line: all but controls, of which only the tab may. -/
def isPlain (c : Char) : Bool := c = '\t' || (32 ≤ c.toNat && c.toNat ≠ 127)

/-- Whether a carriage return is the first half of a line end. -/
def endsLine (c : Char) (rest : List Char) : Bool := c = '\r' && rest.head? = some '\n'

/-- A text without the line end in front. -/
def dropLineEnd : List Char → List Char
  | '\n' :: rest => rest
  | '\r' :: '\n' :: rest => rest
  | cs => cs

/-- The character that a one-letter escape stands for. -/
def escaped? (c : Char) : Option Char :=
  if c = 'b' then some '\x08'
  else if c = 't' then some '\t'
  else if c = 'n' then some '\n'
  else if c = 'f' then some '\x0c'
  else if c = 'r' then some '\r'
  else if c = '"' then some '"'
  else if c = '\\' then some '\\'
  else none

/-- The character with a number; there is none for a surrogate or beyond the last. -/
def scalar? (n : Nat) : Option Char := if n.isValidChar then some (Char.ofNat n) else none

/-- A string on several lines that ends with these signs: those beyond three belong to it. -/
def closing (sign : Char) (done rest : List Char) : List Char × List Char :=
  match rest with
  | a :: b :: after =>
    if a = sign && b = sign then ((sign :: sign :: done).reverse, after)
    else if a = sign then ((sign :: done).reverse, b :: after)
    else (done.reverse, rest)
  | [a] => if a = sign then ((sign :: done).reverse, []) else (done.reverse, rest)
  | [] => (done.reverse, [])

/-- The text after two signs, if it begins with them. -/
def twoMore? (sign : Char) : List Char → Option (List Char)
  | a :: b :: after => if a = sign && b = sign then some after else none
  | _ => none

/-- What is expected next between quotes. -/
inductive Mode where
  /-- Text; blanks and line ends in front of it are dropped after a line that a backslash ended. -/
  | plain (trim : Bool)
  /-- What follows a backslash. -/
  | escape
  /-- So many more digits of an escape, those before having this value. -/
  | code (left value : Nat)
  /-- The end of a line, after a backslash and blanks. -/
  | lineEnd
  deriving DecidableEq, Repr

/-- Reads on between quotes, onto the text before, held in reverse, up to the closing quotes. -/
def quotedOnto (several : Bool) (mode : Mode) (done : List Char) :
    List Char → Option (List Char × List Char)
  | [] => none
  | c :: rest =>
    match mode with
    | .plain trim =>
      if trim && (isSpace c || c = '\n' || endsLine c rest) then
        quotedOnto several (.plain true) done rest
      else if c = quote then
        if several then
          match twoMore? quote rest with
          | some after => some (closing quote done after)
          | none => quotedOnto several (.plain false) (c :: done) rest
        else some (done.reverse, rest)
      else if c = '\\' then quotedOnto several .escape done rest
      else if isPlain c || (several && c = '\n') then
        quotedOnto several (.plain false) (c :: done) rest
      else if several && endsLine c rest then quotedOnto several (.plain false) done rest
      else none
    | .escape =>
      match escaped? c with
      | some d => quotedOnto several (.plain false) (d :: done) rest
      | none =>
        if c = 'u' then quotedOnto several (.code 4 0) done rest
        else if c = 'U' then quotedOnto several (.code 8 0) done rest
        else if several && c = '\n' then quotedOnto several (.plain true) done rest
        else if several && (isSpace c || endsLine c rest) then
          quotedOnto several .lineEnd done rest
        else none
    | .code left n =>
      match Octets.hexValue? c with
      | none => none
      | some d =>
        if left ≤ 1 then
          match scalar? (n * 16 + d) with
          | some e => quotedOnto several (.plain false) (e :: done) rest
          | none => none
        else quotedOnto several (.code (left - 1) (n * 16 + d)) done rest
    | .lineEnd =>
      if c = '\n' then quotedOnto several (.plain true) done rest
      else if isSpace c || endsLine c rest then quotedOnto several .lineEnd done rest
      else none

/-- Reads on between apostrophes, onto the text before, held in reverse. -/
def literalOnto (several : Bool) (done : List Char) : List Char → Option (List Char × List Char)
  | [] => none
  | c :: rest =>
    if c = apostrophe then
      if several then
        match twoMore? apostrophe rest with
        | some after => some (closing apostrophe done after)
        | none => literalOnto several (c :: done) rest
      else some (done.reverse, rest)
    else if isPlain c || (several && c = '\n') then literalOnto several (c :: done) rest
    else if several && endsLine c rest then literalOnto several done rest
    else none

/-- Reads a string on one line. -/
def readLine? : List Char → Option (String × List Char)
  | [] => none
  | c :: rest =>
    let read :=
      if c = quote then quotedOnto false (.plain false) [] rest
      else if c = apostrophe then literalOnto false [] rest
      else none
    read.map fun (s, rest) => (String.ofList s, rest)

/-- Reads a string of any form. -/
def read? : List Char → Option (String × List Char)
  | [] => none
  | c :: rest =>
    match twoMore? c rest with
    | none => readLine? (c :: rest)
    | some after =>
      let read :=
        if c = quote then quotedOnto true (.plain false) [] (dropLineEnd after)
        else if c = apostrophe then literalOnto true [] (dropLineEnd after)
        else none
      read.map fun (s, rest) => (String.ofList s, rest)

end BoothLink.Toml.Text
