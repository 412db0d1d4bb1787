import BoothLink.Json.Number
import BoothLink.Text.Utf16
import BoothLink.Text.Utf8

/-!
# Reading JSON

A text is read from the front, each part handing on what follows it. A fault says only whether the
text ended too early or went wrong before. Arrays and objects may nest 127 deep.

* `Json.Text.read`: a string after its opening quote.
* `Json.Reader.value`: a value at the front of a text.
* `Json.parse`: a text that is one value and nothing else.
-/

namespace BoothLink.Json

/-- The characters that may stand between the parts of a value. -/
def isBlank (c : Char) : Bool := c = ' ' || c = '\t' || c = '\n' || c = '\r'

/-- A text without the blanks in front. -/
def skipBlanks (cs : List Char) : List Char := cs.dropWhile isBlank

/-! ## Strings -/

namespace Text

/-- The character that a one-letter escape stands for. -/
def escaped? (c : Char) : Option Char :=
  if c = '"' then some '"'
  else if c = '\\' then some '\\'
  else if c = '/' then some '/'
  else if c = 'b' then some '\x08'
  else if c = 'f' then some '\x0c'
  else if c = 'n' then some '\n'
  else if c = 'r' then some '\r'
  else if c = 't' then some '\t'
  else none

/-- The unit that four hexadecimal digits stand for. -/
def unit? (a b c d : Char) : Option UInt16 := do
  let a ← Octets.hexValue? a
  let b ← Octets.hexValue? b
  let c ← Octets.hexValue? c
  let d ← Octets.hexValue? d
  return UInt16.ofNat (((a * 16 + b) * 16 + c) * 16 + d)

/-- The fault of an escape with fewer than four characters left: the text has ended, unless these are
at least four octets long and so no digits. -/
def shortUnit (rest : List Char) : Fault :=
  if 4 ≤ (Utf8.encode rest).length then .malformed else .cutShort

/-- Reads a string up to its closing quote, onto the characters before, held in reverse. -/
def readOnto (done : List Char) : List Char → Except Fault (List Char × List Char)
  | [] => .error .cutShort
  | c :: rest =>
    if c = '"' then .ok (done.reverse, rest)
    else if c.toNat < 32 then .error .malformed
    else if c ≠ '\\' then readOnto (c :: done) rest
    else
      match rest with
      | [] => .error .cutShort
      | e :: rest =>
        match escaped? e with
        | some c => readOnto (c :: done) rest
        | none =>
          if e ≠ 'u' then .error .malformed
          else
            match rest with
            | p :: q :: r :: s :: rest =>
              match unit? p q r s with
              | none => .error .malformed
              | some high =>
                if Utf16.isLow high then .error .malformed
                else if !Utf16.isHigh high then readOnto (Char.ofNat high.toNat :: done) rest
                else
                  match rest with
                  | [] => .error .cutShort
                  | b :: rest =>
                    if b ≠ '\\' then .error .malformed
                    else
                      match rest with
                      | [] => .error .cutShort
                      | u :: rest =>
                        if u ≠ 'u' then .error .malformed
                        else
                          match rest with
                          | p :: q :: r :: s :: rest =>
                            match unit? p q r s with
                            | none => .error .malformed
                            | some low =>
                              if Utf16.isLow low then readOnto (Utf16.pair high low :: done) rest
                              else .error .malformed
                          | rest => .error (shortUnit rest)
            | rest => .error (shortUnit rest)

/-- Reads a string after its opening quote. -/
def read (cs : List Char) : Except Fault (String × List Char) :=
  (readOnto [] cs).map fun (s, rest) => (String.ofList s, rest)

end Text

/-! ## Values -/

namespace Reader

/-- Reads the rest of a word such as `null`. -/
def word : List Char → List Char → Except Fault (List Char)
  | [], rest => .ok rest
  | _ :: _, [] => .error .cutShort
  | w :: ws, c :: rest => if c = w then word ws rest else .error .malformed

def depthLimit : Nat := 127

mutual

/-- Reads a value. `steps` bounds the recursion, `depth` the nesting still allowed. -/
def value (steps depth : Nat) (cs : List Char) : Except Fault (Json × List Char) :=
  match steps with
  | 0 => .error .malformed
  | steps + 1 =>
    match skipBlanks cs with
    | [] => .error .cutShort
    | c :: rest =>
      if c = 'n' then (word ['u', 'l', 'l'] rest).map (null, ·)
      else if c = 't' then (word ['r', 'u', 'e'] rest).map (bool true, ·)
      else if c = 'f' then (word ['a', 'l', 's', 'e'] rest).map (bool false, ·)
      else if c = '-' then Number.read true rest
      else if Number.isDigit c then Number.read false (c :: rest)
      else if c = '"' then (Text.read rest).map fun (s, rest) => (str s, rest)
      else if c = '[' then
        match depth with
        | 0 => .error .malformed
        | depth + 1 =>
          match skipBlanks rest with
          | [] => .error .cutShort
          | ']' :: rest => .ok (arr [], rest)
          | rest => items steps depth [] rest
      else if c = '\x7b' then
        match depth with
        | 0 => .error .malformed
        | depth + 1 =>
          match skipBlanks rest with
          | [] => .error .cutShort
          | '\x7d' :: rest => .ok (obj [], rest)
          | rest => fields steps depth [] rest
      else .error .malformed

/-- Reads the items of an array from an item on, onto those before, held in reverse. -/
def items (steps depth : Nat) (done : List Json) (cs : List Char) :
    Except Fault (Json × List Char) :=
  match steps with
  | 0 => .error .malformed
  | steps + 1 =>
    match value steps depth cs with
    | .error e => .error e
    | .ok (v, rest) =>
      match skipBlanks rest with
      | [] => .error .cutShort
      | ']' :: rest => .ok (arr (v :: done).reverse, rest)
      | ',' :: rest =>
        match skipBlanks rest with
        | [] => .error .cutShort
        | ']' :: _ => .error .malformed
        | rest => items steps depth (v :: done) rest
      | _ => .error .malformed

/-- Reads the fields of an object from a key on, into those before. -/
def fields (steps depth : Nat) (done : List (String × Json)) (cs : List Char) :
    Except Fault (Json × List Char) :=
  match steps with
  | 0 => .error .malformed
  | steps + 1 =>
    match cs with
    | '"' :: rest =>
      match Text.read rest with
      | .error e => .error e
      | .ok (k, rest) =>
        match skipBlanks rest with
        | [] => .error .cutShort
        | ':' :: rest =>
          match value steps depth rest with
          | .error e => .error e
          | .ok (v, rest) =>
            match skipBlanks rest with
            | [] => .error .cutShort
            | '\x7d' :: rest => .ok (obj (insert k v done), rest)
            | ',' :: rest =>
              match skipBlanks rest with
              | [] => .error .cutShort
              | rest => fields steps depth (insert k v done) rest
            | _ => .error .malformed
        | _ => .error .malformed
    | _ => .error .malformed

end

/-- Enough steps for any text: each one that does not end the reading takes a character. -/
def stepsFor (cs : List Char) : Nat := 2 * cs.length + 2

end Reader

/-- Only blanks may follow a value. -/
def ending {α : Type} (r : Except Fault (α × List Char)) : Except Fault α :=
  match r with
  | .error e => .error e
  | .ok (v, rest) => if (skipBlanks rest).isEmpty then .ok v else .error .malformed

def parse (s : String) : Except Fault Json :=
  let cs := s.toList
  ending (Reader.value (Reader.stepsFor cs) Reader.depthLimit cs)

end BoothLink.Json
