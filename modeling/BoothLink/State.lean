import BoothLink.Json.Printer
import BoothLink.Json.Skip

/-!
# States

A state is a named value of a device, such as whether a deck plays. As a text it is a JSON object with
the two fields `name` and `value`; when it is read, other fields are passed over, and an array of a
name and a value will do as well.

* `State`, `State.json`, `State.text`.
* `State.parse`: the state that a text is.
-/

namespace BoothLink

/-- A named value of a device. -/
structure State where
  /-- The path of the state, such as `/Engine/Deck1/Play`. -/
  name : String
  value : Json
  deriving Repr, BEq

namespace State

open Json

def json (s : State) : Json := .obj [("name", .str s.name), ("value", s.value)]

def text (s : State) : String := s.json.print

/-! ## Reading -/

/-- The fault of a value that is not of the shape asked for. The value is looked at only as far as is
needed to tell what it is. -/
def unfit (cs : List Char) : Fault :=
  let found : Except Fault Unit :=
    match cs with
    | [] => .error .cutShort
    | c :: rest =>
      if c = 'n' then (Reader.word ['u', 'l', 'l'] rest).map fun _ => ()
      else if c = 't' then (Reader.word ['r', 'u', 'e'] rest).map fun _ => ()
      else if c = 'f' then (Reader.word ['a', 'l', 's', 'e'] rest).map fun _ => ()
      else if c = '-' then (Number.read true rest).map fun _ => ()
      else if Number.isDigit c then (Number.read false cs).map fun _ => ()
      else if c = '"' then (Text.read rest).map fun _ => ()
      else if c = '[' || c = '\x7b' then .ok ()
      else .error .malformed
  match found with
  | .ok () => .unfit
  | .error e => e

/-- Reads a string and nothing else. -/
def readString (cs : List Char) : Except Fault (String × List Char) :=
  match skipBlanks cs with
  | '"' :: rest => Text.read rest
  | cs => .error (unfit cs)

/-- Reads a value inside a state. -/
def readValue (cs : List Char) : Except Fault (Json × List Char) :=
  Reader.value (Reader.stepsFor cs) (Reader.depthLimit - 1) cs

/-- Reads a state as an array, after its bracket. -/
def readItems (cs : List Char) : Except Fault (State × List Char) :=
  match skipBlanks cs with
  | [] => .error .cutShort
  | ']' :: _ => .error .unfit
  | cs => do
    let (name, rest) ← readString cs
    match skipBlanks rest with
    | [] => .error .cutShort
    | ']' :: _ => .error .unfit
    | ',' :: rest =>
      match skipBlanks rest with
      | [] => .error .cutShort
      | ']' :: _ => .error .malformed
      | rest => do
        let (value, rest) ← readValue rest
        match skipBlanks rest with
        | [] => .error .cutShort
        | ']' :: rest => .ok (⟨name, value⟩, rest)
        | _ => .error .malformed
    | _ => .error .malformed

def colon (cs : List Char) : Except Fault (List Char) :=
  match skipBlanks cs with
  | [] => .error .cutShort
  | ':' :: rest => .ok rest
  | _ => .error .malformed

/-- The state of the fields that were there. -/
def ofFields (name : Option String) (value : Option Json) : Except Fault State :=
  match name, value with
  | some name, some value => .ok ⟨name, value⟩
  | _, _ => .error .unfit

/-- Reads a state as an object from a key on. Each of the two fields may be there once. -/
def readFields (steps : Nat) (name : Option String) (value : Option Json) (cs : List Char) :
    Except Fault (State × List Char) :=
  match steps with
  | 0 => .error .malformed
  | steps + 1 =>
    match cs with
    | '"' :: rest => do
      let (key, rest) ← Text.read rest
      let (name, value, rest) ←
        if key = "name" then
          if name.isSome then .error .unfit
          else do
            let (s, rest) ← readString (← colon rest)
            .ok (some s, value, rest)
        else if key = "value" then
          if value.isSome then .error .unfit
          else do
            let (v, rest) ← readValue (← colon rest)
            .ok (name, some v, rest)
        else do
          let rest ← colon rest
          .ok (name, value, ← Skip.value (Reader.stepsFor rest) [] rest)
      match skipBlanks rest with
      | [] => .error .cutShort
      | '\x7d' :: rest => (ofFields name value).map (·, rest)
      | ',' :: rest =>
        match skipBlanks rest with
        | [] => .error .cutShort
        | rest => readFields steps name value rest
      | _ => .error .malformed
    | _ => .error .malformed

def parse (s : String) : Except Fault State :=
  ending <|
    match skipBlanks s.toList with
    | [] => .error .cutShort
    | '[' :: rest => readItems rest
    | '\x7b' :: rest =>
      match skipBlanks rest with
      | [] => .error .cutShort
      | '\x7d' :: _ => .error .unfit
      | rest => readFields rest.length none none rest
    | cs => .error (unfit cs)

end State

end BoothLink
