import BoothLink.Json.Reader

/-!
# Passing over JSON values

A value that nobody asked for is passed over without being built. It may nest as deep as it likes, its
numbers may be of any size, and an escape need only have its four digits.

* `Json.Skip.value`: what follows a value.
-/

namespace BoothLink.Json.Skip

/-- Passes over a string after its opening quote. -/
def text : List Char → Except Fault (List Char)
  | [] => .error .cutShort
  | c :: rest =>
    if c = '"' then .ok rest
    else if c.toNat < 32 then .error .malformed
    else if c ≠ '\\' then text rest
    else
      match rest with
      | [] => .error .cutShort
      | e :: rest =>
        if (Text.escaped? e).isSome then text rest
        else if e ≠ 'u' then .error .malformed
        else
          match rest with
          | p :: q :: r :: s :: rest =>
            if (Text.unit? p q r s).isSome then text rest else .error .malformed
          | rest => .error (Text.shortUnit rest)

/-- Passes over digits, of which there has to be one. -/
def digits (cs : List Char) : Except Fault (List Char) :=
  if cs.head?.any Number.isDigit then .ok (cs.dropWhile Number.isDigit) else .error .malformed

/-- Passes over an exponent if there is one. -/
def exponent (cs : List Char) : Except Fault (List Char) :=
  match cs with
  | c :: rest =>
    if c = 'e' || c = 'E' then
      match rest with
      | '+' :: rest => digits rest
      | '-' :: rest => digits rest
      | rest => digits rest
    else .ok (c :: rest)
  | [] => .ok []

/-- Passes over a number after its sign. -/
def number (cs : List Char) : Except Fault (List Char) := do
  let rest ←
    match cs with
    | '0' :: rest => if rest.head?.any Number.isDigit then .error .malformed else .ok rest
    | cs => digits cs
  match rest with
  | '.' :: rest => exponent (← digits rest)
  | rest => exponent rest

/-- Passes over a key and the colon behind it. -/
def key (cs : List Char) : Except Fault (List Char) :=
  match cs with
  | [] => .error .cutShort
  | '"' :: rest => do
    match skipBlanks (← text rest) with
    | [] => .error .cutShort
    | ':' :: rest => .ok rest
    | _ => .error .malformed
  | _ => .error .malformed

mutual

/-- Passes over a value and what is still open around it, innermost first, each with the character
that closes it. -/
def value (steps : Nat) (around : List Char) (cs : List Char) : Except Fault (List Char) :=
  match steps with
  | 0 => .error .malformed
  | steps + 1 =>
    match skipBlanks cs with
    | [] => .error .cutShort
    | c :: rest =>
      if c = '[' then
        match skipBlanks rest with
        | ']' :: rest => after steps around rest
        | rest => value steps (']' :: around) rest
      else if c = '\x7b' then
        match skipBlanks rest with
        | '\x7d' :: rest => after steps around rest
        | rest =>
          match key rest with
          | .error e => .error e
          | .ok rest => value steps ('\x7d' :: around) rest
      else
        let passed :=
          if c = 'n' then Reader.word ['u', 'l', 'l'] rest
          else if c = 't' then Reader.word ['r', 'u', 'e'] rest
          else if c = 'f' then Reader.word ['a', 'l', 's', 'e'] rest
          else if c = '-' then number rest
          else if Number.isDigit c then number (c :: rest)
          else if c = '"' then text rest
          else .error .malformed
        match passed with
        | .error e => .error e
        | .ok rest => after steps around rest

/-- Passes over what follows a value in what is open around it. -/
def after (steps : Nat) (around : List Char) (cs : List Char) : Except Fault (List Char) :=
  match steps with
  | 0 => .error .malformed
  | steps + 1 =>
    match around with
    | [] => .ok cs
    | closing :: outer =>
      match skipBlanks cs with
      | [] => .error .cutShort
      | c :: rest =>
        if c = closing then after steps outer rest
        else if c ≠ ',' then .error .malformed
        else if closing = ']' then value steps around rest
        else
          match key (skipBlanks rest) with
          | .error e => .error e
          | .ok rest => value steps around rest

end

end BoothLink.Json.Skip
