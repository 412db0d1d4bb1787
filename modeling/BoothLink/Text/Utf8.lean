import BoothLink.Octets

/-!
# Text in octets

The variable-width encoding of text in one to four octets a character. A sequence is well formed if
it is the shortest one for its character and the character is no surrogate; the first octet says how
many follow, and bounds the second more narrowly than the others.

* `Utf8.encode`: the octets of a text.
* `Utf8.decode`: the text of octets, or where and how they first fail to be one.
* `Utf8.Fault.message`: the wording of such a failure.
-/

namespace BoothLink.Utf8

def encode (s : List Char) : Octets := s.flatMap String.utf8EncodeChar

/-- Why octets are no text. -/
inductive Fault where
  /-- After `index` good octets come `width` that begin no character. -/
  | malformed (width index : Nat)
  /-- After `index` good octets a character begins that the octets do not finish. -/
  | cutShort (index : Nat)
  deriving DecidableEq, Repr

def Fault.message : Fault → String
  | .malformed width index =>
    "invalid utf-8 sequence of " ++ toString width ++ " bytes from index " ++ toString index
  | .cutShort index => "incomplete utf-8 byte sequence from index " ++ toString index

/-- An octet that continues a character. -/
def isTail (o : UInt8) : Bool := 0x80 ≤ o && o ≤ 0xBF

/-- How many octets a character has, by its first one; zero if no character begins so. -/
def widthOf (o : UInt8) : Nat :=
  if o < 0x80 then 1
  else if o < 0xC2 then 0
  else if o < 0xE0 then 2
  else if o < 0xF0 then 3
  else if o < 0xF5 then 4
  else 0

/-- Whether the second octet may follow the first: it excludes longer forms, surrogates and numbers
above U+10FFFF. -/
def mayFollow (first second : UInt8) : Bool :=
  if first == 0xE0 then 0xA0 ≤ second && second ≤ 0xBF
  else if first == 0xED then 0x80 ≤ second && second ≤ 0x9F
  else if first == 0xF0 then 0x90 ≤ second && second ≤ 0xBF
  else if first == 0xF4 then 0x80 ≤ second && second ≤ 0x8F
  else isTail second

/-- The character that octets with these payloads stand for, the first payload first. -/
def join (payloads : List Nat) : Char :=
  Char.ofNat (payloads.foldl (fun n p => n * 64 + p) 0)

/-- The payload of a continuing octet. -/
def tail (o : UInt8) : Nat := o.toNat - 0x80

/-- The text of octets that start at `index`, put after what was read before, held in reverse. -/
def decodeOnto (index : Nat) (done : List Char) : Octets → Except Fault (List Char)
  | [] => .ok done.reverse
  | a :: rest =>
    match widthOf a, rest with
    | 1, rest => decodeOnto (index + 1) (join [a.toNat] :: done) rest
    | 0, _ => .error (.malformed 1 index)
    | _, [] => .error (.cutShort index)
    | width, b :: rest =>
      if !mayFollow a b then .error (.malformed 1 index)
      else if width = 2 then decodeOnto (index + 2) (join [a.toNat - 0xC0, tail b] :: done) rest
      else
        match rest with
        | [] => .error (.cutShort index)
        | c :: rest =>
          if !isTail c then .error (.malformed 2 index)
          else if width = 3 then
            decodeOnto (index + 3) (join [a.toNat - 0xE0, tail b, tail c] :: done) rest
          else
            match rest with
            | [] => .error (.cutShort index)
            | d :: rest =>
              if !isTail d then .error (.malformed 3 index)
              else decodeOnto (index + 4) (join [a.toNat - 0xF0, tail b, tail c, tail d] :: done) rest

def decode (b : Octets) : Except Fault (List Char) := decodeOnto 0 [] b

end BoothLink.Utf8
