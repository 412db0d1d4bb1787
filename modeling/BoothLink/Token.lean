import BoothLink.Octets

/-!
# Tokens

Every participant names itself by sixteen octets. The text form is their 32 hexadecimal digits in
lower case; on reading either case is taken and hyphens may stand anywhere. The token of sixteen
zeros stands for no token.

* `Token`, with its order octet by octet.
* `Token.text`, `Token.parse`: the text form and its reading.
-/

namespace BoothLink

/-- The identity of a participant. -/
structure Token where
  octets : Octets
  length_eq : octets.length = 16
  deriving DecidableEq

namespace Token

def width : Nat := 16

/-- The token that stands for none. -/
def zero : Token := ⟨List.replicate 16 0, rfl⟩

instance : Inhabited Token := ⟨zero⟩

/-- Whether this is the token that stands for none. -/
def isZero (t : Token) : Bool := t = zero

/-- This token, or a fresh one if it stands for none. -/
def orFresh (t fresh : Token) : Token := if t.isZero then fresh else t

/-- The token with these octets, if they are sixteen. -/
def ofOctets? (b : Octets) : Option Token :=
  if h : b.length = 16 then some ⟨b, h⟩ else none

/-- The first of two tokens by the first octet in which they differ. -/
def compareOctets : Octets → Octets → Ordering
  | [], [] => .eq
  | [], _ :: _ => .lt
  | _ :: _, [] => .gt
  | a :: as, b :: bs => if a < b then .lt else if b < a then .gt else compareOctets as bs

instance : Ord Token := ⟨fun a b => compareOctets a.octets b.octets⟩

instance : LT Token := ⟨fun a b => compare a b = .lt⟩

instance (a b : Token) : Decidable (a < b) := inferInstanceAs (Decidable (compare a b = .lt))

def text (t : Token) : String := t.octets.hex

instance : ToString Token := ⟨text⟩

/-- The form shown in diagnostics. -/
def debugText (t : Token) : String := "Token(" ++ t.text ++ ")"

structure ParseError where
  text : String
  deriving DecidableEq, Repr

/-- The wording of a text that is no token. -/
def ParseError.message (e : ParseError) : String :=
  "Invalid token '" ++ e.text ++ "': expected 32 hex digits"

/-- The token that a text names: what is left without hyphens has to be 32 digits. -/
def parse (s : String) : Except ParseError Token :=
  match (Octets.ofHex? (s.toList.filter (· ≠ '-'))).bind ofOctets? with
  | some t => .ok t
  | none => .error ⟨s⟩

end Token

end BoothLink
