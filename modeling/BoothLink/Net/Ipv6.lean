import BoothLink.Net.Ipv4

/-!
# Addresses of sixteen octets

An address is eight groups of sixteen bits, written in hexadecimal with colons between them. The first
of the longest runs of two or more zero groups is written as two colons. An address that stands for
one of four octets shows that one in dotted form at its end; on reading, any address may end so.

* `Ipv6`, `Ipv6.text`, `Ipv6.read?`, `Ipv6.parse?`.
-/

namespace BoothLink

/-- An address of eight groups. -/
structure Ipv6 where
  groups : List UInt16
  length_eq : groups.length = 8
  deriving DecidableEq

namespace Ipv6

/-! ## Writing -/

/-- The length of the run of zeros at the front. -/
def zeros (gs : List UInt16) : Nat := (gs.takeWhile (· = 0)).length

/-- The start and the length of the first longest run of zeros. -/
def longestRun (gs : List UInt16) : Nat × Nat :=
  (List.range gs.length).foldl (fun best start =>
    let n := zeros (gs.drop start)
    if best.2 < n then (start, n) else best) (0, 0)

/-- Groups in hexadecimal with colons between them. -/
def groupsText (gs : List UInt16) : List Char :=
  List.intercalate [':'] (gs.map fun g => Nat.toDigits 16 g.toNat)

/-- The address of four octets that an address stands for. -/
def mapped? (a : Ipv6) : Option Ipv4 :=
  match a.groups with
  | [0, 0, 0, 0, 0, 0xFFFF, high, low] =>
    some ⟨UInt32.ofNat (high.toNat * 65536 + low.toNat)⟩
  | _ => none

def text (a : Ipv6) : String :=
  match a.mapped? with
  | some four => "::ffff:" ++ four.text
  | none =>
    let (start, length) := longestRun a.groups
    if 1 < length then
      String.ofList (groupsText (a.groups.take start) ++ ':' :: ':' ::
        groupsText (a.groups.drop (start + length)))
    else String.ofList (groupsText a.groups)

/-! ## Reading -/

def hexDigit? (c : Char) : Option Nat :=
  if c.isDigit then some (c.toNat - 48)
  else if 'a' ≤ c ∧ c ≤ 'f' then some (c.toNat - 87)
  else if 'A' ≤ c ∧ c ≤ 'F' then some (c.toNat - 55)
  else none

/-- Reads a group: one to four hexadecimal digits. -/
def readGroup? (cs : List Char) : Option (UInt16 × List Char) :=
  let digits := (cs.takeWhile fun c => (hexDigit? c).isSome).filterMap hexDigit?
  if digits.isEmpty || 4 < digits.length then none
  else some (UInt16.ofNat (digits.foldl (fun n d => n * 16 + d) 0), cs.drop digits.length)

/-- What stands before a group: a colon, except in front of the first. -/
def separator? (first : Bool) (cs : List Char) : Option (List Char) :=
  if first then some cs
  else
    match cs with
    | ':' :: rest => some rest
    | _ => none

/-- Reads up to `room` groups, the last two of which may be in dotted form, onto those before. -/
def readGroups : (room : Nat) → (done : List UInt16) → List Char →
    List UInt16 × Bool × List Char
  | 0, done, cs => (done, false, cs)
  | room + 1, done, cs =>
    let ahead := separator? done.isEmpty cs
    let dotted := if room = 0 then none else ahead.bind Ipv4.read?
    match dotted with
    | some (a, rest) =>
      (done ++ [UInt16.ofNat (a.word.toNat / 65536), UInt16.ofNat a.word.toNat], true, rest)
    | none =>
      match ahead.bind readGroup? with
      | some (g, rest) => readGroups room (done ++ [g]) rest
      | none => (done, false, cs)

/-- The address with these groups, if they are eight. -/
def ofGroups? (gs : List UInt16) : Option Ipv6 :=
  if h : gs.length = 8 then some ⟨gs, h⟩ else none

/-- Reads an address. Two colons stand for at least one group of zero. -/
def read? (cs : List Char) : Option (Ipv6 × List Char) :=
  let (front, dotted, rest) := readGroups 8 [] cs
  if front.length = 8 then (ofGroups? front).map (·, rest)
  else if dotted then none
  else
    match rest with
    | ':' :: ':' :: rest =>
      let (back, _, rest) := readGroups (7 - front.length) [] rest
      let gap := List.replicate (8 - front.length - back.length) 0
      (ofGroups? (front ++ gap ++ back)).map (·, rest)
    | _ => none

def parse? (s : String) : Option Ipv6 :=
  match read? s.toList with
  | some (a, []) => some a
  | _ => none

end Ipv6

end BoothLink
