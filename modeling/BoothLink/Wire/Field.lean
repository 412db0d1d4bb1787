import BoothLink.Wire.Cursor

/-!
# Fields

A message is a row of typed fields, each with one form on the wire: numbers and doubles with the most
significant octet first, tokens as they are, texts behind the number of their octets in four octets.

* `Field`, `FieldType`: a value of one of eight types.
* `Field.write`, `Field.writeAll`: the octets; only a text too long for its length field has none.
* `FieldType.read`: the read that takes such a field off again.
* `FieldType.name`, `FieldType.ofName?`: the types by their names.
-/

namespace BoothLink

/-- A typed value on the wire. -/
inductive Field where
  | u16 (n : UInt16)
  | u32 (n : UInt32)
  | u64 (n : UInt64)
  | i64 (n : Int64)
  | f64 (x : Binary64)
  | token (t : Token)
  | utf16 (s : String)
  | utf8 (s : String)
  deriving DecidableEq

inductive FieldType where
  | u16 | u32 | u64 | i64 | f64 | token | utf16 | utf8
  deriving DecidableEq, Repr

namespace Field

def type : Field → FieldType
  | u16 _ => .u16
  | u32 _ => .u32
  | u64 _ => .u64
  | i64 _ => .i64
  | f64 _ => .f64
  | token _ => .token
  | utf16 _ => .utf16
  | utf8 _ => .utf8

/-- Octets behind their number. -/
def counted (raw : Octets) : Except WireError Octets :=
  let size := raw.length
  if lengthLimit < size then .error (.tooLarge size lengthLimit)
  else .ok (Octets.ofNat 4 size ++ raw)

def write : Field → Except WireError Octets
  | u16 n => .ok (Octets.ofNat 2 n.toNat)
  | u32 n => .ok (Octets.ofNat 4 n.toNat)
  | u64 n => .ok (Octets.ofNat 8 n.toNat)
  | i64 n => .ok (Octets.ofNat 8 n.toUInt64.toNat)
  | f64 x => .ok (Octets.ofNat 8 x.bits.toNat)
  | token t => .ok t.octets
  | utf16 s => counted (Utf16.encode s.toList)
  | utf8 s => counted (Utf8.encode s.toList)

/-- The octets of a row of fields; the first field that has none decides. -/
def writeAll : List Field → Except WireError Octets
  | [] => .ok []
  | f :: rest =>
    match f.write with
    | .error e => .error e
    | .ok b =>
      match writeAll rest with
      | .error e => .error e
      | .ok more => .ok (b ++ more)

@[simp] theorem writeAll_nil : writeAll [] = .ok [] := rfl

theorem writeAll_cons {f : Field} {rest : List Field} {b more : Octets} (hf : f.write = .ok b)
    (hr : writeAll rest = .ok more) : writeAll (f :: rest) = .ok (b ++ more) := by
  simp only [writeAll, hf, hr]

/-- Rows of fields are written one after the other. -/
theorem writeAll_append {fs gs : List Field} {b c : Octets} (hf : writeAll fs = .ok b)
    (hg : writeAll gs = .ok c) : writeAll (fs ++ gs) = .ok (b ++ c) := by
  induction fs generalizing b with
  | nil => cases hf; simpa using hg
  | cons f fs ih =>
    simp only [writeAll] at hf
    split at hf
    · cases hf
    · next x hx =>
      split at hf
      · cases hf
      · next y hy =>
        cases hf
        rw [List.cons_append, writeAll_cons hx (ih hy), List.append_assoc]

end Field

namespace FieldType

def all : List FieldType := [u16, u32, u64, i64, f64, token, utf16, utf8]

def name : FieldType → String
  | u16 => "u16"
  | u32 => "u32"
  | u64 => "u64"
  | i64 => "i64"
  | f64 => "f64"
  | token => "token"
  | utf16 => "utf16"
  | utf8 => "utf8"

def ofName? (s : String) : Option FieldType := all.find? (·.name = s)

def read : FieldType → Read Field
  | u16 => return .u16 (← Read.u16)
  | u32 => return .u32 (← Read.u32)
  | u64 => return .u64 (← Read.u64)
  | i64 => return .i64 (← Read.i64)
  | f64 => return .f64 (← Read.f64)
  | token => return .token (← Read.token)
  | utf16 => return .utf16 (← Read.utf16)
  | utf8 => return .utf8 (← Read.utf8)

end FieldType

end BoothLink
