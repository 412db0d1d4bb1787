import BoothLink.Decimal.Binary64

/-!
# JSON values

States travel as JSON texts. A value keeps whole numbers and doubles apart, and the fields of an
object are kept in the order of their keys with one value for each key.

* `Json`: the values.
* `Json.insert`, `Json.object`: an object from fields in any order, the last of two equal keys winning.
* `Json.Fault`, `Json.Fault.category`: why a text is no value.
-/

namespace BoothLink

inductive Json where
  | null
  | bool (b : Bool)
  /-- A number without point and exponent that fits 64 bits, unsigned or negative and signed. -/
  | int (n : Int)
  /-- Any other number. -/
  | float (x : Binary64)
  | str (s : String)
  | arr (items : List Json)
  /-- Fields in ascending order of their keys, each key once. -/
  | obj (fields : List (String × Json))
  deriving Repr, Inhabited, BEq

namespace Json

/-- Why a text is no value, or not the value that was asked for. -/
inductive Fault where
  /-- No continuation of what was read makes a value. -/
  | malformed
  /-- The text ends before the value does. -/
  | cutShort
  /-- It is a value, but of another shape than needed. -/
  | unfit
  deriving DecidableEq, Repr

/-- What a fault is a matter of. -/
def Fault.category : Fault → String
  | malformed => "syntax"
  | cutShort => "eof"
  | unfit => "data"

/-- A field put in its place; a field with the same key is replaced. -/
def insert (key : String) (v : Json) : List (String × Json) → List (String × Json)
  | [] => [(key, v)]
  | (k, w) :: rest =>
    if key < k then (key, v) :: (k, w) :: rest
    else if key = k then (key, v) :: rest
    else (k, w) :: insert key v rest

/-- The object with the given fields. -/
def object (fields : List (String × Json)) : Json :=
  obj (fields.foldl (fun done (k, v) => insert k v done) [])

end Json

end BoothLink
