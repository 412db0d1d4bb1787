import BoothLink.Decimal.Binary64
import BoothLink.Toml.Moment

/-!
# TOML values

Settings are kept in a TOML file.

* `Toml`: the values; a file as a whole is a table.
* `Toml.intLimit`: whole numbers have 64 bits.
-/

namespace BoothLink

inductive Toml where
  | text (s : String)
  | int (n : Int)
  | real (x : Binary64)
  | flag (b : Bool)
  | moment (m : Moment)
  | list (items : List Toml)
  /-- Each key stands once. -/
  | table (fields : List (String × Toml))
  deriving Repr, Inhabited, BEq

namespace Toml

/-- The bound of whole numbers; the least one is its negative. -/
def intLimit : Nat := Nat.pow 2 63

/-- Whether a whole number can be a value. -/
def fits (n : Int) : Bool := -(intLimit : Int) ≤ n && n < intLimit

end Toml

end BoothLink
