import BoothLink.Token
import BoothLink.Text.Utf16
import BoothLink.Wire.Error

/-!
# Reading from received octets

A cursor stands in a list of octets. Every read either gives a value or fails, and in both cases says
where the cursor stands afterwards, so that reading can go on after a failure. A fixed-width read
that fails leaves the cursor alone; a text that is refused leaves it after the length, or after the
octets that were no text.

* `Cursor`: the number of octets passed and the octets ahead.
* `Read`: a read, with its sequencing.
* `Read.take`, `Read.expect` and the typed reads.
* **`take_run`**: what taking octets does, from which every other read is built.
-/

namespace BoothLink

/-- A place in received octets. -/
structure Cursor where
  position : Nat
  ahead : Octets
  deriving DecidableEq, Repr

namespace Cursor

/-- The cursor in front of all octets. -/
def start (b : Octets) : Cursor := ⟨0, b⟩

def remaining (c : Cursor) : Nat := c.ahead.length

@[simp] theorem remaining_drop (position n : Nat) (b : Octets) :
    (mk position (b.drop n)).remaining = b.length - n := List.length_drop

end Cursor

/-- A read from a cursor: a value or an error, and where the cursor stands then. -/
def Read (α : Type) : Type := Cursor → Except WireError α × Cursor

namespace Read

variable {α β : Type}

def run (r : Read α) (c : Cursor) : Except WireError α × Cursor := r c

/-- Gives a value and reads nothing. -/
def give (a : α) : Read α := fun c => (.ok a, c)

/-- Fails where the cursor stands. -/
def fail (e : WireError) : Read α := fun c => (.error e, c)

/-- Goes on with the value of a read, and stops at its error. -/
def andThen (r : Read α) (f : α → Read β) : Read β := fun c =>
  match r c with
  | (.ok a, c) => f a c
  | (.error e, c) => (.error e, c)

instance : Monad Read where
  pure := give
  bind := andThen

@[simp] theorem run_pure (a : α) (c : Cursor) : run (pure a : Read α) c = (.ok a, c) := rfl

@[simp] theorem run_give (a : α) (c : Cursor) : run (give a) c = (.ok a, c) := rfl

@[simp] theorem run_fail (e : WireError) (c : Cursor) : run (fail e : Read α) c = (.error e, c) := rfl

theorem run_bind (r : Read α) (f : α → Read β) (c : Cursor) :
    run (r >>= f) c =
      match run r c with
      | (.ok a, c) => run (f a) c
      | (.error e, c) => (.error e, c) := rfl

theorem run_bind_ok {r : Read α} {c c₁ : Cursor} {a : α} (h : run r c = (.ok a, c₁))
    (f : α → Read β) : run (r >>= f) c = run (f a) c₁ := by
  rw [run_bind, h]

theorem run_bind_error {r : Read α} {c c₁ : Cursor} {e : WireError} (h : run r c = (.error e, c₁))
    (f : α → Read β) : run (r >>= f) c = (.error e, c₁) := by
  rw [run_bind, h]

/-- The octets ahead, without reading them. -/
def ahead : Read Octets := fun c => (.ok c.ahead, c)

/-! ## Octets -/

def take (n : Nat) : Read Octets := fun c =>
  let front := c.ahead.take n
  if front.length < n then (.error .truncated, c)
  else (.ok front, ⟨c.position + n, c.ahead.drop n⟩)

/-- **Taking octets succeeds exactly if there are enough.** -/
theorem take_run (n : Nat) (c : Cursor) :
    run (take n) c =
      if n ≤ c.remaining then (.ok (c.ahead.take n), ⟨c.position + n, c.ahead.drop n⟩)
      else (.error .truncated, c) := by
  by_cases h : n ≤ c.remaining
  · have hn : ¬ (c.ahead.take n).length < n := by
      simp only [List.length_take, Cursor.remaining] at *; omega
    simp only [run, take, if_neg hn, if_pos h]
  · have hn : (c.ahead.take n).length < n := by
      simp only [List.length_take, Cursor.remaining] at *; omega
    simp only [run, take, if_pos hn, if_neg h]

/-- Takes as many octets as expected and compares them. -/
def expect (magic : Octets) : Read Unit := do
  let found ← take magic.length
  if found = magic then pure () else fail (.invalidMagic magic found)

/-! ## Typed reads -/

/-- Reads a number of so many octets. -/
def number (width : Nat) : Read Nat := do
  return Octets.value (← take width)

def u16 : Read UInt16 := do return UInt16.ofNat (← number 2)

def u32 : Read UInt32 := do return UInt32.ofNat (← number 4)

def u64 : Read UInt64 := do return UInt64.ofNat (← number 8)

def i64 : Read Int64 := do return (← u64).toInt64

def f64 : Read Binary64 := do return ⟨← u64⟩

def token : Read Token := do
  match Token.ofOctets? (← take Token.width) with
  | some t => pure t
  | none => fail .truncated

/-- Reads the octets of a text or frame behind their number, which may not pass the limit. -/
def counted : Read Octets := do
  let size ← number 4
  if frameLimit < size then fail (.tooLarge size frameLimit) else take size

/-- The text in sixteen-bit units that octets are. -/
def textOfUnits (raw : Octets) : Except TextFault String :=
  if raw.length % 2 ≠ 0 then .error (.oddLength raw.length)
  else
    match Utf16.decode? raw with
    | some s => .ok (String.ofList s)
    | none => .error .loneSurrogate

/-- The text in octets that octets are. -/
def textOfOctets (raw : Octets) : Except TextFault String :=
  match Utf8.decode raw with
  | .ok s => .ok (String.ofList s)
  | .error fault => .error (.malformedOctets fault)

/-- Gives the text or fails with its fault. -/
def checked (r : Except TextFault String) : Read String :=
  match r with
  | .ok s => give s
  | .error fault => fail (.encoding fault)

/-- Reads a text in sixteen-bit units. -/
def utf16 : Read String := do checked (textOfUnits (← counted))

/-- Reads a text in octets. -/
def utf8 : Read String := do checked (textOfOctets (← counted))

end Read

end BoothLink
