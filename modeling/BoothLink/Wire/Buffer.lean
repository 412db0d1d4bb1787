import BoothLink.Wire.Field

/-!
# Writing to a buffer

A buffer grows at its end. A write adds octets to it and may fail on the way; in both cases it says what
the buffer holds then, and what was added before a failure stays there. Who wants a buffer that failures
leave alone writes to another one first.

* `Buffer`, `Write`: a buffer, and what is done to it.
* `Write.put`, `Write.fail`, `Write.andThen`, `Write.each`: octets, a failure, and sequences.
* `Field.put`: a field.
-/

namespace BoothLink

/-- Octets that grow at their end. -/
abbrev Buffer := Array UInt8

/-- A write to a buffer: whether it fails, and what the buffer holds then. -/
def Write : Type := Buffer → Except WireError Unit × Buffer

namespace Write

def run (w : Write) (buffer : Buffer) : Except WireError Unit × Buffer := w buffer

/-- Adds nothing. -/
def done : Write := fun buffer => (.ok (), buffer)

/-- Adds octets. -/
def put (b : Octets) : Write := fun buffer => (.ok (), buffer ++ b)

/-- Fails with what the buffer holds. -/
def fail (e : WireError) : Write := fun buffer => (.error e, buffer)

/-- Goes on with another write unless the first one fails. -/
def andThen (w v : Write) : Write := fun buffer =>
  match w buffer with
  | (.ok (), buffer) => v buffer
  | (.error e, buffer) => (.error e, buffer)

/-- Writes one after the other, up to the first that fails. -/
def each : List Write → Write
  | [] => done
  | w :: ws => w.andThen (each ws)

theorem run_put (b : Octets) (buffer : Buffer) : (put b).run buffer = (.ok (), buffer ++ b) := rfl

theorem run_fail (e : WireError) (buffer : Buffer) : (fail e).run buffer = (.error e, buffer) := rfl

theorem run_andThen (w v : Write) (buffer : Buffer) :
    (w.andThen v).run buffer =
      match w.run buffer with
      | (.ok (), buffer) => v.run buffer
      | (.error e, buffer) => (.error e, buffer) := rfl

end Write

/-- Adds a field. The length of a text is looked at before any octet of it is added. -/
def Field.put (f : Field) : Write :=
  match f.write with
  | .ok b => Write.put b
  | .error e => Write.fail e

end BoothLink
