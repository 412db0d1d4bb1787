import BoothLink.Proofs.Message.Written
import BoothLink.Proofs.Wire.Places

/-!
# Writing and reading in step

Fields are written one after the other to a buffer, and fields of their types are demanded of a cursor in the
same order, whatever stands behind them. It gives them back, and at each of them it stands where the buffer
ended when this field was written.

* `Field.demand`: what is demanded of a cursor to get a field back.
* `Cursor.after_written`: a cursor of which written fields are demanded stands behind their octets.
* **`Field.row_written_read`**: a row of fields is read again as it was written, in step with the writing.
-/

namespace BoothLink

@[simp] theorem Buffer.size_append (buffer : Buffer) (b : Octets) : (buffer ++ b).size = buffer.size + b.length := by
  rw [← Array.length_toList]
  simp

/-- Demands a field of the same type. -/
def Field.demand (f : Field) : Demand := .field f.type

namespace Cursor

variable {c c' : Cursor} {b : Octets} {f : Field} {fs : List Field}

theorem run_demand (hf : f.write = .ok b) (hfits : f.Fits) (hp : c.Passes b c') :
    Read.run f.demand.read c = (.ok (.field f), c') :=
  Demand.run_of_outcome hp (.field hf hfits)

/-- **A cursor passes the fields ahead when they are demanded.** -/
theorem after_written (hb : Field.writeAll fs = .ok b) (hfits : ∀ f ∈ fs, f.Fits) (hp : c.Passes b c') :
    c.after (fs.map Field.demand) = c' := by
  induction fs generalizing c b with
  | nil =>
    cases hb
    exact hp.eq_of_nil.symm
  | cons f fs ih =>
    obtain ⟨x, y, hx, hy, rfl⟩ := Field.writeAll_cons_inv hb
    obtain ⟨hf, hrest⟩ := List.forall_mem_cons.mp hfits
    obtain ⟨c₁, hfirst, hbehind⟩ := hp.split
    have hrun := run_demand hx hf hfirst
    have hafter := ih hy hrest hbehind
    rw [← hafter, List.map_cons, after, List.foldl_cons, hrun]
    rfl

end Cursor

namespace Field

variable {f : Field} {fs : List Field} {b : Octets}

theorem run_each (h : writeAll fs = .ok b) (buffer : Buffer) :
    (Write.each (fs.map put)).run buffer = (.ok (), buffer ++ b) := by
  have hwrites := writes_each fs
  rw [h] at hwrites
  exact hwrites buffer

theorem run_put (h : f.write = .ok b) (buffer : Buffer) : f.put.run buffer = (.ok (), buffer ++ b) := by
  have hwrites := f.writes_put
  rw [h] at hwrites
  exact hwrites buffer

/-- **A row of fields is read again as it was written, in step with the writing.** Fields whose texts are short
enough to be read can all be written to a buffer. Read by the row of their types from what is in the buffer and
any octets behind it, they are the same fields, and the octets behind are left. When the fields in front of one
of them have been demanded of a cursor, it stands at the length that the buffer had when they were written; when
this one is demanded, it gives it and stands at the length that the buffer had with it. -/
theorem row_written_read {fs : List Field} (hfits : ∀ f ∈ fs, f.Fits) (rest : Octets) :
    ∃ whole : Buffer, (Write.each (fs.map put)).run #[] = (.ok (), whole) ∧
      Read.run (FieldType.readRow (fs.map type)) (.start (whole.toList ++ rest)) =
        (.ok fs, ⟨whole.size, rest⟩) ∧
      ∀ before f behind, fs = before ++ f :: behind → ∃ (x y : Buffer) (c c' : Cursor),
        (Write.each (before.map put)).run #[] = (.ok (), x) ∧ f.put.run x = (.ok (), y) ∧
        (Cursor.start (whole.toList ++ rest)).after (before.map demand) = c ∧
        Read.run f.demand.read c = (.ok (.field f), c') ∧
        c.position = x.size ∧ c'.position = y.size := by
  obtain ⟨b, hb⟩ := exists_writeAll hfits
  refine ⟨#[] ++ b, run_each hb #[], ?_, ?_⟩
  · have hread := Read.takes_readRow hb hfits 0 rest
    simpa [Cursor.start] using hread
  · rintro before f behind rfl
    obtain ⟨x, y, hx, hy, rfl⟩ := writeAll_append_inv hb
    obtain ⟨m, z, hm, -, rfl⟩ := writeAll_cons_inv hy
    have hbefore : ∀ g ∈ before, g.Fits := fun g hg => hfits g (List.mem_append_left _ hg)
    have hf : f.Fits := hfits f (by simp)
    have hall : (Cursor.start (x ++ (m ++ z) ++ rest)).Passes (x ++ m) ⟨(x ++ m).length, z ++ rest⟩ := by
      constructor <;> simp [Cursor.start]
    obtain ⟨c, hpx, hpm⟩ := hall.split
    refine ⟨#[] ++ x, #[] ++ x ++ m, c, _, run_each hx _, run_put hm _, ?_, Cursor.run_demand hm hf hpm, ?_, ?_⟩
    · simpa using Cursor.after_written hx hbefore hpx
    · simp [hpx.position_eq, Cursor.start]
    · simp

/-- A number below zero behind a text with a pair of units and in front of one in octets. -/
theorem row_written_read_mixed :
    (∀ f ∈ [utf16 "deck 𝄞", i64 (-2), utf8 "é"], f.Fits) ∧
    ∃ whole : Buffer, (Write.each ([utf16 "deck 𝄞", i64 (-2), utf8 "é"].map put)).run #[] = (.ok (), whole) ∧
      Read.run (FieldType.readRow [.utf16, .i64, .utf8]) (.start (whole.toList ++ [0xFF])) =
        (.ok [utf16 "deck 𝄞", i64 (-2), utf8 "é"], ⟨whole.size, [0xFF]⟩) ∧
      ∃ c c' : Cursor, (Cursor.start (whole.toList ++ [0xFF])).after [.field .utf16] = c ∧
        Read.run (Demand.read (.field .i64)) c = (.ok (.field (i64 (-2))), c') ∧
        c.position = 18 ∧ c'.position = 26 := by
  have hfits : ∀ f ∈ [utf16 "deck 𝄞", i64 (-2), utf8 "é"], f.Fits := by decide +kernel
  have hfront : ((Write.each ([utf16 "deck 𝄞"].map put)).run #[]).2.size = 18 := by decide +kernel
  obtain ⟨whole, hwritten, hread, hsteps⟩ := row_written_read hfits [0xFF]
  obtain ⟨x, y, c, c', hx, hy, hc, hc', hposition, hposition'⟩ := hsteps [utf16 "deck 𝄞"] _ _ rfl
  have hsize : x.size = 18 := by rwa [hx] at hfront
  have hsize' : y.size = 26 := by
    rw [run_put rfl] at hy
    cases hy
    rw [Buffer.size_append, hsize, Octets.length_ofNat]
  exact ⟨hfits, whole, hwritten, hread, c, c', hc, hc', hposition.trans hsize, hposition'.trans hsize'⟩

end Field

end BoothLink
