import BoothLink.Proofs.Wire.Texts

/-!
# Where a cursor stands

Octets, a magic or a field are demanded of a cursor, again and again, also after it has refused one of them.
Whatever is demanded, it stands in its octets or at their end, and what it answers is decided by the octets that
it passes and by how many are left behind them.

* `Demand`, `Grant`, `Cursor.after`: what is demanded, what is given, and where the cursor stands then.
* `Demand.Outcome`: what comes of a demand, with the octets that are passed when it is met and when it is
  refused.
* `Demand.run_of_outcome`, `Demand.exists_outcome`: an outcome is what is answered, and there always is one.
* **`Demand.run_iff`**: what a cursor answers, and where it stands then.
* `Octets.between?`, `Cursor.Stands`: the octets between two places, and a place in octets.
* **`Cursor.after_demands`**: where a cursor stands after any demands, and what comes of one more.
-/

namespace BoothLink

/-- What is demanded of a cursor. -/
inductive Demand where
  | octets (n : Nat)
  | magic (expected : Octets)
  | field (t : FieldType)
  deriving DecidableEq

/-- What a cursor gives. -/
inductive Grant where
  | octets (b : Octets)
  /-- The magic was there. -/
  | agreed
  | field (f : Field)
  deriving DecidableEq

/-- How far a field goes: so many octets, or those of a text behind their number. -/
inductive FieldType.Extent where
  | fixed (width : Nat)
  | text (form : TextForm)

def FieldType.extent : FieldType → Extent
  | u16 => .fixed 2
  | u32 => .fixed 4
  | u64 | i64 | f64 => .fixed 8
  | token => .fixed Token.width
  | utf16 => .text .utf16
  | utf8 => .text .utf8

namespace Demand

def read : Demand → Read Grant
  | octets n => return .octets (← Read.take n)
  | magic expected => do
    Read.expect expected
    return .agreed
  | field t => return .field (← t.read)

/-- **What comes of a demand**: the octets that are passed, how many are left behind them, and the answer. -/
inductive Outcome : Demand → Octets → Nat → Except WireError Grant → Prop
  | octets {n : Nat} {b : Octets} {left : Nat} (hlen : b.length = n) :
      Outcome (.octets n) b left (.ok (.octets b))
  | magic {b : Octets} {left : Nat} : Outcome (.magic b) b left (.ok .agreed)
  /-- The field is the one that is written as the octets passed. -/
  | field {f : Field} {b : Octets} {left : Nat} (hf : f.write = .ok b) (hfits : f.Fits) :
      Outcome (.field f.type) b left (.ok (.field f))
  | octetsCut {n left : Nat} (h : left < n) : Outcome (.octets n) [] left (.error .truncated)
  | magicCut {expected : Octets} {left : Nat} (h : left < expected.length) :
      Outcome (.magic expected) [] left (.error .truncated)
  | otherMagic {expected b : Octets} {left : Nat} (hlen : b.length = expected.length) (h : b ≠ expected) :
      Outcome (.magic expected) b left (.error (.invalidMagic expected b))
  | fieldCut {t : FieldType} {width left : Nat} (ht : t.extent = .fixed width) (h : left < width) :
      Outcome (.field t) [] left (.error .truncated)
  /-- Not even the number of a text's octets is there. -/
  | sizeCut {t : FieldType} {form : TextForm} {left : Nat} (ht : t.extent = .text form) (h : left < 4) :
      Outcome (.field t) [] left (.error .truncated)
  | tooLarge {t : FieldType} {form : TextForm} {size : Octets} {left : Nat} (ht : t.extent = .text form)
      (hlen : size.length = 4) (h : frameLimit < size.value) :
      Outcome (.field t) size left (.error (.tooLarge size.value frameLimit))
  | textCut {t : FieldType} {form : TextForm} {size : Octets} {left : Nat} (ht : t.extent = .text form)
      (hlen : size.length = 4) (hlim : size.value ≤ frameLimit) (h : left < size.value) :
      Outcome (.field t) size left (.error .truncated)
  | noText {t : FieldType} {form : TextForm} {raw : Octets} {left : Nat} {fault : TextFault}
      (ht : t.extent = .text form) (hlim : raw.length ≤ frameLimit) (h : form.decode raw = .error fault) :
      Outcome (.field t) (Octets.ofNat 4 raw.length ++ raw) left (.error (.encoding fault))

end Demand

/-- Where a cursor stands after one demand and the next, whatever it has refused. -/
def Cursor.after (c : Cursor) (demands : List Demand) : Cursor :=
  demands.foldl (fun c d => (Read.run d.read c).2) c

/-! ## Too few octets -/

namespace Read

variable {α β : Type} {r : Read α} {c c' : Cursor} {b : Octets} {n : Nat}

/-- With fewer octets ahead the read is cut short, and the cursor stays where it is. -/
def Stays (r : Read α) (n : Nat) : Prop :=
  ∀ c, c.remaining < n → run r c = (.error .truncated, c)

theorem stays_take (n : Nat) : Stays (take n) n := by
  intro c h
  rw [take_run, if_neg (by omega)]

theorem Stays.bind (h : Stays r n) (f : α → Read β) : Stays (r >>= f) n := by
  intro c hc
  exact run_bind_error (h c hc) f

theorem stays_number (width : Nat) : Stays (number width) width := (stays_take width).bind _

theorem stays_expect (magic : Octets) : Stays (expect magic) magic.length := (stays_take _).bind _

theorem stays_counted : Stays counted 4 := (stays_number 4).bind _

theorem number_of_passes (hp : c.Passes b c') : run (number b.length) c = (.ok b.value, c') :=
  ((takes_take b).bind_pure Octets.value).run_of_passes hp

end Read

theorem Cursor.passes_front {c : Cursor} {n : Nat} (h : n ≤ c.remaining) :
    c.Passes (c.ahead.take n) ⟨c.position + n, c.ahead.drop n⟩ :=
  (Read.passes_take ((Read.take_run n c).trans (if_pos h))).1

/-! ## Fields -/

namespace FieldType

open Read

variable {t : FieldType} {c c' : Cursor} {width : Nat} {form : TextForm} {e : WireError}

theorem stays_read (ht : t.extent = .fixed width) : Stays t.read width := by
  cases t with
  | u16 | u32 | u64 =>
    cases ht
    exact ((stays_number _).bind _).bind _
  | i64 | f64 =>
    cases ht
    exact (((stays_number _).bind _).bind _).bind _
  | token =>
    cases ht
    exact ((stays_take _).bind _).bind _
  | utf16 | utf8 => cases ht

/-- **Any octets in the number of a field's are the octets of such a field.** -/
theorem exists_fixed (ht : t.extent = .fixed width) (h : width ≤ c.remaining) :
    ∃ f c', f.type = t ∧ c.Spells [f] c' := by
  cases t with
  | u16 =>
    cases ht
    obtain ⟨n, hn⟩ := fixed_u16 c h
    exact ⟨.u16 n, _, rfl, spells_u16 hn⟩
  | u32 =>
    cases ht
    obtain ⟨n, hn⟩ := fixed_u32 c h
    exact ⟨.u32 n, _, rfl, spells_u32 hn⟩
  | u64 =>
    cases ht
    obtain ⟨n, hn⟩ := fixed_u64 c h
    exact ⟨.u64 n, _, rfl, spells_u64 hn⟩
  | i64 =>
    cases ht
    obtain ⟨n, hn⟩ := fixed_i64 c h
    exact ⟨.i64 n, _, rfl, spells_i64 hn⟩
  | f64 =>
    cases ht
    obtain ⟨x, hx⟩ := fixed_f64 c h
    exact ⟨.f64 x, _, rfl, spells_f64 hx⟩
  | token =>
    cases ht
    obtain ⟨a, ha⟩ := fixed_token c h
    exact ⟨.token a, _, rfl, spells_token ha⟩
  | utf16 | utf8 => cases ht

theorem read_text (ht : t.extent = .text form) :
    t.read = form.read >>= fun s => pure (form.field s) := by
  cases t <;> cases ht <;> rfl

theorem type_text (ht : t.extent = .text form) (s : String) : (form.field s).type = t := by
  cases t <;> cases ht <;> rfl

theorem text_of_counted (ht : t.extent = .text form) (h : run counted c = (.error e, c')) :
    run t.read c = (.error e, c') := by
  rw [read_text ht, form.read_eq]
  exact run_bind_error (run_bind_error h _) _

end FieldType

/-! ## One demand -/

namespace Demand

open Read

variable {d : Demand} {c c' : Cursor} {b : Octets} {a : Except WireError Grant} {t : FieldType} {form : TextForm}

/-- **An outcome is what is answered.** -/
theorem run_of_outcome (hp : c.Passes b c') (h : d.Outcome b c'.remaining a) :
    run d.read c = (a, c') := by
  generalize hleft : c'.remaining = left at h
  cases h with
  | octets hlen =>
    subst hlen
    exact ((takes_take b).bind_pure Grant.octets).run_of_passes hp
  | magic => exact ((takes_expect b).bind_pure fun _ => Grant.agreed).run_of_passes hp
  | field hf hfits => exact ((takes_read hf hfits).bind_pure Grant.field).run_of_passes hp
  -- What is cut is refused where the cursor stood, for nothing has been passed.
  | octetsCut h =>
    obtain rfl := hp.eq_of_nil
    exact (stays_take _).bind _ _ (hleft ▸ h)
  | magicCut h =>
    obtain rfl := hp.eq_of_nil
    exact (stays_expect _).bind _ _ (hleft ▸ h)
  | @otherMagic expected _ _ hlen h =>
    have hfound := (takes_take b).run_of_passes hp
    rw [hlen] at hfound
    refine run_bind_error ?_ _
    rw [expect, run_bind_ok hfound, if_neg h]
    rfl
  | fieldCut ht h =>
    obtain rfl := hp.eq_of_nil
    exact (FieldType.stays_read ht).bind _ _ (hleft ▸ h)
  | sizeCut ht h =>
    obtain rfl := hp.eq_of_nil
    exact run_bind_error (FieldType.text_of_counted ht (stays_counted _ (hleft ▸ h))) _
  | tooLarge ht hlen h =>
    have hsize := number_of_passes hp
    rw [hlen] at hsize
    refine run_bind_error (FieldType.text_of_counted ht ?_) _
    rw [counted, run_bind_ok hsize, if_pos h]
    rfl
  | textCut ht hlen hlim h =>
    have hsize := number_of_passes hp
    rw [hlen] at hsize
    refine run_bind_error (FieldType.text_of_counted ht ?_) _
    rw [counted, run_bind_ok hsize, if_neg (Nat.not_lt.mpr hlim)]
    exact stays_take _ _ (hleft ▸ h)
  | @noText t form raw _ fault ht hlim h =>
    have hraw := (takes_counted hlim).run_of_passes hp
    refine run_bind_error ?_ _
    rw [FieldType.read_text ht, form.read_eq]
    refine run_bind_error ?_ _
    rw [run_bind_ok hraw, h]
    rfl

/-- Octets behind their number are those of a text, or of none. -/
theorem exists_decoded (ht : t.extent = .text form) {raw : Octets} (hraw : raw.length ≤ frameLimit)
    (left : Nat) : ∃ a, (field t).Outcome (Octets.ofNat 4 raw.length ++ raw) left a := by
  cases hdecode : form.decode raw with
  | ok s =>
    have hencode := TextForm.decode_eq_ok_iff.mp hdecode
    have hwrite := (TextForm.write_eq_iff hraw).mpr hencode
    have hfits := (form.fits_iff s).mpr (hencode ▸ hraw)
    rw [← FieldType.type_text ht s]
    exact ⟨_, .field hwrite hfits⟩
  | error fault => exact ⟨_, .noText ht hraw hdecode⟩

theorem exists_text (ht : t.extent = .text form) (c : Cursor) :
    ∃ b c' a, c.Passes b c' ∧ (field t).Outcome b c'.remaining a := by
  by_cases hfour : c.remaining < 4
  · exact ⟨_, _, _, .refl c, .sizeCut ht hfour⟩
  have hsize := Cursor.passes_front (Nat.not_lt.mp hfour)
  have hlen : (c.ahead.take 4).length = 4 := List.length_take_of_le (Nat.not_lt.mp hfour)
  have hrest := hsize.remaining
  by_cases hlarge : frameLimit < Octets.value (c.ahead.take 4)
  · exact ⟨_, _, _, hsize, .tooLarge ht hlen hlarge⟩
  by_cases hcut : c.remaining < 4 + Octets.value (c.ahead.take 4)
  · exact ⟨_, _, _, hsize, .textCut ht hlen (Nat.not_lt.mp hlarge) (by omega)⟩
  have hcounted := counted_run c
  rw [if_neg hfour] at hcounted
  simp only [if_neg hlarge, if_neg hcut] at hcounted
  obtain ⟨hraw, hp⟩ := passes_counted hcounted
  obtain ⟨a, ha⟩ := exists_decoded ht hraw _
  exact ⟨_, _, _, hp, ha⟩

/-- **There is an outcome of every demand.** -/
theorem exists_outcome (d : Demand) (c : Cursor) :
    ∃ b c' a, c.Passes b c' ∧ d.Outcome b c'.remaining a := by
  cases d with
  | octets n =>
    by_cases h : n ≤ c.remaining
    · exact ⟨_, _, _, Cursor.passes_front h, .octets (List.length_take_of_le h)⟩
    · exact ⟨_, _, _, .refl c, .octetsCut (Nat.not_le.mp h)⟩
  | magic expected =>
    by_cases h : expected.length ≤ c.remaining
    · have hp := Cursor.passes_front h
      by_cases hsame : c.ahead.take expected.length = expected
      · rw [hsame] at hp
        exact ⟨_, _, _, hp, .magic⟩
      · exact ⟨_, _, _, hp, .otherMagic (List.length_take_of_le h) hsame⟩
    · exact ⟨_, _, _, .refl c, .magicCut (Nat.not_le.mp h)⟩
  | field t =>
    cases ht : t.extent with
    | fixed width =>
      by_cases h : width ≤ c.remaining
      · obtain ⟨f, c', rfl, hspells⟩ := FieldType.exists_fixed ht h
        obtain ⟨b, hb, hfits, hp⟩ := hspells.single
        exact ⟨_, _, _, hp, .field hb hfits⟩
      · exact ⟨_, _, _, .refl c, .fieldCut ht (Nat.not_le.mp h)⟩
    | text form => exact exists_text ht c

/-- **What a cursor answers, and where it stands then.** -/
theorem run_iff : run d.read c = (a, c') ↔ ∃ b, c.Passes b c' ∧ d.Outcome b c'.remaining a := by
  constructor
  · intro h
    obtain ⟨b, c₁, a₁, hp, ho⟩ := exists_outcome d c
    -- A cursor gives one answer, so the outcome that there is comes with this one.
    have hsame := h.symm.trans (run_of_outcome hp ho)
    cases hsame
    exact ⟨b, hp, ho⟩
  · rintro ⟨b, hp, ho⟩
    exact run_of_outcome hp ho

end Demand

/-! ## Demands one after the other -/

/-- The octets between two places, if these are places of the octets and the second is not before the
first. -/
def Octets.between? (b : Octets) (i j : Nat) : Option Octets :=
  if i ≤ j ∧ j ≤ b.length then some ((b.drop i).take (j - i)) else none

namespace Cursor

open Read

variable {b m : Octets} {i j : Nat} {c c' : Cursor}

/-- The cursor stands in these octets or at their end, with those ahead that are behind its place. -/
structure Stands (b : Octets) (c : Cursor) : Prop where
  ahead_eq : c.ahead = b.drop c.position
  position_le : c.position ≤ b.length

theorem Stands.start (b : Octets) : Stands b (start b) := ⟨rfl, Nat.zero_le _⟩

theorem Stands.remaining (h : Stands b c) : c.position + c.remaining = b.length := by
  have hle := h.position_le
  rw [Cursor.remaining, h.ahead_eq, List.length_drop]
  omega

/-- **What is passed lies between the places**, and behind it the cursor still stands in the octets. -/
theorem Stands.passes (h : Stands b c) (hp : c.Passes m c') :
    Stands b c' ∧ b.between? c.position c'.position = some m := by
  have hall := h.remaining
  have hpassed := hp.remaining
  have hposition := hp.position_eq
  have hdrop : b.drop c.position = m ++ c'.ahead := h.ahead_eq.symm.trans hp.ahead_eq
  refine ⟨⟨?_, by omega⟩, ?_⟩
  · rw [hposition, ← List.drop_drop, hdrop, List.drop_left]
  · rw [Octets.between?, if_pos (by omega), hdrop, hposition, Nat.add_sub_cancel_left, List.take_left]

/-- Between two places of octets the octets between them are passed. -/
theorem passes_between (h : b.between? i j = some m) : Passes ⟨i, b.drop i⟩ m ⟨j, b.drop j⟩ := by
  rw [Octets.between?] at h
  split_ifs at h with hin
  obtain ⟨hij, hj⟩ := hin
  cases h
  refine ⟨?_, ?_⟩
  · have hback := List.take_append_drop (j - i) (b.drop i)
    rw [List.drop_drop, Nat.add_sub_cancel' hij] at hback
    exact hback.symm
  · simp only [List.length_take, List.length_drop]
    omega

/-- **Demands one after the other pass some octets.** -/
theorem passes_after (c : Cursor) (demands : List Demand) : ∃ m, c.Passes m (c.after demands) := by
  induction demands generalizing c with
  | nil => exact ⟨[], .refl c⟩
  | cons d demands ih =>
    obtain ⟨m, hm, -⟩ := Demand.run_iff.mp (Eq.refl (run d.read c))
    obtain ⟨m', hm'⟩ := ih (run d.read c).2
    exact ⟨m ++ m', hm.trans hm'⟩

theorem stands_after (b : Octets) (demands : List Demand) : Stands b ((start b).after demands) := by
  obtain ⟨m, hm⟩ := passes_after (start b) demands
  exact ((Stands.start b).passes hm).1

/-- **Whatever is demanded of it, again and again, a cursor stands in its octets.** The octets that it has
passed and those ahead are all octets together, and nothing takes it back. One more demand, whatever it is and
whatever was refused before, leaves it at a place in the octets that is not before the one where it stood. The
octets between the two places and the number of those left decide the answer. If the demand is met, they are the
octets of the value. If it is refused, they are none where octets, a magic, a field of a fixed extent or the
number of a text's octets is cut; as many as the magic has where there is another one; the number of a text's
octets where this is over the limit or more than are left; and this number with the text's octets where these
are no text. What stands elsewhere in the octets is not looked at. -/
theorem after_demands {b : Octets} {demands : List Demand} {c : Cursor} (hc : (start b).after demands = c) :
    c.position + c.remaining = b.length ∧
    (∀ more, c.position ≤ (c.after more).position) ∧
    ∀ d a c', run (Demand.read d) c = (a, c') →
      c'.position + c'.remaining = b.length ∧
      (∃ passed, b.between? c.position c'.position = some passed ∧ d.Outcome passed c'.remaining a) ∧
      ∀ b' : Octets, b'.length = b.length →
        b'.between? c.position c'.position = b.between? c.position c'.position →
        run d.read ⟨c.position, b'.drop c.position⟩ = (a, ⟨c'.position, b'.drop c'.position⟩) := by
  have hstands := hc ▸ stands_after b demands
  refine ⟨hstands.remaining, ?_, ?_⟩
  · intro more
    obtain ⟨m, hm⟩ := passes_after c more
    rw [hm.position_eq]
    exact Nat.le_add_right _ _
  · intro d a c' hrun
    obtain ⟨passed, hp, houtcome⟩ := Demand.run_iff.mp hrun
    obtain ⟨hstands', hbetween⟩ := hstands.passes hp
    refine ⟨hstands'.remaining, ⟨passed, hbetween, houtcome⟩, ?_⟩
    intro b' hlen hsame
    have hleft : (mk c'.position (b'.drop c'.position)).remaining = c'.remaining := by
      have hall := hstands'.remaining
      rw [remaining_drop]
      omega
    exact Demand.run_of_outcome (passes_between (hsame.trans hbetween)) (hleft ▸ houtcome)

/-- A text of three octets, a magic that is another one, and a text that is cut. -/
def refusing : Octets := [0, 0, 0, 3, 0x00, 0x4A, 0x00, 0x61, 0x69, 0x72, 0x53, 0, 0, 0, 9, 0x4A]

/-- The reading goes on from where each refusal has left it. -/
theorem after_demands_refusing :
    (start refusing).after [.field .utf16, .magic [0x61, 0x69, 0x72, 0x44]] = ⟨11, [0, 0, 0, 9, 0x4A]⟩ ∧
    run (Demand.read (.field .utf8)) ⟨11, [0, 0, 0, 9, 0x4A]⟩ = (.error .truncated, ⟨15, [0x4A]⟩) ∧
    ∃ passed, refusing.between? 11 15 = some passed ∧
      Demand.Outcome (.field .utf8) passed 1 (.error .truncated) := by
  have hc : (start refusing).after [.field .utf16, .magic [0x61, 0x69, 0x72, 0x44]] =
      ⟨11, [0, 0, 0, 9, 0x4A]⟩ := by decide +kernel
  have hcut : run (Demand.read (.field .utf8)) ⟨11, [0, 0, 0, 9, 0x4A]⟩ = (.error .truncated, ⟨15, [0x4A]⟩) := by
    decide +kernel
  obtain ⟨-, hpassed, -⟩ := (after_demands hc).2.2 _ _ _ hcut
  exact ⟨hc, hcut, hpassed⟩

end Cursor

end BoothLink
