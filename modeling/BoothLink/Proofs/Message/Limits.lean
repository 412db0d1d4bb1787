import BoothLink.Proofs.Message.Frames

/-!
# What is written can be too long to be read

A text is written as long as its length field can count it, but read only up to the limit of a frame.
Inside a frame this makes no difference, since what the frame holds is within the limit when it is
written. The texts of an announcement of a service and of an announcement of presence stand in no frame:
they are written at lengths that every reader refuses.

* `Field.excess?`, `Message.tooLong?`: the first text that is too long to be read.
* `Read.Judges`: a read takes the octets of a value, or refuses the first text that is too long.
* `Message.textsFit_of_isFrame`: what was written in a frame can be read.
* **`Message.decode_encode_judged`**: what was written is read back, or refused as too large.
-/

namespace BoothLink

namespace Field

/-- The number of octets of a text that has too many of them to be read. -/
def excess? : Field → Option Nat
  | utf16 s => Option.guard (frameLimit < ·) (Utf16.encode s.toList).length
  | utf8 s => Option.guard (frameLimit < ·) (Utf8.encode s.toList).length
  | _ => none

theorem excess?_eq_none_iff {f : Field} : f.excess? = none ↔ f.Fits := by
  cases f with
  | utf16 s | utf8 s => simp [excess?, Fits]
  | u16 _ | u32 _ | u64 _ | i64 _ | f64 _ | token _ => exact iff_of_true rfl trivial

/-- The number of octets of the first text in a row that has too many of them to be read. -/
def tooLong? : List Field → Option Nat
  | [] => none
  | f :: fs => f.excess?.or (tooLong? fs)

theorem tooLong?_eq_none_iff {fs : List Field} : tooLong? fs = none ↔ ∀ f ∈ fs, f.Fits := by
  induction fs with
  | nil => exact iff_of_true rfl nofun
  | cons f fs ih =>
    rw [tooLong?, Option.or_eq_none_iff, excess?_eq_none_iff, ih, List.forall_mem_cons]

theorem counted_ok_iff {raw b : Octets} :
    counted raw = .ok b ↔ raw.length ≤ lengthLimit ∧ b = Octets.ofNat 4 raw.length ++ raw := by
  by_cases h : lengthLimit < raw.length
  · rw [counted, if_pos h]
    exact iff_of_false (by intro hok; cases hok) fun hb => Nat.not_lt.mpr hb.1 h
  · rw [counted, if_neg h, Except.ok.injEq, eq_comm, and_iff_right (Nat.not_lt.mp h)]

/-- A field that takes no more octets than the limit is no text that is too long. -/
theorem fits_of_write {f : Field} {b : Octets} (h : f.write = .ok b) (hb : b.length ≤ frameLimit) :
    f.Fits := by
  cases f with
  | utf16 s | utf8 s =>
    obtain ⟨-, rfl⟩ := counted_ok_iff.mp h
    rw [List.length_append] at hb
    exact (Nat.le_add_left _ _).trans hb
  | u16 _ | u32 _ | u64 _ | i64 _ | f64 _ | token _ => trivial

/-- **Every text of a row that takes no more octets than the limit can be read.** -/
theorem fits_of_writeAll {fs : List Field} {b : Octets} (h : writeAll fs = .ok b)
    (hb : b.length ≤ frameLimit) : ∀ f ∈ fs, f.Fits := by
  induction fs generalizing b with
  | nil => exact nofun
  | cons f fs ih =>
    obtain ⟨x, y, hx, hy, rfl⟩ := writeAll_cons_inv h
    rw [List.length_append] at hb
    rintro g (_ | ⟨_, hg⟩)
    · exact fits_of_write hx (by omega)
    · exact ih hy (by omega) g hg

/-- **A row whose texts can all be read can be written.** -/
theorem exists_writeAll {fs : List Field} (h : ∀ f ∈ fs, f.Fits) : ∃ b, writeAll fs = .ok b := by
  induction fs with
  | nil => exact ⟨[], rfl⟩
  | cons f fs ih =>
    obtain ⟨hf, hrest⟩ := List.forall_mem_cons.mp h
    obtain ⟨more, hmore⟩ := ih hrest
    have hone : ∃ b, f.write = .ok b := by
      cases f with
      | utf16 s | utf8 s => exact ⟨_, counted_ok_iff.mpr ⟨Nat.le_trans hf (by decide), rfl⟩⟩
      | u16 _ | u32 _ | u64 _ | i64 _ | f64 _ | token _ => exact ⟨_, rfl⟩
    obtain ⟨b, hb⟩ := hone
    exact ⟨b ++ more, writeAll_cons hb hmore⟩

end Field

namespace Read

variable {α β : Type} {r : Read α} {f : α → Read β} {b c : Octets} {a : α} {v : β} {e : WireError}
  {s t : Option Nat}

/-- With these octets ahead the read fails, whatever follows. -/
def Refuses (r : Read α) (b : Octets) (e : WireError) : Prop :=
  ∀ p rest, (run r ⟨p, b ++ rest⟩).1 = .error e

theorem refuses_fail (e : WireError) : Refuses (fail e : Read α) b e := fun _ _ => rfl

theorem Refuses.bind (h : Refuses r b e) (f : α → Read β) (c : Octets) :
    Refuses (r >>= f) (b ++ c) e := by
  intro p rest
  have hr := h p (c ++ rest)
  rw [List.append_assoc, run_bind]
  generalize run r ⟨p, b ++ (c ++ rest)⟩ = found at hr
  obtain ⟨answer, c₁⟩ := found
  cases hr
  rfl

theorem Takes.bind_refuses (h : Takes r b a) (hf : Refuses (f a) c e) :
    Refuses (r >>= f) (b ++ c) e := by
  intro p rest
  rw [List.append_assoc, run_bind_ok (h p (c ++ rest)), hf]

/-- With these octets ahead the read gives the value, or refuses a text of so many octets. -/
def Judges (r : Read α) (b : Octets) (s : Option Nat) (a : α) : Prop :=
  match s with
  | none => Takes r b a
  | some size => Refuses r b (.tooLarge size frameLimit)

/-- **Of reads in sequence the first that refuses decides.** -/
theorem Judges.bind (h : Judges r b s a) (hf : Judges (f a) c t v) :
    Judges (r >>= f) (b ++ c) (s.or t) v := by
  cases s with
  | some size => exact Refuses.bind h f c
  | none =>
    cases t with
    | some size => exact Takes.bind_refuses h hf
    | none => exact Takes.bind h hf

theorem Takes.bind_judges (h : Takes r b a) (hf : Judges (f a) c t v) :
    Judges (r >>= f) (b ++ c) t v := Judges.bind (s := none) h hf

theorem Judges.bind_pure (h : Judges r b s a) (g : α → β) :
    Judges (r >>= fun x => pure (g x)) b s (g a) := by
  have hg := h.bind (f := fun x => pure (g x)) (t := none) (takes_pure (g a))
  rwa [List.append_nil, Option.or_none] at hg

/-- **A text is read back, or refused as too large.** -/
theorem judges_utf16 {x : String} (h : Field.write (.utf16 x) = .ok b) :
    Judges utf16 b (Field.excess? (.utf16 x)) x := by
  by_cases hx : frameLimit < (Utf16.encode x.toList).length
  · obtain ⟨hlim, rfl⟩ := Field.counted_ok_iff.mp h
    have hsize : (Utf16.encode x.toList).length < 256 ^ 4 := by
      unfold lengthLimit at hlim
      omega
    have hcounted : Refuses counted
        (Octets.ofNat 4 (Utf16.encode x.toList).length ++ Utf16.encode x.toList)
        (.tooLarge (Utf16.encode x.toList).length frameLimit) := by
      refine (takes_number 4 hsize).bind_refuses ?_
      rw [if_pos hx]
      exact refuses_fail _
    have htext := hcounted.bind (fun raw => checked (textOfUnits raw)) []
    rw [List.append_nil] at htext
    rw [Field.excess?, Option.guard, if_pos (decide_eq_true hx)]
    exact htext
  · have hfits : Field.excess? (.utf16 x) = none := Field.excess?_eq_none_iff.mpr (Nat.not_lt.mp hx)
    rw [hfits]
    exact takes_utf16 h (Nat.not_lt.mp hx)

theorem judges_announcement {a : Announcement} (h : Field.writeAll a.fields = .ok b) :
    Judges announcement b (Field.tooLong? a.fields) a := by
  obtain ⟨token, _, htoken, h₁, rfl⟩ := Field.writeAll_cons_inv h
  obtain ⟨source, _, hsource, h₂, rfl⟩ := Field.writeAll_cons_inv h₁
  obtain ⟨action, _, haction, h₃, rfl⟩ := Field.writeAll_cons_inv h₂
  obtain ⟨name, _, hname, h₄, rfl⟩ := Field.writeAll_cons_inv h₃
  obtain ⟨version, _, hversion, h₅, rfl⟩ := Field.writeAll_cons_inv h₄
  obtain ⟨port, _, hport, h₆, rfl⟩ := Field.writeAll_cons_inv h₅
  cases htoken
  cases hport
  cases h₆
  have hrow : Field.tooLong? a.fields =
      (Field.excess? (.utf16 a.source)).or ((Field.excess? (.utf16 a.action.wireText)).or
        ((Field.excess? (.utf16 a.softwareName)).or
          ((Field.excess? (.utf16 a.softwareVersion)).or none))) := rfl
  rw [hrow]
  refine (takes_token _).bind_judges ((judges_utf16 hsource).bind ((judges_utf16 haction).bind
    ((judges_utf16 hname).bind ((judges_utf16 hversion).bind
      ((takes_u16 _).bind_judges (t := none) ?_)))))
  rw [ofWire_wireText]
  exact takes_pure a

end Read

namespace Message

variable {m : Message} {b : Octets}

/-- The number of octets of the first text of a message that has too many of them to be read. -/
def tooLong? (m : Message) : Option Nat := Field.tooLong? m.fields

theorem tooLong?_eq_none_iff : m.tooLong? = none ↔ m.TextsFit := Field.tooLong?_eq_none_iff

/-- **The texts of a message that was written in a frame can be read.** -/
theorem textsFit_of_isFrame (hframe : m.kind.framing.isFrame = true) (h : m.encode = .ok b) :
    m.TextsFit ∧ frameSize b ≤ frameLimit := by
  obtain ⟨x, hx, ⟨-, hlim, rfl⟩ | ⟨hbare, -⟩⟩ := encode_inv h
  · obtain ⟨-, row, hrow, rfl⟩ := body_inv hx
    have hshort := hlim
    rw [List.length_append] at hshort
    refine ⟨Field.fits_of_writeAll hrow (by omega), ?_⟩
    rwa [frameSize, List.take_left' (Octets.length_ofNat _ _), value_length hlim]
  · rw [hframe] at hbare
    cases hbare

/-- **The reader of a kind takes the octets of its messages, or refuses a text that is too long.** -/
theorem judges_reader (h : m.encode = .ok b) : Read.Judges m.kind.reader b m.tooLong? m := by
  cases hframe : m.kind.framing.isFrame with
  | true =>
    have hfits := (textsFit_of_isFrame hframe h).1
    rw [tooLong?_eq_none_iff.mpr hfits]
    exact takes_reader h hfits
  | false =>
    obtain ⟨body, hbody, ⟨hframe', -⟩ | ⟨-, rfl⟩⟩ := encode_inv h
    · rw [hframe] at hframe'
      cases hframe'
    obtain ⟨-, row, hrow, rfl⟩ := body_inv hbody
    rw [MessageKind.reader, if_neg (by simp [hframe])]
    refine (Read.takes_expectAll _).bind_judges ?_
    cases m with
    | serviceAnnouncement token service port =>
      obtain ⟨x, _, hx, h₁, rfl⟩ := Field.writeAll_cons_inv hrow
      obtain ⟨y, _, hy, h₂, rfl⟩ := Field.writeAll_cons_inv h₁
      obtain ⟨z, _, hz, h₃, rfl⟩ := Field.writeAll_cons_inv h₂
      cases hx
      cases hz
      cases h₃
      have htexts : tooLong? (.serviceAnnouncement token service port) =
          (Field.excess? (.utf16 service)).or none := rfl
      rw [htexts]
      exact (Read.takes_token _).bind_judges ((Read.judges_utf16 hy).bind
        ((Read.takes_u16 _).bind_judges (t := none) (Read.takes_pure _)))
    | reference | servicesRequest =>
      exact takes_fieldsReader hrow rfl (tooLong?_eq_none_iff.mp rfl)
    | discovery announcement => exact (Read.judges_announcement hrow).bind_pure Message.discovery
    | stateSubscribe | stateEmit | stateEmitResponse | beatStartStream | beatStopStream
      | beatEmit => cases hframe

theorem decode_encode_tooLong? (h : m.encode = .ok b) (rest : Octets) :
    m.kind.decode (b ++ rest) =
      match m.tooLong? with
      | none => .ok (m, b.length)
      | some size => .error (.tooLarge size frameLimit) := by
  have hjudges := judges_reader h
  cases hlong : m.tooLong? with
  | none =>
    rw [hlong] at hjudges
    exact decode_of_takes hjudges rest
  | some size =>
    rw [hlong] at hjudges
    exact MessageKind.decode_error_iff.mpr (hjudges 0 rest)

/-- **What was written is read back, or refused as too large**: it is refused exactly if one of its texts
is too long to be read, for the first such text, and what was written in a frame never is. -/
theorem decode_encode_judged {m : Message} {b : Octets} (h : m.encode = .ok b) :
    (∀ rest, m.kind.decode (b ++ rest) =
      match m.tooLong? with
      | none => .ok (m, b.length)
      | some size => .error (.tooLarge size frameLimit)) ∧
      ((∀ size limit, m.kind.decode b ≠ .error (.tooLarge size limit)) ↔ m.TextsFit) ∧
      (m.kind.framing.isFrame = true → m.TextsFit ∧ frameSize b ≤ frameLimit) := by
  refine ⟨decode_encode_tooLong? h, ?_, fun hframe => textsFit_of_isFrame hframe h⟩
  have hdecode := decode_encode_tooLong? h []
  rw [List.append_nil] at hdecode
  rw [hdecode, ← tooLong?_eq_none_iff]
  cases m.tooLong? with
  | none => exact iff_of_true nofun rfl
  | some size => exact iff_of_false (fun hnever => hnever size frameLimit rfl) nofun

/-- A service announced by no one in particular. -/
def announcedState : Octets :=
  [0, 0, 0, 0] ++ List.replicate 16 0 ++ [0, 0, 0, 16, 0, 0x53, 0, 0x74, 0, 0x61, 0, 0x74, 0, 0x65, 0,
    0x4D, 0, 0x61, 0, 0x70, 0x9C, 0x41]

theorem decode_encode_judged_service :
    (serviceAnnouncement .zero "StateMap" 40001).encode = .ok announcedState ∧
      (serviceAnnouncement .zero "StateMap" 40001).TextsFit ∧
      ∀ size limit,
        MessageKind.serviceAnnouncement.decode announcedState ≠ .error (.tooLarge size limit) := by
  have h : (serviceAnnouncement .zero "StateMap" 40001).encode = .ok announcedState := rfl
  have hfits : (serviceAnnouncement .zero "StateMap" 40001).TextsFit := by decide
  exact ⟨h, hfits, (decode_encode_judged h).2.1.mpr hfits⟩

theorem encode_of_writeAll {x : Octets} (hbare : m.kind.framing.isFrame = false)
    (hcounts : m.countsFit = .ok ()) (hx : Field.writeAll m.fields = .ok x) :
    m.encode = .ok (m.kind.framing.opening.flatten ++ x) := by
  rw [encode, body, hcounts, hx]
  exact if_neg (by simp [hbare])

/-- A message without a frame can be written if its texts can be read. -/
theorem exists_encode (hbare : m.kind.framing.isFrame = false) (hcounts : m.countsFit = .ok ())
    (hfits : m.TextsFit) : ∃ b, m.encode = .ok b := by
  obtain ⟨x, hx⟩ := Field.exists_writeAll hfits
  exact ⟨_, encode_of_writeAll hbare hcounts hx⟩

/-- **A service whose name is longer than a frame may be announced**, and no reader takes it. -/
theorem serviceAnnouncement_refused (token : Token) {service : String} (port : UInt16)
    (hlong : frameLimit < (Utf16.encode service.toList).length)
    (hcap : (Utf16.encode service.toList).length ≤ lengthLimit) :
    ∃ b, (serviceAnnouncement token service port).encode = .ok b ∧
      MessageKind.serviceAnnouncement.decode b =
        .error (.tooLarge (Utf16.encode service.toList).length frameLimit) := by
  have hname : Field.write (.utf16 service) = .ok _ := Field.counted_ok_iff.mpr ⟨hcap, rfl⟩
  have hrow := Field.writeAll_cons (f := .token token) rfl
    (Field.writeAll_cons hname (Field.writeAll_cons (f := .u16 port) rfl Field.writeAll_nil))
  have hencode := encode_of_writeAll (m := serviceAnnouncement token service port) rfl rfl hrow
  refine ⟨_, hencode, ?_⟩
  have hdecode := decode_encode_tooLong? hencode []
  have hsize : (serviceAnnouncement token service port).tooLong? =
      some (Utf16.encode service.toList).length := by
    show (Field.excess? (.utf16 service)).or none = _
    rw [Field.excess?, Option.guard, if_pos (decide_eq_true hlong), Option.or_none]
  rwa [hsize, List.append_nil] at hdecode

/-- A text of so many letters. -/
def longName (n : Nat) : String := String.ofList (List.replicate n 'a')

theorem length_longName (n : Nat) : (Utf16.encode (longName n).toList).length = 2 * n := by
  have hunit : Utf16.unitsOf 'a' = [0x61] := rfl
  rw [Utf16.length_encode, longName, String.toList_ofList, Utf16.units, List.length_flatMap,
    List.map_replicate, hunit, List.sum_replicate]
  simp

theorem not_every_written_read : ¬ ∀ (m : Message) (b : Octets), m.encode = .ok b →
    ∀ size limit, m.kind.decode b ≠ .error (.tooLarge size limit) := by
  intro hall
  have hlong : frameLimit < (Utf16.encode (longName 5242881).toList).length := by
    rw [length_longName]
    decide
  have hcap : (Utf16.encode (longName 5242881).toList).length ≤ lengthLimit := by
    rw [length_longName]
    decide
  obtain ⟨b, hencode, hrefused⟩ := serviceAnnouncement_refused .zero 1 hlong hcap
  exact hall _ b hencode _ _ hrefused

end Message

end BoothLink
